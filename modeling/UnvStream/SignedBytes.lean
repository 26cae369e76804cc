import Mathlib.Data.List.Basic
import Mathlib.Algebra.Ring.Int.Defs

/-!
# 32-bit integers in signed bytes

A shift followed by a truncation takes one byte out of an integer. Read back as a
number from 0 to 255, the bytes are the digits of the integer to base 256, whatever
the signs of the integer and of the bytes are.
-/

namespace SignedBytes

/-- The byte of an integer `shift` bits up. -/
def byteAt (x : Int32) (shift : Nat) : Int8 := (x >>> Int32.ofNat shift).toInt8

/-- `count` bytes from byte `i` up, the most significant first. -/
def bigEndian (x : Int32) (i : Nat) : Nat → List Int8
  | 0 => []
  | count + 1 => bigEndian x (i + 1) count ++ [byteAt x (8 * i)]

@[simp] theorem bigEndian_length (x : Int32) (i count : Nat) :
    (bigEndian x i count).length = count := by
  induction count generalizing i with
  | zero => rfl
  | succ count ih => simp only [bigEndian, List.length_append, ih, List.length_singleton]

theorem shift_amount : ∀ shift : Fin 32,
    (Int32.ofNat shift).toBitVec.smod 32 = BitVec.ofNat 32 shift := by decide

theorem toInt_shiftRight (x : Int32) {shift : Nat} (short : shift < 32) :
    (x >>> Int32.ofNat shift).toInt = x.toInt / 2 ^ shift := by
  change (BitVec.sshiftRight' x.toBitVec ((Int32.ofNat shift).toBitVec.smod 32)).toInt = _
  rw [shift_amount ⟨shift, short⟩, BitVec.toInt_sshiftRight', BitVec.toNat_ofNat,
    Nat.mod_eq_of_lt (by omega), Int.shiftRight_eq_div_pow]
  simp

theorem toInt8_emod (x : Int32) : x.toInt8.toInt % 256 = x.toInt % 256 := by
  rw [Int32.toInt_toInt8]
  exact Int.bmod_emod

/-- Without its sign, a byte of an integer is a digit of it. -/
theorem byteAt_emod (x : Int32) {shift : Nat} (short : shift < 32) :
    (byteAt x shift).toInt % 256 = x.toInt / 2 ^ shift % 256 := by
  rw [byteAt, toInt8_emod, toInt_shiftRight x short]

theorem two_digits (a : Int) : a % 256 + 256 * (a / 2 ^ 8 % 256) = a % 2 ^ 16 := by omega

theorem four_digits (a : Int) :
    a % 256 + 256 * (a / 2 ^ 8 % 256) + 65536 * (a / 2 ^ 16 % 256) +
      16777216 * (a / 2 ^ 24 % 256) = a % 2 ^ 32 := by omega

/-- An integer is determined by its residue modulo 2^32. -/
theorem ofInt_emod (x : Int32) : Int32.ofInt (x.toInt % 2 ^ 32) = x := by
  rw [Int32.ofInt_eq_iff_bmod_eq_toInt]
  exact (Int.emod_bmod x.toInt (2 ^ 32)).trans x.toInt_bmod

theorem low_bits : ∀ i < 32, (127#32).getLsbD i = decide (i < 7) := by decide

theorem mark_bit : ∀ i < 7, (128#32).getLsbD i = false := by decide

/-- The low seven bits pass through a byte with a bit set above them. -/
theorem marked_low_bits (x : Int32) :
    ((128 : Int32) ||| x).toInt8.toInt32 &&& 127 = x &&& 127 := by
  apply Int32.toBitVec_inj.mp
  change ((128#32 ||| x.toBitVec).signExtend 8).signExtend 32 &&& 127#32 = x.toBitVec &&& 127#32
  apply BitVec.eq_of_getLsbD_eq
  intro i hi
  rw [BitVec.getLsbD_and, BitVec.getLsbD_and, low_bits i hi]
  by_cases seven : i < 7
  · have inByte : i < 8 := by omega
    simp only [BitVec.getLsbD_signExtend, BitVec.getLsbD_or, mark_bit i seven, hi, inByte,
      decide_true, if_true, Bool.true_and, Bool.false_or]
  · simp only [seven, decide_false, Bool.and_false]

theorem and_low_bits (x : Int32) : (x &&& 127).toInt = x.toInt % 128 := by
  have bits : (x &&& 127).toBitVec.toNat = x.toBitVec.toNat % 128 := by
    have masked := Nat.and_two_pow_sub_one_eq_mod x.toBitVec.toNat 7
    exact (BitVec.toNat_and _ _).trans masked
  have value : (x &&& 127).toInt = (x &&& 127).toBitVec.toInt := rfl
  have whole : x.toInt = x.toBitVec.toInt := rfl
  rw [value, whole, BitVec.toInt_eq_toNat_cond, BitVec.toInt_eq_toNat_cond, bits]
  split <;> split <;> omega

end SignedBytes
