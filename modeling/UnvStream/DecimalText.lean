import Mathlib.Algebra.Ring.Nat
import Mathlib.Data.Int.Basic
import Mathlib.Data.List.TakeWhile

/-!
# Decimal integers as text

`printInt` is what an output stream writes for an integer. `parseInt` reads white
space, an optional sign and the longest run of digits, and ignores what follows.
-/

namespace DecimalText

def printNat (n : Nat) : List Char := Nat.toDigits 10 n

def printInt (x : Int) : List Char :=
  if x < 0 then '-' :: printNat x.natAbs else printNat x.natAbs

theorem printInt_of_nonneg {x : Int} (nonneg : 0 ≤ x) : printInt x = printNat x.toNat := by
  have value : x.natAbs = x.toNat := by omega
  rw [printInt, if_neg (Int.not_lt.mpr nonneg), value]

/-- The characters `isspace` accepts in the default locale. -/
def isSpace (c : Char) : Bool :=
  c = ' ' || c = '\t' || c = '\n' || c = '\x0b' || c = '\x0c' || c = '\r'

def parseNat (text : List Char) : Nat := Nat.ofDigitChars 10 (text.takeWhile Char.isDigit) 0

def parseSigned : List Char → Int
  | '-' :: rest => -(parseNat rest : Int)
  | '+' :: rest => parseNat rest
  | rest => parseNat rest

def parseInt (text : List Char) : Int := parseSigned (text.dropWhile isSpace)

theorem isDigit_of_mem_printNat {n : Nat} {c : Char} (h : c ∈ printNat n) :
    c.isDigit = true :=
  Nat.isDigit_of_mem_toDigits (by decide) (by decide) h

theorem printNat_ne_nil (n : Nat) : printNat n ≠ [] := Nat.toDigits_ne_nil

/-- No digit follows a printed number. -/
def Stops (rest : List Char) : Prop := ∀ c ∈ rest.head?, c.isDigit = false

theorem stops_cons {c : Char} (h : c.isDigit = false) (rest : List Char) : Stops (c :: rest) := by
  intro d hd
  cases hd
  exact h

theorem takeWhile_stops {rest : List Char} (stops : Stops rest) :
    rest.takeWhile Char.isDigit = [] := by
  cases rest with
  | nil => rfl
  | cons c rest =>
    have h := stops c rfl
    simp [h]

theorem parseNat_printNat (n : Nat) {rest : List Char} (stops : Stops rest) :
    parseNat (printNat n ++ rest) = n := by
  have digits : ∀ c ∈ printNat n, c.isDigit = true := fun c hc => isDigit_of_mem_printNat hc
  have run : (printNat n ++ rest).takeWhile Char.isDigit = printNat n := by
    rw [List.takeWhile_append_of_pos digits, takeWhile_stops stops, List.append_nil]
  rw [parseNat, run]
  exact Nat.ofDigitChars_ten_toDigits

/-- A printed number starts with a digit. -/
theorem printNat_head (n : Nat) : ∃ c cs, printNat n = c :: cs ∧ c.isDigit = true := by
  obtain ⟨c, cs, h⟩ := List.exists_cons_of_ne_nil (printNat_ne_nil n)
  have first : c ∈ printNat n := by
    rw [h]
    exact List.mem_cons_self
  exact ⟨c, cs, h, isDigit_of_mem_printNat first⟩

theorem isSpace_of_isDigit {c : Char} (h : c.isDigit = true) :
    isSpace c = false ∧ c ≠ '-' ∧ c ≠ '+' := by
  refine ⟨?_, ?_, ?_⟩
  · simp only [isSpace, Bool.or_eq_false_iff, decide_eq_false_iff_not]
    refine ⟨⟨⟨⟨⟨?_, ?_⟩, ?_⟩, ?_⟩, ?_⟩, ?_⟩ <;> rintro rfl <;> exact absurd h (by decide)
  · rintro rfl
    exact absurd h (by decide)
  · rintro rfl
    exact absurd h (by decide)

theorem parseSigned_unsigned {c : Char} (minus : c ≠ '-') (plus : c ≠ '+') (cs : List Char) :
    parseSigned (c :: cs) = parseNat (c :: cs) := by
  unfold parseSigned
  split
  · rename_i rest h
    exact absurd (List.cons.inj h).1 minus
  · rename_i rest h
    exact absurd (List.cons.inj h).1 plus
  · rfl

/-- Reading back a printed integer, whatever follows it. -/
theorem parseInt_printInt (x : Int) {rest : List Char} (stops : Stops rest) :
    parseInt (printInt x ++ rest) = x := by
  have value := parseNat_printNat x.natAbs stops
  by_cases negative : x < 0
  · have text : (printInt x ++ rest).dropWhile isSpace =
        '-' :: (printNat x.natAbs ++ rest) := by
      rw [printInt, if_pos negative]
      rfl
    rw [parseInt, text, parseSigned, value]
    omega
  · obtain ⟨c, cs, head, digit⟩ := printNat_head x.natAbs
    obtain ⟨notSpace, minus, plus⟩ := isSpace_of_isDigit digit
    rw [head, List.cons_append] at value
    have text : (printInt x ++ rest).dropWhile isSpace = c :: (cs ++ rest) := by
      rw [printInt, if_neg negative, head, List.cons_append]
      simp [notSpace]
    rw [parseInt, text, parseSigned_unsigned minus plus, value]
    omega

/-- A printed integer holds digits and a sign only. -/
theorem mem_printInt {x : Int} {c : Char} (h : c ∈ printInt x) : c.isDigit = true ∨ c = '-' := by
  unfold printInt at h
  by_cases negative : x < 0
  · rw [if_pos negative] at h
    rcases List.mem_cons.mp h with rfl | h
    · exact Or.inr rfl
    · exact Or.inl (isDigit_of_mem_printNat h)
  · rw [if_neg negative] at h
    exact Or.inl (isDigit_of_mem_printNat h)

theorem printNat_length_le {n k : Nat} (positive : 0 < k) (small : n < 10 ^ k) :
    (printNat n).length ≤ k :=
  (Nat.length_toDigits_le_iff (by decide) positive).mpr small

/-- What a stream holds of an integer with a width and the flag 0. -/
def printPadded (width : Nat) (x : Int) : List Char :=
  let sign := if x < 0 then ['-'] else []
  sign ++ List.replicate (width - sign.length - (printNat x.natAbs).length) '0' ++
    printNat x.natAbs

theorem printPadded_of_nonneg (width : Nat) {x : Int} (nonneg : 0 ≤ x) :
    printPadded width x =
      List.replicate (width - (printNat x.natAbs).length) '0' ++ printNat x.natAbs := by
  rw [printPadded, if_neg (Int.not_lt.mpr nonneg)]
  rfl

theorem printPadded_length_le {width k : Nat} {x : Int} (nonneg : 0 ≤ x) (positive : 0 < k)
    (small : x.natAbs < 10 ^ k) (narrow : width ≤ k) : (printPadded width x).length ≤ k := by
  have digits := printNat_length_le positive small
  rw [printPadded_of_nonneg width nonneg, List.length_append, List.length_replicate]
  omega

/-- Zeros in front of a number do not change it. -/
theorem parseNat_printPadded (width : Nat) {x : Int} (nonneg : 0 ≤ x) :
    parseNat (printPadded width x) = x.natAbs := by
  have digits : ∀ c ∈ printPadded width x, c.isDigit = true := by
    rw [printPadded_of_nonneg width nonneg]
    intro c among
    rcases List.mem_append.mp among with zero | digit
    · obtain rfl := List.eq_of_mem_replicate zero
      rfl
    · exact isDigit_of_mem_printNat digit
  rw [parseNat, List.takeWhile_eq_self_iff.mpr digits, printPadded_of_nonneg width nonneg,
    Nat.ofDigitChars_append, Nat.ofDigitChars_replicate_zero, Nat.mul_zero]
  exact Nat.ofDigitChars_ten_toDigits

theorem printPadded_inj {width : Nat} {x y : Int} (nonneg : 0 ≤ x) (nonneg' : 0 ≤ y)
    (same : printPadded width x = printPadded width y) : x = y := by
  have values := congrArg parseNat same
  rw [parseNat_printPadded width nonneg, parseNat_printPadded width nonneg'] at values
  omega

end DecimalText
