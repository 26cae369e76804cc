import UnvStream.CheckedMemory
import Mathlib.Algebra.Ring.Nat
import Mathlib.Data.List.TakeWhile

/-!
# The input mode

`get_options` copies the argument of -m in upper case, `main` compares the copy with a
literal in lower case and `runVideoLoop` with literals in upper case. The copy has one cell
for each character of the argument and none for the terminator.
-/

namespace ModeSelection

open CheckedMemory

/-- An argument of the command line, without its terminator. -/
structure Argument where
  chars : List Char
  noNul : '\x00' ∉ chars

def Argument.strlen (s : Argument) : Nat := s.chars.length

/-- Memory from `malloc`. -/
structure Block where
  size : Nat
  cells : Vector Char size

structure Options where
  mode : Option Block
  error : Bool

def Options.start : Options := ⟨none, false⟩

/-- The loop from `i` on, for `count` passes. -/
def copyUpper {n : Nat} (optarg : List Char) (mode : Vector Char n) (i : Nat) :
    Nat → Option (Vector Char n)
  | 0 => some mode
  | count + 1 => do
    let c ← optarg[i]?
    let mode ← store mode i c.toUpper
    copyUpper optarg mode (i + 1) count

/-- The passes of `for (int i=0; i<(int)strlen(optarg)-1; i++)`. -/
def copyPasses (optarg : Argument) : Nat := ((Int32.ofNat optarg.strlen).toInt - 1).toNat

/-- Case 'm' of `get_options`, with what `malloc` finds in the memory it returns. -/
def getMode (malloc : (n : Nat) → Vector Char n) (opts : Options) (optarg : Argument) :
    Option Options :=
  if optarg.strlen ≤ 0 then some { opts with error := true }
  else do
    let cells ← copyUpper optarg.chars (malloc optarg.strlen) 0 (copyPasses optarg)
    return { opts with mode := some ⟨optarg.strlen, cells⟩ }

/-- Whether `strcmp` of the memory from `i` on and a literal is 0. -/
def strcmpIsZero {n : Nat} (mem : Vector Char n) (i : Nat) : List Char → Option Bool
  | [] => do
    let c ← load mem i
    return decide (c = '\x00')
  | x :: xs => do
    let c ← load mem i
    if c = x then strcmpIsZero mem (i + 1) xs else return false

/-- Two tests, of which the second is not made if the first holds. -/
def either (first second : Option Bool) : Option Bool := do
  if ← first then return true else second

/-- The test of `main`, which makes the same comparison twice. -/
def opensFile (mode : Block) : Option Bool :=
  either (strcmpIsZero mode.cells 0 "file".toList) (strcmpIsZero mode.cells 0 "file".toList)

/-- The test of `runVideoLoop`. -/
def pacesFile (mode : Block) : Option Bool :=
  either (strcmpIsZero mode.cells 0 "FILE".toList) (strcmpIsZero mode.cells 0 "FIL".toList)

/-- The string in a block, if it ends there. -/
def cString (mode : Block) : Option (List Char) :=
  if '\x00' ∈ mode.cells.toList then some (mode.cells.toList.takeWhile (· ≠ '\x00')) else none

/-- The option holds the argument in upper case, and both tests find out whether it is "file" in
any case. -/
structure Selected (mode : Block) (optarg : Argument) : Prop where
  stored : cString mode = some (optarg.chars.map Char.toUpper)
  opened : opensFile mode = some (decide (optarg.chars.map Char.toLower = "file".toList))
  paced : pacesFile mode = opensFile mode

def ModeSelected (malloc : (n : Nat) → Vector Char n) (optarg : Argument) : Prop :=
  ∃ mode, getMode malloc Options.start optarg = some ⟨some mode, false⟩ ∧ Selected mode optarg

/-- A string that ends in a block is shorter than the block. -/
theorem cString_shorter {mode : Block} {text : List Char} (ends : cString mode = some text) :
    text.length < mode.size := by
  rw [cString] at ends
  split at ends
  · rename_i nul
    obtain rfl := Option.some.inj ends
    have size : mode.cells.toList.length = mode.size := Vector.length_toList
    have within := List.takeWhile_prefix (· ≠ '\x00') (l := mode.cells.toList)
    rcases Nat.lt_or_eq_of_le within.length_le with shorter | whole
    · omega
    · have clean := List.takeWhile_eq_self_iff.mp (within.eq_of_length whole) _ nul
      exact absurd rfl (of_decide_eq_true clean)
  · cases ends

theorem getMode_size {malloc : (n : Nat) → Vector Char n} {opts : Options} {optarg : Argument}
    {mode : Block} {error : Bool} (fresh : opts.mode = none)
    (got : getMode malloc opts optarg = some ⟨some mode, error⟩) : mode.size = optarg.strlen := by
  rw [getMode] at got
  split at got
  · have missing : opts.mode = some mode := congrArg Options.mode (Option.some.inj got)
    rw [fresh] at missing
    cases missing
  · obtain ⟨cells, _, stored⟩ := Option.bind_eq_some_iff.mp got
    have block := congrArg Options.mode (Option.some.inj stored)
    exact congrArg Block.size (Option.some.inj block).symm

/-- No argument is stored with its terminator in the memory allocated for it. -/
theorem not_stored {malloc : (n : Nat) → Vector Char n} {optarg : Argument} {mode : Block}
    {error : Bool} (got : getMode malloc Options.start optarg = some ⟨some mode, error⟩) :
    cString mode ≠ some (optarg.chars.map Char.toUpper) := by
  intro stored
  have shorter := cString_shorter stored
  rw [getMode_size rfl got, Argument.strlen, List.length_map] at shorter
  exact Nat.lt_irrefl _ shorter

theorem copyUpper_eq_storeAll {n : Nat} (optarg : List Char) (mode : Vector Char n)
    {i count : Nat} (inside : i + count ≤ optarg.length) :
    copyUpper optarg mode i count =
      storeAll mode i (((optarg.drop i).take count).map Char.toUpper) := by
  induction count generalizing i mode with
  | zero =>
    rw [List.take_zero]
    rfl
  | succ count ih =>
    have here : i < optarg.length := by omega
    rw [List.drop_eq_getElem_cons here, List.take_succ_cons, List.map_cons, storeAll, copyUpper,
      List.getElem?_eq_getElem here]
    simp only [Option.bind_eq_bind, Option.bind_some]
    exact congrArg (Option.bind _) (funext fun mode' => ih mode' (by omega))

/-- The loop leaves the last character out. -/
theorem copyPasses_of_short {optarg : Argument} (short : optarg.strlen < 2 ^ 31) :
    copyPasses optarg = optarg.strlen - 1 := by
  rw [copyPasses, Int32.toInt_ofNat_of_lt short]
  omega

/-- The memory holds all characters but the last in upper case, and then what it held before. -/
theorem getMode_spec (malloc : (n : Nat) → Vector Char n) {optarg : Argument}
    (nonempty : optarg.chars ≠ []) (short : optarg.strlen < 2 ^ 31) :
    ∃ cells : Vector Char optarg.strlen,
      getMode malloc Options.start optarg = some ⟨some ⟨optarg.strlen, cells⟩, false⟩ ∧
      region cells 0 (optarg.strlen - 1) = optarg.chars.dropLast.map Char.toUpper ∧
      region cells (optarg.strlen - 1) 1 =
        region (malloc optarg.strlen) (optarg.strlen - 1) 1 := by
  have positive : 0 < optarg.strlen := List.length_pos_iff.mpr nonempty
  have front : (optarg.chars.drop 0).take (optarg.strlen - 1) = optarg.chars.dropLast := by
    rw [List.drop_zero, List.dropLast_eq_take]
    rfl
  have length : (optarg.chars.dropLast.map Char.toUpper).length = optarg.strlen - 1 := by
    rw [List.length_map, List.length_dropLast]
    rfl
  obtain ⟨cells, stored, block, frame⟩ := storeAll_spec (malloc optarg.strlen) 0
    (optarg.chars.dropLast.map Char.toUpper) (by omega)
  rw [length] at block frame
  have copied : copyUpper optarg.chars (malloc optarg.strlen) 0 (copyPasses optarg) =
      some cells := by
    rw [copyPasses_of_short short, copyUpper_eq_storeAll _ _ (Nat.zero_add _ ▸ Nat.sub_le _ _),
      front, stored]
  refine ⟨cells, ?_, block, frame _ _ (Or.inr (by omega))⟩
  rw [getMode, if_neg (by omega), copied]
  rfl

theorem toUpper_val (c : Char) : c.toUpper.val =
    if 'a'.val ≤ c.val ∧ c.val ≤ 'z'.val then c.val + ('A'.val - 'a'.val) else c.val :=
  apply_dite Char.val ('a'.val ≤ c.val ∧ c.val ≤ 'z'.val) _ _

/-- No character of the copy is a small letter. -/
theorem toUpper_ne_f (c : Char) : c.toUpper ≠ 'f' := by
  intro same
  have value : c.toUpper.val = 'f'.val := congrArg Char.val same
  rw [toUpper_val] at value
  split at value
  · rename_i lower
    have letter : c.val = 'f'.val - ('A'.val - 'a'.val) := UInt32.eq_sub_iff_add_eq.mpr value
    rw [letter] at lower
    exact absurd lower (by decide)
  · rename_i other
    rw [value] at other
    exact other (by decide)

theorem strcmp_differs {n : Nat} {mem : Vector Char n} {c x : Char} (loaded : load mem 0 = some c)
    (differs : c ≠ x) (xs : List Char) : strcmpIsZero mem 0 (x :: xs) = some false := by
  rw [strcmpIsZero, loaded]
  exact if_neg differs

/-- An argument of two characters or more opens a device. -/
theorem opened_as_device {malloc : (n : Nat) → Vector Char n} {optarg : Argument} {mode : Block}
    {error : Bool} (long : 2 ≤ optarg.strlen) (short : optarg.strlen < 2 ^ 31)
    (got : getMode malloc Options.start optarg = some ⟨some mode, error⟩) :
    opensFile mode = some false := by
  have nonempty : optarg.chars ≠ [] :=
    List.length_pos_iff.mp (Nat.lt_of_lt_of_le Nat.zero_lt_two long)
  obtain ⟨c, tail, chars⟩ := List.exists_cons_of_ne_nil nonempty
  have more : tail ≠ [] := by
    rintro rfl
    rw [Argument.strlen, chars, List.length_singleton] at long
    exact absurd long (by decide)
  obtain ⟨cells, stored, block, _⟩ := getMode_spec malloc nonempty short
  have same := congrArg Options.mode (Option.some.inj (got.symm.trans stored))
  obtain rfl : mode = ⟨optarg.strlen, cells⟩ := Option.some.inj same
  have count : optarg.strlen - 1 = (optarg.strlen - 2) + 1 := by omega
  rw [chars, List.dropLast_cons_of_ne_nil more, List.map_cons, count] at block
  have loaded := (load_of_region (by omega : 0 < optarg.strlen) block).1
  have refused : strcmpIsZero cells 0 "file".toList = some false :=
    strcmp_differs loaded (toUpper_ne_f c) "ile".toList
  rw [opensFile, refused]
  rfl

/-- No argument is selected as it is meant to be, and "file" in any case is opened as a device. -/
theorem mode_never_selected (malloc : (n : Nat) → Vector Char n) (optarg : Argument) :
    ¬ ModeSelected malloc optarg ∧
      (optarg.chars.map Char.toLower = "file".toList → ∀ mode error,
        getMode malloc Options.start optarg = some ⟨some mode, error⟩ →
        opensFile mode = some false) := by
  constructor
  · rintro ⟨mode, got, stored, _, _⟩
    exact not_stored got stored
  · intro file mode error got
    have four : optarg.strlen = 4 := by
      have lengths := congrArg List.length file
      rwa [List.length_map] at lengths
    exact opened_as_device (by omega) (by omega) got

def fileArgument : Argument := ⟨"file".toList, by decide⟩

/-- In memory of zeros "file" becomes "FIL", which is opened as a device and paced as a file. -/
theorem file_not_selected :
    (∃ mode, getMode (Vector.replicate · '\x00') Options.start fileArgument =
        some ⟨some mode, false⟩ ∧
      cString mode = some "FIL".toList ∧ opensFile mode = some false ∧
      pacesFile mode = some true) ∧
    ¬ ModeSelected (Vector.replicate · '\x00') fileArgument := by
  constructor
  · exact ⟨⟨4, #v['F', 'I', 'L', '\x00']⟩, rfl, by decide, by decide, by decide⟩
  · rintro ⟨mode, got, stored, _, _⟩
    exact not_stored got stored

end ModeSelection
