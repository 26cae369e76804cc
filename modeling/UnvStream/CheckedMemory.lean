import Mathlib.Data.List.Basic

/-!
# Fixed arrays with checked accesses

An array of `n` cells is a `Vector`; every access states its index and yields
`none` when the index lies outside the array. A program that only succeeds
therefore never leaves its arrays. `region` is the specification view: the
list of cells of an index interval.
-/

namespace CheckedMemory

universe u
variable {α : Type u} {n : Nat}

def load (mem : Vector α n) (i : Nat) : Option α := mem[i]?

def store (mem : Vector α n) (i : Nat) (x : α) : Option (Vector α n) :=
  if h : i < n then some (mem.set i x) else none

/-- Stores at consecutive indices, in increasing order. -/
def storeAll (mem : Vector α n) (off : Nat) : List α → Option (Vector α n)
  | [] => some mem
  | x :: xs => (store mem off x).bind fun mem' => storeAll mem' (off + 1) xs

def region (mem : Vector α n) (off len : Nat) : List α :=
  (mem.toList.drop off).take len

/-- A block transfer out of the array, checked once for the whole interval. -/
def read (mem : Vector α n) (off len : Nat) : Option (List α) :=
  if off + len ≤ n then some (region mem off len) else none

/-- The loop that copies consecutive cells of one array, from `i` on, to consecutive
cells of another, from `j` on. -/
def copy {m : Nat} (src : Vector α m) (i : Nat) (dst : Vector α n) (j : Nat) :
    Nat → Option (Vector α n)
  | 0 => some dst
  | count + 1 => do
    let x ← load src i
    let dst ← store dst j x
    copy src (i + 1) dst (j + 1) count

theorem store_of_lt (mem : Vector α n) {i : Nat} (h : i < n) (x : α) :
    store mem i x = some (mem.set i x) := by
  simp [store, h]

theorem read_of_le (mem : Vector α n) {off len : Nat} (h : off + len ≤ n) :
    read mem off len = some (region mem off len) := by
  simp [read, h]

@[simp] theorem region_zero (mem : Vector α n) (off : Nat) : region mem off 0 = [] := by
  simp [region]

@[simp] theorem region_length (mem : Vector α n) {off len : Nat} (h : off + len ≤ n) :
    (region mem off len).length = len := by
  simp only [region, List.length_take, List.length_drop, Vector.length_toList]
  omega

theorem region_append (mem : Vector α n) (off a b : Nat) :
    region mem off (a + b) = region mem off a ++ region mem (off + a) b := by
  simp only [region, List.take_add, List.drop_drop]

theorem region_take (mem : Vector α n) (off : Nat) {a b : Nat} (h : a ≤ b) :
    (region mem off b).take a = region mem off a := by
  simp only [region, List.take_take, Nat.min_eq_left h]

theorem region_drop (mem : Vector α n) (off a b : Nat) :
    (region mem off (a + b)).drop a = region mem (off + a) b := by
  simp only [region, List.drop_take, List.drop_drop, Nat.add_sub_cancel_left]

theorem region_getElem? (mem : Vector α n) (off len j : Nat) (h : j < len) :
    (region mem off len)[j]? = mem[off + j]? := by
  simp only [region, List.getElem?_take_of_lt h, List.getElem?_drop, Vector.getElem?_toList]

theorem region_ext {mem mem' : Vector α n} {off len : Nat}
    (same : ∀ j, j < len → mem[off + j]? = mem'[off + j]?) :
    region mem off len = region mem' off len := by
  apply List.ext_getElem?
  intro j
  by_cases hj : j < len
  · rw [region_getElem? mem off len j hj, region_getElem? mem' off len j hj, same j hj]
  · have short : ∀ m : Vector α n, (region m off len)[j]? = none := fun m => by
      apply List.getElem?_eq_none
      simp only [region, List.length_take]
      omega
    rw [short, short]

/-- A store outside an interval leaves the interval as it was. -/
theorem region_set_outside (mem : Vector α n) {i off len : Nat} (x : α) (h : i < n)
    (outside : i < off ∨ off + len ≤ i) :
    region (mem.set i x) off len = region mem off len := by
  apply region_ext
  intro j hj
  rw [Vector.getElem?_set_ne h (by omega)]

theorem region_set_head (mem : Vector α n) {i : Nat} (len : Nat) (x : α) (h : i < n) :
    region (mem.set i x) i (len + 1) = x :: region mem (i + 1) len := by
  have first : region (mem.set i x) i 1 = [x] := by
    apply List.ext_getElem?
    intro j
    cases j with
    | zero => rw [region_getElem? _ _ _ _ (by omega)]; simp
    | succ j =>
      rw [List.getElem?_eq_none (by simp only [region, List.length_take]; omega)]
      simp
  rw [Nat.add_comm len 1, region_append, first,
    region_set_outside mem x h (Or.inl (Nat.lt_succ_self i))]
  rfl

theorem region_cons (mem : Vector α n) {i : Nat} (len : Nat) (h : i < n) :
    region mem i (len + 1) = mem[i] :: region mem (i + 1) len := by
  have head := region_set_head mem len mem[i] h
  rwa [Vector.set_getElem_self] at head

/-- What an interval says of its first cell and of the cells behind it. -/
theorem load_of_region {mem : Vector α n} {i len : Nat} {x : α} {xs : List α} (inside : i < n)
    (block : region mem i (len + 1) = x :: xs) :
    load mem i = some x ∧ region mem (i + 1) len = xs := by
  obtain ⟨first, rest⟩ := List.cons.inj ((region_cons mem len inside).symm.trans block)
  refine ⟨?_, rest⟩
  rw [load, Vector.getElem?_eq_getElem inside]
  exact congrArg some first

/-- The effect of one store, seen through the intervals of the array. -/
theorem store_spec (mem : Vector α n) {i : Nat} (x : α) (h : i < n) :
    ∃ mem', store mem i x = some mem' ∧
      (∀ len, region mem' i (len + 1) = x :: region mem (i + 1) len) ∧
      ∀ off len, i < off ∨ off + len ≤ i → region mem' off len = region mem off len :=
  ⟨mem.set i x, store_of_lt mem h x, fun len => region_set_head mem len x h,
    fun _ _ side => region_set_outside mem x h side⟩

/-- The effect of a block of stores: it fits exactly when the block does, the
block is then in place, and every interval beside it is unchanged. -/
theorem storeAll_spec (mem : Vector α n) (off : Nat) (xs : List α)
    (fits : off + xs.length ≤ n) :
    ∃ mem', storeAll mem off xs = some mem' ∧ region mem' off xs.length = xs ∧
      ∀ o l, o + l ≤ off ∨ off + xs.length ≤ o → region mem' o l = region mem o l := by
  induction xs generalizing mem off with
  | nil => exact ⟨mem, rfl, by simp, fun _ _ _ => rfl⟩
  | cons x xs ih =>
    simp only [List.length_cons] at fits
    have hoff : off < n := by omega
    obtain ⟨mem', run, block, frame⟩ := ih (mem.set off x) (off + 1) (by omega)
    refine ⟨mem', by rw [storeAll, store_of_lt mem hoff]; exact run, ?_, ?_⟩
    · have head : region mem' off 1 = region (mem.set off x) off 1 :=
        frame off 1 (Or.inl (Nat.le_refl _))
      have single : region (mem.set off x) off 1 = [x] := by
        rw [region_set_head mem 0 x hoff, region_zero]
      rw [List.length_cons, Nat.add_comm xs.length 1, region_append, head, single, block]
      rfl
    · intro o l side
      rw [frame o l (by simp only [List.length_cons] at side; omega),
        region_set_outside mem x hoff (by simp only [List.length_cons] at side; omega)]

theorem copy_eq_storeAll {m : Nat} (src : Vector α m) {i : Nat} (dst : Vector α n) (j : Nat)
    {count : Nat} (readable : i + count ≤ m) :
    copy src i dst j count = storeAll dst j (region src i count) := by
  induction count generalizing i j dst with
  | zero =>
    rw [region_zero]
    rfl
  | succ count ih =>
    have inside : i < m := by omega
    rw [region_cons src count inside, storeAll, copy, load, Vector.getElem?_eq_getElem inside]
    simp only [Option.bind_eq_bind, Option.bind_some]
    refine congrArg (Option.bind _) (funext fun dst' => ?_)
    exact ih dst' (j + 1) (by omega)

/-- A copy that stays inside both arrays puts the source interval in place and leaves
what lies beside it. -/
theorem copy_spec {m : Nat} (src : Vector α m) {i : Nat} (dst : Vector α n) {j count : Nat}
    (readable : i + count ≤ m) (fits : j + count ≤ n) :
    ∃ dst', copy src i dst j count = some dst' ∧ region dst' j count = region src i count ∧
      ∀ o l, o + l ≤ j ∨ j + count ≤ o → region dst' o l = region dst o l := by
  have len := region_length src readable
  rw [copy_eq_storeAll src dst j readable]
  obtain ⟨dst', stored, block, frame⟩ := storeAll_spec dst j (region src i count) (by omega)
  rw [len] at block frame
  exact ⟨dst', stored, block, frame⟩

/-- A copy that ends has stayed inside both arrays. -/
theorem copy_inside {m : Nat} {src : Vector α m} {i : Nat} {dst dst' : Vector α n} {j count : Nat}
    (copied : copy src i dst j count = some dst') :
    count = 0 ∨ i + count ≤ m ∧ j + count ≤ n := by
  induction count generalizing i j dst with
  | zero => exact Or.inl rfl
  | succ count ih =>
    obtain ⟨x, loaded, copied⟩ := Option.bind_eq_some_iff.mp copied
    obtain ⟨dst1, stored, copied⟩ := Option.bind_eq_some_iff.mp copied
    have readable : i < m := by
      by_contra outside
      rw [load, Vector.getElem?_eq_none (by omega)] at loaded
      cases loaded
    have fits : j < n := by
      by_contra outside
      rw [store, dif_neg outside] at stored
      cases stored
    rcases ih copied with last | inside <;> omega

theorem storeAll_isSome_iff (mem : Vector α n) (off : Nat) (xs : List α) :
    (storeAll mem off xs).isSome ↔ xs = [] ∨ off + xs.length ≤ n := by
  induction xs generalizing mem off with
  | nil => simp [storeAll]
  | cons x xs ih =>
    by_cases h : off < n
    · rw [storeAll, store_of_lt mem h, Option.bind_some, ih]
      constructor
      · rintro (rfl | hfit)
        · exact Or.inr (by simp only [List.length_cons, List.length_nil]; omega)
        · exact Or.inr (by simp only [List.length_cons]; omega)
      · rintro (hnil | hfit)
        · exact False.elim (List.cons_ne_nil _ _ hnil)
        · exact Or.inr (by simp only [List.length_cons] at hfit; omega)
    · simp only [storeAll, store, h, dite_false, Option.bind_none, Option.isSome_none,
        Bool.false_eq_true, List.length_cons, false_iff, not_or]
      exact ⟨List.cons_ne_nil _ _, by omega⟩

end CheckedMemory
