import Mathlib.Data.List.Basic

/-!
# One entry of a list replaced or added

A state that keeps its threads or its descriptors in a list changes one entry with each step. What
is found at a place behind the step, and how many entries have a property.
-/

namespace ListEdits

universe u
variable {α : Type u} {l : List α} {j k : Nat} {x y : α}

theorem of_set (found : (l.set k x)[j]? = some y) : j = k ∧ y = x ∨ j ≠ k ∧ l[j]? = some y := by
  by_cases same : j = k
  · subst same
    obtain ⟨inside, value⟩ := List.getElem?_eq_some_iff.mp found
    rw [List.getElem_set_self] at value
    exact Or.inl ⟨rfl, value.symm⟩
  · rw [List.getElem?_set_ne (Ne.symm same)] at found
    exact Or.inr ⟨same, found⟩

theorem set_there (there : l[k]? = some x) (y : α) : (l.set k y)[k]? = some y :=
  List.getElem?_set_self (List.getElem?_eq_some_iff.mp there).1

theorem of_concat (found : (l ++ [x])[k]? = some y) : l[k]? = some y ∨ k = l.length ∧ y = x := by
  rcases Nat.lt_or_ge k l.length with inside | behind
  · rw [List.getElem?_append_left inside] at found
    exact Or.inl found
  · rw [List.getElem?_append_right behind] at found
    obtain ⟨single, value⟩ := List.getElem?_eq_some_iff.mp found
    rw [List.getElem_singleton] at value
    rw [List.length_singleton] at single
    exact Or.inr ⟨by omega, value.symm⟩

/-- What one replacement does to a count. -/
theorem countP_set {p : α → Bool} (there : l[k]? = some x) (y : α) :
    (l.set k y).countP p + (if p x = true then 1 else 0) =
      l.countP p + (if p y = true then 1 else 0) := by
  obtain ⟨inside, rfl⟩ := List.getElem?_eq_some_iff.mp there
  have counted := List.boole_getElem_le_countP (p := p) inside
  rw [List.countP_set inside]
  omega

/-- Entries at two places are counted twice. -/
theorem two_le_countP {p : α → Bool} (before : j < k) (first : l[j]? = some x)
    (second : l[k]? = some y) (px : p x = true) (py : p y = true) : 2 ≤ l.countP p := by
  have early : 0 < (l.take k).countP p := by
    refine List.countP_pos_iff.mpr ⟨x, List.mem_of_getElem? (i := j) ?_, px⟩
    rw [List.getElem?_take_of_lt before, first]
  have late : 0 < (l.drop k).countP p := by
    refine List.countP_pos_iff.mpr ⟨y, List.mem_of_getElem? (i := 0) ?_, py⟩
    rw [List.getElem?_drop, Nat.add_zero, second]
  have split := @List.countP_append _ p (l.take k) (l.drop k)
  rw [List.take_append_drop] at split
  omega

end ListEdits
