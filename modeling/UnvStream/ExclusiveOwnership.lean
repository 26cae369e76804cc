import Mathlib.Logic.Function.Basic
import Mathlib.Logic.ExistsUnique
import Mathlib.Data.List.Basic

/-!
# Resources and the slots that hold them

A resource is open from the time it is obtained until it is released. Slots hold at most
one resource each, and an assignment overwrites what the slot held. An open resource that
no slot holds can never be released again.
-/

namespace ExclusiveOwnership

universe u v
variable {H : Type u} {R : Type v}

@[ext] structure Ledger (H : Type u) (R : Type v) where
  slot : H → Option R
  opened : List R

/-- What a slot holds is open, and no other slot holds it. -/
structure Sound (l : Ledger H R) : Prop where
  held : ∀ h r, l.slot h = some r → r ∈ l.opened
  once : ∀ h h' r, l.slot h = some r → l.slot h' = some r → h = h'

/-- Every open resource has exactly one holder. -/
def Owned (l : Ledger H R) : Prop := ∀ r ∈ l.opened, ∃! h, l.slot h = some r

theorem owned_iff {l : Ledger H R} (sound : Sound l) :
    Owned l ↔ ∀ r ∈ l.opened, ∃ h, l.slot h = some r := by
  constructor
  · intro owned r open_
    exact (owned r open_).exists
  · intro found r open_
    obtain ⟨h, holds⟩ := found r open_
    exact ⟨h, holds, fun h' holds' => sound.once h' h r holds' holds⟩

variable [DecidableEq H]

/-- The slot is overwritten with a resource just obtained, or with none. -/
def Ledger.assign (l : Ledger H R) (h : H) (r : Option R) : Ledger H R :=
  ⟨Function.update l.slot h r, r.toList ++ l.opened⟩

theorem mem_assign {l : Ledger H R} {h : H} {r : Option R} {x : R} :
    x ∈ (l.assign h r).opened ↔ r = some x ∨ x ∈ l.opened := by
  rw [Ledger.assign, List.mem_append, Option.mem_toList]

@[simp] theorem assign_same (l : Ledger H R) (h : H) (r : Option R) :
    (l.assign h r).slot h = r := by
  simp only [Ledger.assign, Function.update_self]

theorem assign_other {l : Ledger H R} {h h' : H} (other : h' ≠ h) (r : Option R) :
    (l.assign h r).slot h' = l.slot h' := by
  simp only [Ledger.assign, Function.update_of_ne other]

/-- A slot holds what it has been assigned or, if it is another one, what it held before. -/
theorem held_assign {l : Ledger H R} {h h' : H} {r : Option R} {x : R} :
    (l.assign h r).slot h' = some x ↔ h' = h ∧ r = some x ∨ h' ≠ h ∧ l.slot h' = some x := by
  by_cases same : h' = h
  · subst same
    rw [assign_same]
    constructor
    · intro obtained
      exact Or.inl ⟨rfl, obtained⟩
    · rintro (⟨_, obtained⟩ | ⟨other, _⟩)
      · exact obtained
      · exact absurd rfl other
  · rw [assign_other same]
    constructor
    · intro before
      exact Or.inr ⟨same, before⟩
    · rintro (⟨same', _⟩ | ⟨_, before⟩)
      · exact absurd same' same
      · exact before

/-- A resource that was open before the assignment is held where it was. -/
theorem held_assign_of_open {l : Ledger H R} {h h' : H} {r : Option R} {x : R}
    (fresh : ∀ x, r = some x → x ∉ l.opened) (open_ : x ∈ l.opened) :
    (l.assign h r).slot h' = some x ↔ h' ≠ h ∧ l.slot h' = some x := by
  rw [held_assign]
  constructor
  · rintro (⟨_, obtained⟩ | before)
    · exact absurd open_ (fresh x obtained)
    · exact before
  · exact Or.inr

theorem sound_assign {l : Ledger H R} (sound : Sound l) (h : H) {r : Option R}
    (fresh : ∀ x, r = some x → x ∉ l.opened) : Sound (l.assign h r) := by
  constructor
  · intro h' x holds
    rcases held_assign.mp holds with ⟨_, obtained⟩ | ⟨_, before⟩
    · exact mem_assign.mpr (Or.inl obtained)
    · exact mem_assign.mpr (Or.inr (sound.held h' x before))
  · intro h1 h2 x holds1 holds2
    rcases held_assign.mp holds1 with ⟨rfl, obtained⟩ | ⟨_, before1⟩
    · rcases held_assign.mp holds2 with ⟨rfl, _⟩ | ⟨_, before2⟩
      · rfl
      · exact absurd (sound.held h2 x before2) (fresh x obtained)
    · have open_ := sound.held h1 x before1
      exact sound.once h1 h2 x before1 ((held_assign_of_open fresh open_).mp holds2).2

/-- An assignment loses what its slot held, and nothing else. -/
theorem owned_assign_iff {l : Ledger H R} (sound : Sound l) (h : H) {r : Option R}
    (fresh : ∀ x, r = some x → x ∉ l.opened) :
    Owned (l.assign h r) ↔ Owned l ∧ l.slot h = none := by
  rw [owned_iff (sound_assign sound h fresh), owned_iff sound]
  constructor
  · intro owned
    have elsewhere (x : R) (open_ : x ∈ l.opened) : ∃ h', h' ≠ h ∧ l.slot h' = some x := by
      obtain ⟨h', holds⟩ := owned x (mem_assign.mpr (Or.inr open_))
      exact ⟨h', (held_assign_of_open fresh open_).mp holds⟩
    constructor
    · intro x open_
      obtain ⟨h', _, before⟩ := elsewhere x open_
      exact ⟨h', before⟩
    · cases held : l.slot h with
      | none => rfl
      | some x =>
        obtain ⟨h', other, before⟩ := elsewhere x (sound.held h x held)
        exact absurd (sound.once h' h x before held) other
  · rintro ⟨owned, vacant⟩ x open_
    rcases mem_assign.mp open_ with obtained | before
    · exact ⟨h, (assign_same l h r).trans obtained⟩
    · obtain ⟨h', holds⟩ := owned x before
      have other : h' ≠ h := by
        rintro rfl
        rw [vacant] at holds
        cases holds
      exact ⟨h', (assign_other other r).trans holds⟩

variable [DecidableEq R]

/-- What the slot holds is released. -/
def Ledger.release (l : Ledger H R) (h : H) : Ledger H R :=
  ⟨Function.update l.slot h none, l.opened.filter fun r => decide (l.slot h ≠ some r)⟩

theorem mem_release {l : Ledger H R} {h : H} {x : R} :
    x ∈ (l.release h).opened ↔ x ∈ l.opened ∧ l.slot h ≠ some x := by
  rw [Ledger.release, List.mem_filter, decide_eq_true_iff]

@[simp] theorem release_same (l : Ledger H R) (h : H) : (l.release h).slot h = none := by
  simp only [Ledger.release, Function.update_self]

theorem release_other {l : Ledger H R} {h h' : H} (other : h' ≠ h) :
    (l.release h).slot h' = l.slot h' := by
  simp only [Ledger.release, Function.update_of_ne other]

theorem held_release {l : Ledger H R} {h h' : H} {x : R} :
    (l.release h).slot h' = some x ↔ h' ≠ h ∧ l.slot h' = some x := by
  by_cases same : h' = h
  · subst same
    rw [release_same]
    exact iff_of_false nofun fun both => both.1 rfl
  · rw [release_other same]
    exact (and_iff_right same).symm

theorem sound_release {l : Ledger H R} (sound : Sound l) (h : H) : Sound (l.release h) := by
  constructor
  · intro h' x holds
    obtain ⟨other, before⟩ := held_release.mp holds
    exact mem_release.mpr
      ⟨sound.held h' x before, fun held => other (sound.once h' h x before held)⟩
  · intro h1 h2 x holds1 holds2
    exact sound.once h1 h2 x (held_release.mp holds1).2 (held_release.mp holds2).2

/-- A release keeps what is owned, and finds nothing that was lost. -/
theorem owned_release_iff {l : Ledger H R} (sound : Sound l) (h : H) :
    Owned (l.release h) ↔ Owned l := by
  rw [owned_iff (sound_release sound h), owned_iff sound]
  constructor
  · intro owned x open_
    by_cases held : l.slot h = some x
    · exact ⟨h, held⟩
    · obtain ⟨h', holds⟩ := owned x (mem_release.mpr ⟨open_, held⟩)
      exact ⟨h', (held_release.mp holds).2⟩
  · intro owned x open_
    obtain ⟨before, elsewhere⟩ := mem_release.mp open_
    obtain ⟨h', holds⟩ := owned x before
    have other : h' ≠ h := by
      rintro rfl
      exact elsewhere holds
    exact ⟨h', held_release.mpr ⟨other, holds⟩⟩

/-- One operation of a program: at most one assignment, then any releases. -/
inductive Change (l : Ledger H R) : Option H → Ledger H R → Prop
  | keep : Change l none l
  | assign (h : H) (r : Option R) (fresh : ∀ x, r = some x → x ∉ l.opened) :
    Change l (some h) (l.assign h r)
  | release {assigned : Option H} {l' : Ledger H R} (h : H) (before : Change l assigned l') :
    Change l assigned (l'.release h)

theorem Change.sound {l l' : Ledger H R} {assigned : Option H} (change : Change l assigned l')
    (start : Sound l) : Sound l' := by
  induction change with
  | keep => exact start
  | assign h r fresh => exact sound_assign start h fresh
  | release h before ih => exact sound_release ih h

/-- An operation keeps every resource owned exactly if the slot it assigns is empty. -/
theorem Change.owned_iff {l l' : Ledger H R} {assigned : Option H} (change : Change l assigned l')
    (start : Sound l) : Owned l' ↔ Owned l ∧ ∀ h, assigned = some h → l.slot h = none := by
  induction change with
  | keep => exact ⟨fun owned => ⟨owned, nofun⟩, And.left⟩
  | assign h r fresh =>
    rw [owned_assign_iff start h fresh]
    constructor
    · rintro ⟨owned, vacant⟩
      exact ⟨owned, fun h' same => Option.some.inj same ▸ vacant⟩
    · rintro ⟨owned, vacant⟩
      exact ⟨owned, vacant h rfl⟩
  | release h before ih => rw [owned_release_iff (before.sound start), ih]

end ExclusiveOwnership
