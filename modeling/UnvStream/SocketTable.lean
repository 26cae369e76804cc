import UnvStream.ListEdits

/-!
# Sockets of one process and the ports they are bound to

A socket is bound once and never closed. A port is taken for a socket that does not reuse
addresses when some socket is bound to it, and for one that does when some socket listens on it.
An unbound socket that is told to listen is bound to a port that nobody has.
-/

namespace SocketTable

structure Socket where
  port : Option Nat
  listening : Bool
  deriving DecidableEq

/-- The sockets by descriptor. -/
abbrev Table := List Socket

def create (t : Table) : Table := t ++ [⟨none, false⟩]

def taken (reuse : Bool) (t : Table) (port : Nat) : Bool :=
  t.any fun s => s.port == some port && (!reuse || s.listening)

def bind (reuse : Bool) (t : Table) (d port : Nat) : Option Table := do
  let s ← t[d]?
  if s.port = none ∧ taken reuse t port = false then some (t.set d ⟨some port, s.listening⟩)
  else none

/-- Another socket that listens on the port stands in the way. -/
def listen (t : Table) (d free : Nat) : Option Table := do
  let s ← t[d]?
  match s.port with
  | some port =>
    if taken true (t.eraseIdx d) port then none else some (t.set d ⟨some port, true⟩)
  | none => if taken false t free then none else some (t.set d ⟨some free, true⟩)

/-- The number of sockets that are bound to a port. -/
def holders (t : Table) (port : Nat) : Nat := t.countP fun s => s.port == some port

variable {t t' : Table} {reuse : Bool} {d port : Nat}

@[simp] theorem holders_create (t : Table) (port : Nat) :
    holders (create t) port = holders t port := by
  simp [holders, create]

theorem bind_eq_some (bound : bind reuse t d port = some t') :
    ∃ s, t[d]? = some s ∧ s.port = none ∧ taken reuse t port = false ∧
      t' = t.set d ⟨some port, s.listening⟩ := by
  obtain ⟨s, there, rest⟩ := Option.bind_eq_some_iff.mp bound
  by_cases free : s.port = none ∧ taken reuse t port = false
  · rw [if_pos free] at rest
    exact ⟨s, there, free.1, free.2, (Option.some.inj rest).symm⟩
  · rw [if_neg free] at rest
    cases rest

/-- What replacing one socket does to the number of holders. -/
theorem holders_set {s : Socket} (there : t[d]? = some s) (new : Socket) (p : Nat) :
    holders (t.set d new) p + (if s.port = some p then 1 else 0) =
      holders t p + (if new.port = some p then 1 else 0) := by
  have counted := ListEdits.countP_set (p := fun s : Socket => s.port == some p) there new
  simpa only [holders, beq_iff_eq] using counted

theorem holders_bind (bound : bind reuse t d port = some t') (p : Nat) :
    holders t' p = holders t p + if p = port then 1 else 0 := by
  obtain ⟨s, there, unbound, _, rfl⟩ := bind_eq_some bound
  have counted := holders_set there ⟨some port, s.listening⟩ p
  rw [unbound] at counted
  simpa [eq_comm] using counted

/-- Without reuse a port that is not taken is held by nobody. -/
theorem holders_of_free (free : taken false t port = false) : holders t port = 0 := by
  rw [holders, List.countP_eq_zero]
  intro s among holds
  have isTaken : taken false t port = true := List.any_eq_true.mpr ⟨s, among, by simpa using holds⟩
  rw [isTaken] at free
  cases free

/-- With reuse nobody stands in the way but a listening socket. -/
theorem taken_of_listening {s : Socket} (among : s ∈ t) (holds : s.port = some port)
    (listens : s.listening = true) (reuse : Bool) : taken reuse t port = true :=
  List.any_eq_true.mpr ⟨s, among, by simp [holds, listens]⟩

theorem listen_eq_some {free : Nat} (listened : listen t d free = some t') :
    ∃ s new, t[d]? = some s ∧ t' = t.set d new ∧ new.listening = true ∧
      (∀ p, s.port = some p → new.port = some p) := by
  obtain ⟨s, there, rest⟩ := Option.bind_eq_some_iff.mp listened
  cases bound : s.port with
  | some port =>
    simp only [bound] at rest
    split at rest
    · cases rest
    · exact ⟨s, _, there, (Option.some.inj rest).symm, rfl, fun p same => bound ▸ same⟩
  | none =>
    simp only [bound] at rest
    split at rest
    · cases rest
    · refine ⟨s, _, there, (Option.some.inj rest).symm, rfl, ?_⟩
      intro p same
      cases bound.symm.trans same

/-- A bound socket that listens stays bound where it was. -/
theorem holders_listen {free : Nat} {s : Socket} (there : t[d]? = some s)
    (bound : s.port = some port) (listened : listen t d free = some t') (p : Nat) :
    holders t' p = holders t p := by
  obtain ⟨s', new, there', rfl, _, kept⟩ := listen_eq_some listened
  obtain rfl := Option.some.inj (there.symm.trans there')
  have counted := holders_set there new p
  rw [bound, kept port bound] at counted
  exact Nat.add_right_cancel counted

/-- Where at most one socket holds a port, two that hold it are one. -/
theorem holder_unique (single : holders t port ≤ 1) {d' : Nat} {s s' : Socket}
    (there : t[d]? = some s) (there' : t[d']? = some s') (holds : s.port = some port)
    (holds' : s'.port = some port) : d = d' := by
  by_contra apart
  have cleared := holders_set there ⟨none, false⟩ port
  rw [if_pos holds] at cleared
  have still : (t.set d ⟨none, false⟩)[d']? = some s' := by
    rw [List.getElem?_set_ne apart]
    exact there'
  have positive : 0 < holders (t.set d ⟨none, false⟩) port :=
    List.countP_pos_iff.mpr ⟨s', List.mem_of_getElem? still, by simp [holds']⟩
  simp only [reduceCtorEq, if_false] at cleared
  omega

end SocketTable
