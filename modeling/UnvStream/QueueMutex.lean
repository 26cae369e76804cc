import UnvStream.ConcurrentQueue

/-!
# `concurrent_queue` under `the_mutex`

The operations statement by statement, with the mutex that orders them. A thread acts on its
test of the queue in a later step; the mutex keeps the test true until then, so every run is
a run of lock sections.
-/

namespace QueueMutex

open ConcurrentQueue (Answer Contents Phase inPhase takeFront atPhase become)

variable {α : Type}

/-- What asks for the front of the queue: `try_pop`, or `wait_and_pop` on entry or after a
wait. -/
inductive Caller where
  | tryPop
  | waitAndPop
  | resumed
  deriving DecidableEq

inductive Query where
  | empty
  | size

/-- The next statement of a thread. -/
inductive Pc (α : Type) where
  | outside
  | pushing (data : α)
  | unlocking
  | notifying
  | reading (query : Query)
  | testing (caller : Caller)
  | taking (caller : Caller)
  | waiting (caller : Caller)
  | leaving
  | blocked
  | woken

structure Thread (α : Type) where
  pc : Pc α
  poppedValue : α
  returned : Answer

/-- `the_mutex` is free or owned by a thread. -/
structure State (α : Type) where
  contents : Contents α
  theMutex : Option Nat
  threads : List (Thread α)

/-- What a thread reads and writes in a statement. -/
structure View (α : Type) where
  contents : Contents α
  theMutex : Option Nat
  thread : Thread α

inductive Operation (α : Type) where
  | push (data : α)
  | ask (query : Query)
  | tryPop
  | waitAndPop

/-- The first statement under the lock. -/
def Operation.first : Operation α → Pc α
  | .push data => .pushing data
  | .ask query => .reading query
  | .tryPop => .testing .tryPop
  | .waitAndPop => .testing .waitAndPop

def answer (contents : Contents α) : Query → Answer
  | .empty => .truth contents.theQueue.isEmpty
  | .size => .number (Int32.ofNat contents.theQueue.length)

/-- What the caller returns when it has taken a value. -/
def Caller.answer : Caller → Answer
  | .tryPop => .truth true
  | .waitAndPop | .resumed => .nothing

def lock (t : Nat) (pc : Pc α) (v : View α) : Option (View α) :=
  if v.theMutex = none then some ⟨v.contents, some t, { v.thread with pc := pc }⟩ else none

def unlock (pc : Pc α) (v : View α) : View α := ⟨v.contents, none, { v.thread with pc := pc }⟩

/-- `if(the_queue.empty())` and `while(the_queue.empty())`. -/
def test (caller : Caller) (v : View α) : Thread α :=
  if v.contents.theQueue.isEmpty then
    match caller with
    | .tryPop => { v.thread with pc := .leaving, returned := .truth false }
    | .waitAndPop | .resumed => { v.thread with pc := .waiting caller }
  else { v.thread with pc := .taking caller }

/-- The next statement of thread `t`; `wait` ends by locking again. -/
def act (t : Nat) (v : View α) : Option (View α) :=
  match v.thread.pc with
  | .pushing data => some { v with
      contents := v.contents.push data
      thread := { v.thread with pc := .unlocking, returned := .nothing } }
  | .unlocking => some (unlock .notifying v)
  | .reading query => some { v with
      thread := { v.thread with pc := .leaving, returned := answer v.contents query } }
  | .testing caller => some { v with thread := test caller v }
  | .taking caller => (takeFront v.contents).map fun (front, contents) => { v with
      contents := contents
      thread := { pc := .leaving, poppedValue := front, returned := caller.answer } }
  | .waiting _ => some (unlock .blocked v)
  | .leaving => some (unlock .outside v)
  | .woken => lock t (.testing .resumed) v
  | .outside | .notifying | .blocked => none

def call (t : Nat) (operation : Operation α) (v : View α) : Option (View α) :=
  match v.thread.pc with
  | .outside => lock t operation.first v
  | _ => none

def assign (value : α) (v : View α) : Option (View α) :=
  match v.thread.pc with
  | .outside => some { v with thread := { v.thread with poppedValue := value } }
  | _ => none

def notified (v : View α) : Option (View α) :=
  match v.thread.pc with
  | .notifying => some { v with thread := { v.thread with pc := .outside } }
  | _ => none

def wake (v : View α) : Option (View α) :=
  match v.thread.pc with
  | .blocked => some { v with thread := { v.thread with pc := .woken } }
  | _ => none

def advance (st : State α) (t : Nat) (body : View α → Option (View α)) : Option (State α) := do
  let thread ← st.threads[t]?
  let v ← body ⟨st.contents, st.theMutex, thread⟩
  return ⟨v.contents, v.theMutex, st.threads.set t v.thread⟩

/-- Where a statement lies among the lock sections. -/
def Pc.phase : Pc α → Phase
  | .outside | .pushing _ | .reading _ | .leaving => .outside
  | .testing caller | .taking caller | .waiting caller =>
    if caller = .resumed then .woken else .outside
  | .unlocking | .notifying => .notifying
  | .blocked => .blocked
  | .woken => .woken

inductive Event (α : Type) where
  | call (t : Nat) (operation : Operation α)
  | act (t : Nat)
  | notifyOne (t : Nat) (chosen : Option Nat)
  | spuriousWake (t : Nat)
  | assign (t : Nat) (value : α)

def step (st : State α) : Event α → Option (State α)
  | .call t operation => advance st t (call t operation)
  | .act t => advance st t (act t)
  | .notifyOne t none =>
    if st.threads.countP (fun thread => decide (thread.pc.phase = .blocked)) = 0 then
      advance st t notified
    else none
  | .notifyOne t (some chosen) => do
    let st ← advance st t notified
    advance st chosen wake
  | .spuriousWake t => advance st t wake
  | .assign t value => advance st t (assign value)

def start (poppedValues : List α) : State α :=
  ⟨⟨[]⟩, none, poppedValues.map fun value => ⟨.outside, value, .nothing⟩⟩

theorem advance_eq_some {st st' : State α} {t : Nat} {body : View α → Option (View α)} :
    advance st t body = some st' ↔ ∃ thread v, st.threads[t]? = some thread ∧
      body ⟨st.contents, st.theMutex, thread⟩ = some v ∧
      st' = ⟨v.contents, v.theMutex, st.threads.set t v.thread⟩ := by
  constructor
  · intro moved
    obtain ⟨thread, there, moved⟩ := Option.bind_eq_some_iff.mp moved
    obtain ⟨v, done, moved⟩ := Option.bind_eq_some_iff.mp moved
    exact ⟨thread, v, there, done, (Option.some.inj moved).symm⟩
  · rintro ⟨thread, v, there, done, rfl⟩
    simp only [advance, there, done, Option.bind_eq_bind, Option.bind_some, Option.pure_def]

section
variable {t : Nat} {v v' : View α}

theorem lock_done {pc : Pc α} (done : lock t pc v = some v') :
    v.theMutex = none ∧ v' = ⟨v.contents, some t, { v.thread with pc := pc }⟩ := by
  unfold lock at done
  split at done
  · rename_i free
    exact ⟨free, (Option.some.inj done).symm⟩
  · cases done

theorem call_done {operation : Operation α} (done : call t operation v = some v') :
    v.thread.pc = .outside ∧ lock t operation.first v = some v' := by
  unfold call at done
  split at done
  · rename_i here
    exact ⟨here, done⟩
  · cases done

theorem assign_done {value : α} (done : assign value v = some v') :
    v.thread.pc = .outside ∧
      v' = { v with thread := { v.thread with poppedValue := value } } := by
  unfold assign at done
  split at done
  · rename_i here
    exact ⟨here, (Option.some.inj done).symm⟩
  · cases done

theorem notified_done (done : notified v = some v') :
    v.thread.pc = .notifying ∧ v' = { v with thread := { v.thread with pc := .outside } } := by
  unfold notified at done
  split at done
  · rename_i here
    exact ⟨here, (Option.some.inj done).symm⟩
  · cases done

theorem wake_done (done : wake v = some v') :
    v.thread.pc = .blocked ∧ v' = { v with thread := { v.thread with pc := .woken } } := by
  unfold wake at done
  split at done
  · rename_i here
    exact ⟨here, (Option.some.inj done).symm⟩
  · cases done

end

/-- The statements between a lock and the next unlock. -/
def Pc.locked : Pc α → Bool
  | .pushing _ | .unlocking | .reading _ | .testing _ | .taking _ | .waiting _ | .leaving => true
  | .outside | .notifying | .blocked | .woken => false

/-- What the test that led to a statement has found. -/
def Pc.TestStands : Pc α → List α → Prop
  | .taking _, theQueue => theQueue ≠ []
  | .waiting caller, theQueue => theQueue = [] ∧ caller ≠ .tryPop
  | _, _ => True

/-- A thread is between lock and unlock exactly when it owns the mutex, and its test of the
queue is still true. -/
structure Guards (t : Nat) (v : View α) : Prop where
  owner : v.thread.pc.locked = true ↔ v.theMutex = some t
  tested : v.thread.pc.TestStands v.contents.theQueue

def Guarded (st : State α) : Prop :=
  ∀ t thread, st.threads[t]? = some thread → Guards t ⟨st.contents, st.theMutex, thread⟩

/-- What a statement keeps for the other threads. -/
structure Keeps (t : Nat) (v v' : View α) : Prop where
  guards : Guards t v'
  mutex : ∀ u, u ≠ t → (v'.theMutex = some u ↔ v.theMutex = some u)
  contents : v'.contents = v.contents ∨ v.theMutex = some t

theorem testStands_unlocked {pc : Pc α} (unlocked : pc.locked = false) (theQueue : List α) :
    pc.TestStands theQueue := by
  cases pc with
  | taking | waiting => cases unlocked
  | _ => trivial

/-- A thread that does not own the mutex relies on no test. -/
theorem guarded_advance {st st' : State α} {t : Nat} {body : View α → Option (View α)}
    (keeps : ∀ v v', Guards t v → body v = some v' → Keeps t v v') (guarded : Guarded st)
    (moved : advance st t body = some st') : Guarded st' := by
  obtain ⟨thread, v, there, done, rfl⟩ := advance_eq_some.mp moved
  have kept := keeps _ v (guarded t thread there) done
  intro u other among
  by_cases same : t = u
  · subst same
    rw [List.getElem?_set_self (List.getElem?_eq_some_iff.mp there).1] at among
    cases among
    exact kept.guards
  · rw [List.getElem?_set_ne same] at among
    have guards := guarded u other among
    refine ⟨guards.owner.trans (kept.mutex u (Ne.symm same)).symm, ?_⟩
    rcases kept.contents with still | owner
    · exact still ▸ guards.tested
    · apply testStands_unlocked
      rw [Bool.eq_false_iff]
      intro locked
      have both := (guards.owner.mp locked).symm.trans owner
      exact same (Option.some.inj both).symm

theorem lock_keeps {t : Nat} {v v' : View α} {pc : Pc α} (locked : lock t pc v = some v')
    (inside : pc.locked = true) (untested : ∀ theQueue, pc.TestStands theQueue) :
    Keeps t v v' := by
  obtain ⟨free, rfl⟩ := lock_done locked
  refine ⟨⟨⟨fun _ => rfl, fun _ => inside⟩, untested _⟩, fun u other => ?_, Or.inl rfl⟩
  simp [free, Ne.symm other]

theorem unlock_keeps {t : Nat} {v : View α} {pc : Pc α} (owner : v.theMutex = some t)
    (outside : pc.locked = false) : Keeps t v (unlock pc v) := by
  refine ⟨⟨?_, testStands_unlocked outside _⟩, fun u other => ?_, Or.inl rfl⟩
  · simp [unlock, outside]
  · simp [unlock, owner, Ne.symm other]

/-- A statement under the lock that leads to another one. -/
theorem inside_keeps {t : Nat} {v : View α} {contents : Contents α} {thread : Thread α}
    (owner : v.theMutex = some t) (inside : thread.pc.locked = true)
    (tested : thread.pc.TestStands contents.theQueue) :
    Keeps t v ⟨contents, v.theMutex, thread⟩ :=
  ⟨⟨⟨fun _ => owner, fun _ => inside⟩, tested⟩, fun _ _ => Iff.rfl, Or.inr owner⟩

theorem test_inside (caller : Caller) (v : View α) :
    (test caller v).pc.locked = true ∧ (test caller v).pc.TestStands v.contents.theQueue := by
  unfold test
  split
  · rename_i drained
    rw [List.isEmpty_iff] at drained
    cases caller with
    | tryPop => exact ⟨rfl, trivial⟩
    | waitAndPop | resumed => exact ⟨rfl, drained, nofun⟩
  · rename_i queued
    rw [List.isEmpty_iff] at queued
    exact ⟨rfl, queued⟩

theorem act_keeps {t : Nat} {v v' : View α} (guards : Guards t v) (done : act t v = some v') :
    Keeps t v v' := by
  obtain ⟨contents, theMutex, pc, poppedValue, returned⟩ := v
  have owner := guards.owner
  cases pc with
  | pushing data | reading query =>
    cases done
    exact inside_keeps (owner.mp rfl) rfl trivial
  | testing caller =>
    cases done
    obtain ⟨inside, tested⟩ := test_inside caller ⟨contents, theMutex, _, poppedValue, returned⟩
    exact inside_keeps (owner.mp rfl) inside tested
  | taking caller =>
    obtain ⟨⟨front, contents'⟩, _, rfl⟩ := Option.map_eq_some_iff.mp done
    exact inside_keeps (owner.mp rfl) rfl trivial
  | unlocking | waiting caller | leaving =>
    cases done
    exact unlock_keeps (owner.mp rfl) rfl
  | woken => exact lock_keeps done rfl fun _ => trivial
  | outside | notifying | blocked => cases done

theorem call_keeps {t : Nat} {operation : Operation α} {v v' : View α}
    (done : call t operation v = some v') : Keeps t v v' := by
  obtain ⟨_, locked⟩ := call_done done
  cases operation <;> exact lock_keeps locked rfl fun _ => trivial

/-- A statement outside the lock leaves everything shared. -/
theorem outside_keeps {t : Nat} {v : View α} {thread : Thread α} (guards : Guards t v)
    (before : v.thread.pc.locked = false) (after : thread.pc.locked = false) :
    Keeps t v { v with thread := thread } := by
  refine ⟨⟨?_, testStands_unlocked after _⟩, fun _ _ => Iff.rfl, Or.inl rfl⟩
  rw [← guards.owner, before, after]

theorem assign_keeps {t : Nat} {value : α} {v v' : View α} (guards : Guards t v)
    (done : assign value v = some v') : Keeps t v v' := by
  obtain ⟨here, rfl⟩ := assign_done done
  exact outside_keeps guards (congrArg Pc.locked here) (congrArg Pc.locked here)

theorem notified_keeps {t : Nat} {v v' : View α} (guards : Guards t v)
    (done : notified v = some v') : Keeps t v v' := by
  obtain ⟨here, rfl⟩ := notified_done done
  exact outside_keeps guards (congrArg Pc.locked here) rfl

theorem wake_keeps {t : Nat} {v v' : View α} (guards : Guards t v)
    (done : wake v = some v') : Keeps t v v' := by
  obtain ⟨here, rfl⟩ := wake_done done
  exact outside_keeps guards (congrArg Pc.locked here) rfl

theorem guarded_step {st st' : State α} {e : Event α} (guarded : Guarded st)
    (stepped : step st e = some st') : Guarded st' := by
  cases e with
  | call t operation => exact guarded_advance (fun _ _ _ => call_keeps) guarded stepped
  | act t => exact guarded_advance (fun _ _ => act_keeps) guarded stepped
  | notifyOne t chosen =>
    cases chosen with
    | none =>
      simp only [step] at stepped
      split at stepped
      · exact guarded_advance (fun _ _ => notified_keeps) guarded stepped
      · cases stepped
    | some chosen =>
      obtain ⟨mid, left, woke⟩ := Option.bind_eq_some_iff.mp stepped
      have between := guarded_advance (fun _ _ => notified_keeps) guarded left
      exact guarded_advance (fun _ _ => wake_keeps) between woke
  | spuriousWake t => exact guarded_advance (fun _ _ => wake_keeps) guarded stepped
  | assign t value => exact guarded_advance (fun _ _ => assign_keeps) guarded stepped

theorem start_guarded (poppedValues : List α) : Guarded (start poppedValues) := by
  intro t thread there
  obtain ⟨_, _, rfl⟩ := List.mem_map.mp (List.mem_of_getElem? there)
  exact ⟨⟨nofun, nofun⟩, trivial⟩

/-- The thread as the lock sections see it. -/
def Thread.seen (thread : Thread α) : ConcurrentQueue.Thread α :=
  ⟨thread.pc.phase, thread.poppedValue, thread.returned⟩

def sections (st : State α) : ConcurrentQueue.State α :=
  ⟨st.contents, st.threads.map Thread.seen⟩

theorem inPhase_sections (st : State α) (phase : Phase) :
    inPhase phase (sections st).threads =
      st.threads.countP fun thread => decide (thread.pc.phase = phase) :=
  List.countP_map

/-- A statement does nothing to the sections, or all that a section of its thread does. -/
def Follows (t : Nat) (v v' : View α) : Prop :=
  (v'.contents = v.contents ∧ v'.thread.seen = v.thread.seen) ∨
  ∃ e body, (∀ st, ConcurrentQueue.step st e = atPhase st t v.thread.pc.phase body) ∧
    body v.contents v.thread.seen = some (v'.contents, v'.thread.seen)

theorem atPhase_sections {st : State α} {t : Nat} {thread : Thread α} {v : View α} {phase : Phase}
    {body : Contents α → ConcurrentQueue.Thread α →
      Option (Contents α × ConcurrentQueue.Thread α)}
    (there : st.threads[t]? = some thread) (here : thread.pc.phase = phase)
    (done : body st.contents thread.seen = some (v.contents, v.thread.seen)) :
    atPhase (sections st) t phase body =
      some (sections ⟨v.contents, v.theMutex, st.threads.set t v.thread⟩) := by
  have seen : (sections st).threads[t]? = some thread.seen := by
    simp only [sections, List.getElem?_map, there, Option.map_some]
  refine ConcurrentQueue.atPhase_eq_some.mpr
    ⟨thread.seen, v.contents, v.thread.seen, seen, here, done, ?_⟩
  simp only [sections, List.map_set]

theorem sections_unchanged {st : State α} {t : Nat} {thread : Thread α} {v : View α}
    (there : st.threads[t]? = some thread) (contents : v.contents = st.contents)
    (seen : v.thread.seen = thread.seen) :
    sections ⟨v.contents, v.theMutex, st.threads.set t v.thread⟩ = sections st := by
  obtain ⟨inside, rfl⟩ := List.getElem?_eq_some_iff.mp there
  have same : (st.threads.map Thread.seen).set t st.threads[t].seen =
      st.threads.map Thread.seen := by
    apply List.ext_getElem?
    intro u
    by_cases here : t = u
    · subst here
      simp [inside]
    · rw [List.getElem?_set_ne here]
  simp only [sections, List.map_set, contents, seen, same]

theorem follows_advance {st st' : State α} {t : Nat} {body : View α → Option (View α)}
    (follows : ∀ v v', Guards t v → body v = some v' → Follows t v v') (guarded : Guarded st)
    (moved : advance st t body = some st') :
    sections st' = sections st ∨
      ∃ e, ConcurrentQueue.step (sections st) e = some (sections st') := by
  obtain ⟨thread, v, there, done, rfl⟩ := advance_eq_some.mp moved
  rcases follows _ v (guarded t thread there) done with ⟨contents, seen⟩ | ⟨e, body, event, moves⟩
  · exact Or.inl (sections_unchanged there contents seen)
  · exact Or.inr ⟨e, (event _).trans (atPhase_sections there rfl moves)⟩

/-- `try_pop` fails at its test; every other test is acted on in a later statement. -/
theorem test_follows {t : Nat} {v : View α} {caller : Caller}
    (here : v.thread.pc = .testing caller) :
    Follows t v { v with thread := test caller v } := by
  obtain ⟨contents, theMutex, pc, poppedValue, returned⟩ := v
  obtain rfl : pc = .testing caller := here
  unfold test
  split
  · rename_i drained
    cases caller with
    | tryPop =>
      refine Or.inr ⟨.tryPop t, ConcurrentQueue.tryPop, fun _ => rfl, ?_⟩
      exact ConcurrentQueue.tryPop_eq_some.mpr (Or.inl ⟨List.isEmpty_iff.mp drained, rfl, rfl⟩)
    | waitAndPop | resumed => exact Or.inl ⟨rfl, rfl⟩
  · exact Or.inl ⟨rfl, rfl⟩

theorem take_follows {t : Nat} {v : View α} {caller : Caller} {front : α} {contents : Contents α}
    (here : v.thread.pc = .taking caller) (took : takeFront v.contents = some (front, contents)) :
    Follows t v { v with
      contents := contents
      thread := { pc := .leaving, poppedValue := front, returned := caller.answer } } := by
  obtain ⟨contents1, theMutex, pc, poppedValue, returned⟩ := v
  obtain rfl : pc = .taking caller := here
  cases caller with
  | tryPop =>
    refine Or.inr ⟨.tryPop t, ConcurrentQueue.tryPop, fun _ => rfl, ?_⟩
    exact ConcurrentQueue.tryPop_eq_some.mpr (Or.inr ⟨front, took, rfl⟩)
  | waitAndPop =>
    refine Or.inr ⟨.waitAndPop t, ConcurrentQueue.waitAndPop, fun _ => rfl, ?_⟩
    exact ConcurrentQueue.waitAndPop_eq_some.mpr (Or.inr ⟨front, took, rfl⟩)
  | resumed =>
    refine Or.inr ⟨.resume t, ConcurrentQueue.waitAndPop, fun _ => rfl, ?_⟩
    exact ConcurrentQueue.waitAndPop_eq_some.mpr (Or.inr ⟨front, took, rfl⟩)

/-- The mutex has kept the queue empty since the test. -/
theorem wait_follows {t : Nat} {v : View α} {caller : Caller} (guards : Guards t v)
    (here : v.thread.pc = .waiting caller) : Follows t v (unlock .blocked v) := by
  obtain ⟨contents, theMutex, pc, poppedValue, returned⟩ := v
  obtain rfl : pc = .waiting caller := here
  obtain ⟨drained, other⟩ := guards.tested
  cases caller with
  | tryPop => exact absurd rfl other
  | waitAndPop =>
    refine Or.inr ⟨.waitAndPop t, ConcurrentQueue.waitAndPop, fun _ => rfl, ?_⟩
    exact ConcurrentQueue.waitAndPop_eq_some.mpr (Or.inl ⟨drained, rfl, rfl⟩)
  | resumed =>
    refine Or.inr ⟨.resume t, ConcurrentQueue.waitAndPop, fun _ => rfl, ?_⟩
    exact ConcurrentQueue.waitAndPop_eq_some.mpr (Or.inl ⟨drained, rfl, rfl⟩)

theorem lock_follows {t : Nat} {v v' : View α} {pc : Pc α} (locked : lock t pc v = some v')
    (same : pc.phase = v.thread.pc.phase) : Follows t v v' := by
  obtain ⟨_, rfl⟩ := lock_done locked
  refine Or.inl ⟨rfl, ?_⟩
  simp only [Thread.seen, same]

theorem act_follows {t : Nat} {v v' : View α} (guards : Guards t v) (done : act t v = some v') :
    Follows t v v' := by
  obtain ⟨contents, theMutex, pc, poppedValue, returned⟩ := v
  cases pc with
  | pushing data =>
    cases done
    exact Or.inr ⟨.push t data, ConcurrentQueue.push data, fun _ => rfl, rfl⟩
  | reading query =>
    cases done
    cases query with
    | empty => exact Or.inr ⟨.empty t, ConcurrentQueue.empty, fun _ => rfl, rfl⟩
    | size => exact Or.inr ⟨.size t, ConcurrentQueue.size, fun _ => rfl, rfl⟩
  | testing caller =>
    cases done
    exact test_follows rfl
  | taking caller =>
    obtain ⟨⟨front, contents'⟩, took, rfl⟩ := Option.map_eq_some_iff.mp done
    exact take_follows rfl took
  | waiting caller =>
    cases done
    exact wait_follows guards rfl
  | unlocking | leaving =>
    cases done
    exact Or.inl ⟨rfl, rfl⟩
  | woken => exact lock_follows done rfl
  | outside | notifying | blocked => cases done

theorem call_follows {t : Nat} {operation : Operation α} {v v' : View α}
    (done : call t operation v = some v') : Follows t v v' := by
  obtain ⟨here, locked⟩ := call_done done
  apply lock_follows locked
  rw [here]
  cases operation <;> rfl

theorem assign_follows {t : Nat} {value : α} {v v' : View α} (done : assign value v = some v') :
    Follows t v v' := by
  obtain ⟨here, rfl⟩ := assign_done done
  refine Or.inr ⟨.assign t value, ConcurrentQueue.assign value, fun _ => ?_, rfl⟩
  rw [here]
  rfl

theorem advance_notified {st st' : State α} {t : Nat} (moved : advance st t notified = some st') :
    atPhase (sections st) t .notifying (become .outside) = some (sections st') := by
  obtain ⟨thread, v, there, done, rfl⟩ := advance_eq_some.mp moved
  obtain ⟨here, rfl⟩ := notified_done done
  exact atPhase_sections there (congrArg Pc.phase here) rfl

theorem advance_wake {st st' : State α} {t : Nat} (moved : advance st t wake = some st') :
    atPhase (sections st) t .blocked (become .woken) = some (sections st') := by
  obtain ⟨thread, v, there, done, rfl⟩ := advance_eq_some.mp moved
  obtain ⟨here, rfl⟩ := wake_done done
  exact atPhase_sections there (congrArg Pc.phase here) rfl

/-- Every step is a step of the lock sections, or none of their business. -/
theorem sections_step {st st' : State α} {e : Event α} (guarded : Guarded st)
    (stepped : step st e = some st') :
    sections st' = sections st ∨
      ∃ e', ConcurrentQueue.step (sections st) e' = some (sections st') := by
  cases e with
  | call t operation => exact follows_advance (fun _ _ _ => call_follows) guarded stepped
  | act t => exact follows_advance (fun _ _ => act_follows) guarded stepped
  | notifyOne t chosen =>
    right
    cases chosen with
    | none =>
      simp only [step] at stepped
      split at stepped
      · rename_i nobody
        refine ⟨.notifyOne t none, ?_⟩
        rw [← inPhase_sections] at nobody
        exact (if_pos nobody).trans (advance_notified stepped)
      · cases stepped
    | some chosen =>
      obtain ⟨mid, left, woke⟩ := Option.bind_eq_some_iff.mp stepped
      exact ⟨.notifyOne t (some chosen), Option.bind_eq_some_iff.mpr
        ⟨sections mid, advance_notified left, advance_wake woke⟩⟩
  | spuriousWake t => exact Or.inr ⟨.spuriousWake t, advance_wake stepped⟩
  | assign t value => exact follows_advance (fun _ _ _ => assign_follows) guarded stepped

/-- The statements of the threads, under their mutex, only ever do what a run of lock sections
does. -/
theorem run_of_sections (poppedValues : List α) {es : List (Event α)} {st : State α}
    (hrun : TraceMachine.run step (start poppedValues) es = some st) :
    ∃ es', TraceMachine.run ConcurrentQueue.step (ConcurrentQueue.start poppedValues) es' =
      some (sections st) := by
  have seen : sections (start poppedValues) = ConcurrentQueue.start poppedValues := by
    simp only [sections, start, ConcurrentQueue.start, List.map_map]
    rfl
  rw [← seen]
  exact TraceMachine.run_of_simulation step (fun _ _ _ => guarded_step)
    (fun _ _ _ => sections_step) (start_guarded poppedValues) hrun

theorem guarded_of_run {poppedValues : List α} {es : List (Event α)} {st : State α}
    (hrun : TraceMachine.run step (start poppedValues) es = some st) : Guarded st :=
  TraceMachine.invariant_of_run step (fun _ _ _ => guarded_step) (start_guarded _) hrun

/-- Two threads are never between lock and unlock at once. -/
theorem mutual_exclusion {poppedValues : List α} {es : List (Event α)} {st : State α}
    (hrun : TraceMachine.run step (start poppedValues) es = some st) {t u : Nat}
    {thread other : Thread α} (there : st.threads[t]? = some thread)
    (there' : st.threads[u]? = some other) (locked : thread.pc.locked = true)
    (locked' : other.pc.locked = true) : t = u := by
  have owner := (guarded_of_run hrun t thread there).owner.mp locked
  have owner' := (guarded_of_run hrun u other there').owner.mp locked'
  exact Option.some.inj (owner.symm.trans owner')

/-- The thread that owns the mutex can go on; it never takes the front of an empty queue. -/
theorem owner_goes_on {poppedValues : List α} {es : List (Event α)} {st : State α}
    (hrun : TraceMachine.run step (start poppedValues) es = some st) {t : Nat} {thread : Thread α}
    (there : st.threads[t]? = some thread) (locked : thread.pc.locked = true) :
    ∃ st', step st (.act t) = some st' := by
  have goes (v : View α) (done : act t ⟨st.contents, st.theMutex, thread⟩ = some v) :
      ∃ st', step st (.act t) = some st' :=
    ⟨_, advance_eq_some.mpr ⟨thread, v, there, done, rfl⟩⟩
  have tested := (guarded_of_run hrun t thread there).tested
  obtain ⟨pc, poppedValue, returned⟩ := thread
  cases pc with
  | taking caller =>
    obtain ⟨front, contents, took⟩ := ConcurrentQueue.takeFront_exists tested
    exact goes _ (congrArg (Option.map _) took)
  | pushing | unlocking | reading | testing | waiting | leaving => exact goes _ rfl
  | outside | notifying | blocked | woken => cases locked

/-- A thread that has found a value takes it. -/
theorem found_value_taken : ∃ st st' : State Nat,
    TraceMachine.run step (start [0])
        [.call 0 (.push 7), .act 0, .act 0, .notifyOne 0 none, .call 0 .tryPop, .act 0] = some st ∧
      step st (.act 0) = some st' := by
  obtain ⟨st, run, thread, there, locked⟩ : ∃ st : State Nat,
      TraceMachine.run step (start [0])
          [.call 0 (.push 7), .act 0, .act 0, .notifyOne 0 none, .call 0 .tryPop, .act 0] =
            some st ∧
        ∃ thread, st.threads[0]? = some thread ∧ thread.pc.locked = true :=
    ⟨_, rfl, _, rfl, rfl⟩
  obtain ⟨st', goes⟩ := owner_goes_on run there locked
  exact ⟨st, st', run, goes⟩

/-- The value of a call of `push`, which has the lock from then on. -/
def Event.pushed : Event α → List α
  | .call _ (.push data) => [data]
  | _ => []

/-- What a statement takes from the queue, as the thread behind it has it. -/
def Pc.popped (thread' : Thread α) : Pc α → List α
  | .taking _ => [thread'.poppedValue]
  | _ => []

/-- The value that an event takes from the queue into the variable of its caller. -/
def Event.popped (st st' : State α) : Event α → List α
  | .act t =>
    match st.threads[t]?, st'.threads[t]? with
    | some thread, some thread' => thread.pc.popped thread'
    | _, _ => []
  | _ => []

/-- The values of the calls of `push` in a run, in the order in which they got the lock. -/
def pushes (es : List (Event α)) : List α := es.flatMap Event.pushed

/-- The values that the pops of a run have taken. -/
def pops (st : State α) (es : List (Event α)) : List α :=
  TraceMachine.outputs step (fun st e st' => e.popped st st') st es

/-- The value that a thread is about to append. -/
def Pc.inHand : Pc α → List α
  | .pushing data => [data]
  | _ => []

/-- What the owner of the mutex is about to append. -/
def inHand (st : State α) : List α :=
  match st.theMutex.bind fun t => st.threads[t]? with
  | some thread => thread.pc.inHand
  | none => []

def held (st : State α) : List α := st.contents.theQueue ++ inHand st

section
variable {st : State α} {t : Nat} {thread : Thread α}

theorem inHand_free (free : st.theMutex = none) : inHand st = [] := by
  simp only [inHand, free, Option.bind_none]

theorem inHand_owner (there : st.threads[t]? = some thread) (owner : st.theMutex = some t) :
    inHand st = thread.pc.inHand := by
  simp only [inHand, owner, Option.bind_some, there]

/-- A thread with nothing in hand before and behind a statement does not change what others
have. -/
theorem inHand_other {thread' : Thread α} (there : st.threads[t]? = some thread)
    (before : thread.pc.inHand = []) (after : thread'.pc.inHand = []) :
    inHand { st with threads := st.threads.set t thread' } = inHand st := by
  have there' := ListEdits.set_there there thread'
  obtain ⟨contents, theMutex, threads⟩ := st
  cases theMutex with
  | none => rfl
  | some u =>
    by_cases same : t = u
    · subst same
      rw [inHand_owner there rfl, inHand_owner there' rfl, before, after]
    · simp only [inHand, Option.bind_some]
      rw [List.getElem?_set_ne same]

end

theorem outside_conserves {st st' : State α} {t : Nat} {body : View α → Option (View α)}
    (leaves : ∀ v v', body v = some v' → v.thread.pc.inHand = [] ∧
      v'.thread.pc.inHand = [] ∧ v' = { v with thread := v'.thread })
    (moved : advance st t body = some st') : held st' = held st := by
  obtain ⟨thread, v, there, done, rfl⟩ := advance_eq_some.mp moved
  obtain ⟨before, after, same⟩ := leaves _ v done
  have hand := inHand_other there before after
  rw [same]
  exact congrArg (st.contents.theQueue ++ ·) hand

theorem notified_leaves {v v' : View α} (done : notified v = some v') :
    v.thread.pc.inHand = [] ∧ v'.thread.pc.inHand = [] ∧ v' = { v with thread := v'.thread } := by
  obtain ⟨here, rfl⟩ := notified_done done
  exact ⟨congrArg Pc.inHand here, rfl, rfl⟩

theorem wake_leaves {v v' : View α} (done : wake v = some v') :
    v.thread.pc.inHand = [] ∧ v'.thread.pc.inHand = [] ∧ v' = { v with thread := v'.thread } := by
  obtain ⟨here, rfl⟩ := wake_done done
  exact ⟨congrArg Pc.inHand here, rfl, rfl⟩

theorem assign_leaves {value : α} {v v' : View α} (done : assign value v = some v') :
    v.thread.pc.inHand = [] ∧ v'.thread.pc.inHand = [] ∧ v' = { v with thread := v'.thread } := by
  obtain ⟨here, rfl⟩ := assign_done done
  exact ⟨congrArg Pc.inHand here, congrArg Pc.inHand here, rfl⟩

theorem test_inHand (caller : Caller) (v : View α) : (test caller v).pc.inHand = [] := by
  unfold test
  split
  · cases caller <;> rfl
  · rfl

theorem call_conserves {st st' : State α} {t : Nat} {operation : Operation α}
    (stepped : step st (.call t operation) = some st') :
    held st ++ (Event.call t operation).pushed = held st' := by
  obtain ⟨thread, v, there, done, rfl⟩ := advance_eq_some.mp stepped
  obtain ⟨_, locked⟩ := call_done done
  obtain ⟨free, rfl⟩ := lock_done locked
  have there' := ListEdits.set_there there { thread with pc := operation.first }
  rw [held, held, inHand_free free, inHand_owner there' rfl, List.append_nil]
  cases operation <;> rfl

/-- The values of a view in which no other thread owns the mutex. -/
def View.held (v : View α) : List α :=
  match v.theMutex with
  | none => v.contents.theQueue
  | some _ => v.contents.theQueue ++ v.thread.pc.inHand

theorem held_view {st : State α} {t : Nat} {thread : Thread α}
    (there : st.threads[t]? = some thread) (mine : st.theMutex = none ∨ st.theMutex = some t) :
    held st = View.held ⟨st.contents, st.theMutex, thread⟩ := by
  obtain ⟨contents, theMutex, threads⟩ := st
  rcases mine with rfl | rfl
  · exact List.append_nil _
  · exact congrArg (contents.theQueue ++ ·) (inHand_owner there rfl)

/-- A statement moves a value from the hand to the queue, takes the front, or moves none. -/
theorem act_holds {t : Nat} {v v' : View α} (guards : Guards t v) (done : act t v = some v') :
    (v.theMutex = none ∨ v.theMutex = some t) ∧ (v'.theMutex = none ∨ v'.theMutex = some t) ∧
      v.held = v.thread.pc.popped v'.thread ++ v'.held := by
  obtain ⟨contents, theMutex, pc, poppedValue, returned⟩ := v
  have owner := guards.owner
  cases pc with
  | pushing data =>
    obtain rfl : theMutex = some t := owner.mp rfl
    cases done
    exact ⟨Or.inr rfl, Or.inr rfl, (List.append_nil _).symm⟩
  | reading query =>
    obtain rfl : theMutex = some t := owner.mp rfl
    cases done
    exact ⟨Or.inr rfl, Or.inr rfl, rfl⟩
  | testing caller =>
    obtain rfl : theMutex = some t := owner.mp rfl
    cases done
    exact ⟨Or.inr rfl, Or.inr rfl, congrArg (contents.theQueue ++ ·) (test_inHand caller _).symm⟩
  | taking caller =>
    obtain rfl : theMutex = some t := owner.mp rfl
    obtain ⟨⟨front, contents'⟩, took, rfl⟩ := Option.map_eq_some_iff.mp done
    have split := ConcurrentQueue.takeFront_eq_some.mp took
    exact ⟨Or.inr rfl, Or.inr rfl, congrArg (· ++ []) split⟩
  | unlocking | waiting caller | leaving =>
    obtain rfl : theMutex = some t := owner.mp rfl
    cases done
    exact ⟨Or.inr rfl, Or.inl rfl, List.append_nil _⟩
  | woken =>
    obtain ⟨rfl, rfl⟩ := lock_done done
    exact ⟨Or.inl rfl, Or.inr rfl, (List.append_nil _).symm⟩
  | outside | notifying | blocked => cases done

theorem act_conserves {st st' : State α} {t : Nat} (guarded : Guarded st)
    (stepped : step st (.act t) = some st') :
    held st = (Event.act t).popped st st' ++ held st' := by
  obtain ⟨thread, v, there, done, rfl⟩ := advance_eq_some.mp stepped
  have there' := ListEdits.set_there there v.thread
  obtain ⟨before, after, holds⟩ := act_holds (guarded t thread there) done
  rw [held_view there before, held_view there' after, holds]
  simp only [Event.popped, there, there']

theorem step_conserves {st st' : State α} {e : Event α} (guarded : Guarded st)
    (stepped : step st e = some st') : held st ++ e.pushed = e.popped st st' ++ held st' := by
  cases e with
  | call t operation => exact call_conserves stepped
  | act t => exact (List.append_nil _).trans (act_conserves guarded stepped)
  | notifyOne t chosen =>
    refine (List.append_nil _).trans ?_
    cases chosen with
    | none =>
      simp only [step] at stepped
      split at stepped
      · exact (outside_conserves (fun _ _ => notified_leaves) stepped).symm
      · cases stepped
    | some chosen =>
      obtain ⟨mid, left, woke⟩ := Option.bind_eq_some_iff.mp stepped
      have first := outside_conserves (fun _ _ => notified_leaves) left
      have second := outside_conserves (fun _ _ => wake_leaves) woke
      exact (second.trans first).symm
  | spuriousWake t =>
    refine (List.append_nil _).trans ?_
    exact (outside_conserves (fun _ _ => wake_leaves) stepped).symm
  | assign t value =>
    refine (List.append_nil _).trans ?_
    exact (outside_conserves (fun _ _ => assign_leaves) stepped).symm

/-- What holds between the lock sections holds at every statement: the values of the calls of
`push` are those that pops have taken, in lock order, and behind them those queued and the one
that the owner of the lock is about to append; and while a thread is blocked there are as many
notifications to come and woken threads as queued values. -/
theorem statements_keep_queue (poppedValues : List α) {es : List (Event α)} {st : State α}
    (hrun : TraceMachine.run step (start poppedValues) es = some st) :
    pushes es = pops (start poppedValues) es ++ (st.contents.theQueue ++ inHand st) ∧
    (0 < st.threads.countP (fun thread => decide (thread.pc.phase = .blocked)) →
      st.contents.theQueue.length ≤
        st.threads.countP (fun thread => decide (thread.pc.phase = .notifying)) +
          st.threads.countP fun thread => decide (thread.pc.phase = .woken)) := by
  constructor
  · exact TraceMachine.conserved_of_run step (fun _ _ _ => guarded_step)
      (fun _ _ _ => step_conserves) (start_guarded poppedValues) hrun
  · obtain ⟨es', sectionRun⟩ := run_of_sections poppedValues hrun
    rw [← inPhase_sections, ← inPhase_sections, ← inPhase_sections]
    exact ConcurrentQueue.noneLost_of_run sectionRun

/-- A consumer waits, a value is queued but not yet announced, and the next one is in hand. -/
theorem notification_to_come : ∃ st : State Nat,
    TraceMachine.run step (start [0, 0, 0]) [.call 0 .waitAndPop, .act 0, .act 0,
      .call 1 (.push 7), .act 1, .act 1, .call 2 (.push 9)] = some st ∧
      [7, 9] = st.contents.theQueue ++ inHand st ∧
      st.contents.theQueue.length ≤
        st.threads.countP (fun thread => decide (thread.pc.phase = .notifying)) +
          st.threads.countP fun thread => decide (thread.pc.phase = .woken) := by
  obtain ⟨st, run, blocked⟩ : ∃ st : State Nat,
      TraceMachine.run step (start [0, 0, 0]) [.call 0 .waitAndPop, .act 0, .act 0,
        .call 1 (.push 7), .act 1, .act 1, .call 2 (.push 9)] = some st ∧
        0 < st.threads.countP (fun thread => decide (thread.pc.phase = .blocked)) :=
    ⟨_, rfl, by decide⟩
  have kept := statements_keep_queue [0, 0, 0] run
  exact ⟨st, run, kept.1, kept.2 blocked⟩

end QueueMutex
