import UnvStream.TraceMachine
import UnvStream.ListEdits

/-!
# `concurrent_queue` by its lock sections

Any number of threads calls the operations of one queue. What an operation does under
`the_mutex` is one step; `notify_one` comes after the section of `push`, and `wait_and_pop` is
outside the mutex while it waits. The server and the client have the same class.
-/

namespace ConcurrentQueue

variable {α : Type}

/-- Where a thread is between two sections. -/
inductive Phase where
  | outside
  | notifying
  | blocked
  | woken
  deriving DecidableEq

inductive Answer where
  | nothing
  | truth (b : Bool)
  | number (n : Int32)
  deriving DecidableEq

/-- A thread with the variable it passes as `popped_value` and what its last call returned. -/
structure Thread (α : Type) where
  phase : Phase
  poppedValue : α
  returned : Answer

/-- What `the_mutex` protects. -/
structure Contents (α : Type) where
  theQueue : List α

structure State (α : Type) where
  contents : Contents α
  threads : List (Thread α)

def Contents.push (contents : Contents α) (data : α) : Contents α :=
  ⟨contents.theQueue ++ [data]⟩

/-- `the_queue.front()` and `the_queue.pop()`, undefined on an empty queue. -/
def takeFront (contents : Contents α) : Option (α × Contents α) :=
  match contents.theQueue with
  | [] => none
  | front :: rest => some (front, ⟨rest⟩)

def push (data : α) (contents : Contents α) (thread : Thread α) :
    Option (Contents α × Thread α) :=
  some (contents.push data, { thread with phase := .notifying, returned := .nothing })

def empty (contents : Contents α) (thread : Thread α) : Option (Contents α × Thread α) :=
  some (contents, { thread with returned := .truth contents.theQueue.isEmpty })

def size (contents : Contents α) (thread : Thread α) : Option (Contents α × Thread α) :=
  some (contents, { thread with returned := .number (Int32.ofNat contents.theQueue.length) })

def tryPop (contents : Contents α) (thread : Thread α) : Option (Contents α × Thread α) :=
  if contents.theQueue.isEmpty then some (contents, { thread with returned := .truth false })
  else (takeFront contents).map fun (front, contents) =>
    (contents, { thread with poppedValue := front, returned := .truth true })

/-- One test of the loop of `wait_and_pop`, on entry and after every wait. -/
def waitAndPop (contents : Contents α) (thread : Thread α) : Option (Contents α × Thread α) :=
  if contents.theQueue.isEmpty then some (contents, { thread with phase := .blocked })
  else (takeFront contents).map fun (front, contents) =>
    (contents, { phase := .outside, poppedValue := front, returned := .nothing })

/-- A change of a thread alone. -/
def become (phase : Phase) (contents : Contents α) (thread : Thread α) :
    Option (Contents α × Thread α) :=
  some (contents, { thread with phase := phase })

def assign (value : α) (contents : Contents α) (thread : Thread α) :
    Option (Contents α × Thread α) :=
  some (contents, { thread with poppedValue := value })

def atPhase (st : State α) (t : Nat) (phase : Phase)
    (body : Contents α → Thread α → Option (Contents α × Thread α)) : Option (State α) := do
  let thread ← st.threads[t]?
  if thread.phase = phase then
    let (contents, thread) ← body st.contents thread
    return ⟨contents, st.threads.set t thread⟩
  else none

/-- `notify_one` wakes one of the blocked threads, if there is any. Between its calls a thread
may assign its variable. -/
inductive Event (α : Type) where
  | push (t : Nat) (data : α)
  | notifyOne (t : Nat) (chosen : Option Nat)
  | empty (t : Nat)
  | size (t : Nat)
  | tryPop (t : Nat)
  | waitAndPop (t : Nat)
  | spuriousWake (t : Nat)
  | resume (t : Nat)
  | assign (t : Nat) (value : α)

def inPhase (phase : Phase) (threads : List (Thread α)) : Nat :=
  threads.countP fun thread => decide (thread.phase = phase)

def step (st : State α) : Event α → Option (State α)
  | .push t data => atPhase st t .outside (push data)
  | .notifyOne t none =>
    if inPhase .blocked st.threads = 0 then atPhase st t .notifying (become .outside) else none
  | .notifyOne t (some chosen) => do
    let st ← atPhase st t .notifying (become .outside)
    atPhase st chosen .blocked (become .woken)
  | .empty t => atPhase st t .outside empty
  | .size t => atPhase st t .outside size
  | .tryPop t => atPhase st t .outside tryPop
  | .waitAndPop t => atPhase st t .outside waitAndPop
  | .spuriousWake t => atPhase st t .blocked (become .woken)
  | .resume t => atPhase st t .woken waitAndPop
  | .assign t value => atPhase st t .outside (assign value)

/-- The queue is empty, and every thread is outside. -/
def start (poppedValues : List α) : State α :=
  ⟨⟨[]⟩, poppedValues.map fun value => ⟨.outside, value, .nothing⟩⟩

theorem atPhase_eq_some {st st' : State α} {t : Nat} {phase : Phase}
    {body : Contents α → Thread α → Option (Contents α × Thread α)} :
    atPhase st t phase body = some st' ↔ ∃ thread contents thread',
      st.threads[t]? = some thread ∧ thread.phase = phase ∧
      body st.contents thread = some (contents, thread') ∧
      st' = ⟨contents, st.threads.set t thread'⟩ := by
  constructor
  · intro moved
    obtain ⟨thread, there, moved⟩ := Option.bind_eq_some_iff.mp moved
    split at moved
    · rename_i here
      obtain ⟨⟨contents, thread'⟩, done, moved⟩ := Option.bind_eq_some_iff.mp moved
      exact ⟨thread, contents, thread', there, here, done, (Option.some.inj moved).symm⟩
    · cases moved
  · rintro ⟨thread, contents, thread', there, here, done, rfl⟩
    simp only [atPhase, there, here, done, Option.bind_eq_bind, Option.bind_some, if_true,
      Option.pure_def]

theorem takeFront_eq_some {contents contents' : Contents α} {front : α} :
    takeFront contents = some (front, contents') ↔
      contents.theQueue = front :: contents'.theQueue := by
  obtain ⟨theQueue⟩ := contents
  cases theQueue with
  | nil => exact ⟨nofun, nofun⟩
  | cons head rest =>
    constructor
    · intro took
      cases took
      rfl
    · intro split
      cases split
      rfl

theorem takeFront_exists {contents : Contents α} (queued : contents.theQueue ≠ []) :
    ∃ front contents', takeFront contents = some (front, contents') := by
  obtain ⟨front, rest, split⟩ := List.exists_cons_of_ne_nil queued
  exact ⟨front, ⟨rest⟩, takeFront_eq_some.mpr split⟩

/-- Either the queue is empty and left alone, or its front is taken. -/
theorem popping_eq_some {contents contents' : Contents α} {thread' : Thread α}
    (drained : Thread α) (popped : α → Thread α) :
    (if contents.theQueue.isEmpty then some (contents, drained)
      else (takeFront contents).map fun (front, contents) => (contents, popped front)) =
        some (contents', thread') ↔
      (contents.theQueue = [] ∧ contents' = contents ∧ thread' = drained) ∨
      ∃ front, takeFront contents = some (front, contents') ∧ thread' = popped front := by
  split
  · rename_i empty
    simp [takeFront, List.isEmpty_iff.mp empty, eq_comm]
  · rename_i queued
    rw [List.isEmpty_iff] at queued
    obtain ⟨front, contents1, took⟩ := takeFront_exists queued
    simp [queued, took, eq_comm]

theorem tryPop_eq_some {contents contents' : Contents α} {thread thread' : Thread α} :
    tryPop contents thread = some (contents', thread') ↔
      (contents.theQueue = [] ∧ contents' = contents ∧
        thread' = { thread with returned := .truth false }) ∨
      ∃ front, takeFront contents = some (front, contents') ∧
        thread' = { thread with poppedValue := front, returned := .truth true } :=
  popping_eq_some { thread with returned := .truth false }
    fun front => { thread with poppedValue := front, returned := .truth true }

theorem waitAndPop_eq_some {contents contents' : Contents α} {thread thread' : Thread α} :
    waitAndPop contents thread = some (contents', thread') ↔
      (contents.theQueue = [] ∧ contents' = contents ∧
        thread' = { thread with phase := .blocked }) ∨
      ∃ front, takeFront contents = some (front, contents') ∧
        thread' = { phase := .outside, poppedValue := front, returned := .nothing } :=
  popping_eq_some { thread with phase := .blocked }
    fun front => { phase := .outside, poppedValue := front, returned := .nothing }

/-- While a consumer is blocked, every queued value has a notification to come or a consumer
that is awake for it. -/
def NoneLost (st : State α) : Prop :=
  0 < inPhase .blocked st.threads →
    st.contents.theQueue.length ≤ inPhase .notifying st.threads + inPhase .woken st.threads

/-- What a thread in a phase counts for a queued value. -/
def credit : Phase → Nat
  | .notifying | .woken => 1
  | .outside | .blocked => 0

theorem inPhase_pos {threads : List (Thread α)} {phase : Phase} :
    0 < inPhase phase threads ↔ ∃ thread ∈ threads, thread.phase = phase := by
  simp [inPhase]

theorem inPhase_set {threads : List (Thread α)} {t : Nat} {old : Thread α}
    (there : threads[t]? = some old) (new : Thread α) (phase : Phase) :
    inPhase phase (threads.set t new) + (if old.phase = phase then 1 else 0) =
      inPhase phase threads + (if new.phase = phase then 1 else 0) := by
  have counted := @ListEdits.countP_set _ threads t old
    (fun thread => decide (thread.phase = phase)) there new
  simpa only [inPhase, decide_eq_true_eq] using counted

theorem credit_set {threads : List (Thread α)} {t : Nat} {old : Thread α}
    (there : threads[t]? = some old) (new : Thread α) :
    inPhase .notifying (threads.set t new) + inPhase .woken (threads.set t new) +
        credit old.phase =
      inPhase .notifying threads + inPhase .woken threads + credit new.phase := by
  have notifying := inPhase_set there new .notifying
  have woken := inPhase_set there new .woken
  cases ho : old.phase <;> cases hn : new.phase <;>
    simp only [ho, hn, credit, reduceCtorEq, if_true, if_false] at notifying woken ⊢ <;> omega

/-- What an event of one thread does to the queue and to the thread's phase. -/
inductive Moves (contents : Contents α) (old : Thread α) : Contents α → Thread α → Prop where
  | adds {data : α} {new : Thread α} : old.phase = .outside → new.phase = .notifying →
      Moves contents old (contents.push data) new
  | pops {front : α} {contents' : Contents α} {new : Thread α} :
      contents.theQueue = front :: contents'.theQueue → new.phase = .outside →
      Moves contents old contents' new
  | waits {new : Thread α} : contents.theQueue = [] → Moves contents old contents new
  | stays {new : Thread α} : new.phase = old.phase → new.phase ≠ .blocked →
      Moves contents old contents new
  | wakes {new : Thread α} : new.phase = .woken → Moves contents old contents new

theorem tryPop_moves {contents contents' : Contents α} {thread thread' : Thread α}
    (outside : thread.phase = .outside)
    (done : tryPop contents thread = some (contents', thread')) :
    Moves contents thread contents' thread' := by
  obtain ⟨drained, rfl, rfl⟩ | ⟨front, took, rfl⟩ := tryPop_eq_some.mp done
  · exact .waits drained
  · exact .pops (takeFront_eq_some.mp took) outside

theorem waitAndPop_moves {contents contents' : Contents α} {thread thread' : Thread α}
    (done : waitAndPop contents thread = some (contents', thread')) :
    Moves contents thread contents' thread' := by
  obtain ⟨drained, rfl, rfl⟩ | ⟨front, took, rfl⟩ := waitAndPop_eq_some.mp done
  · exact .waits drained
  · exact .pops (takeFront_eq_some.mp took) rfl

/-- Every event but a notification is a move of one thread. -/
theorem step_moves {st st' : State α} {e : Event α} (stepped : step st e = some st') :
    (∃ t old contents new, st.threads[t]? = some old ∧ Moves st.contents old contents new ∧
      st' = ⟨contents, st.threads.set t new⟩) ∨ ∃ t chosen, e = .notifyOne t chosen := by
  cases e with
  | notifyOne t chosen => exact Or.inr ⟨t, chosen, rfl⟩
  | push t data =>
    obtain ⟨old, _, new, there, here, done, rfl⟩ := atPhase_eq_some.mp stepped
    cases done
    exact Or.inl ⟨t, old, _, _, there, .adds here rfl, rfl⟩
  | empty t | size t | assign t value =>
    obtain ⟨old, _, _, there, here, done, rfl⟩ := atPhase_eq_some.mp stepped
    cases done
    have unblocked : old.phase ≠ .blocked := by
      rw [here]
      exact nofun
    refine Or.inl ⟨t, old, _, _, there, ?_, rfl⟩
    exact .stays rfl unblocked
  | spuriousWake t =>
    obtain ⟨old, _, new, there, _, done, rfl⟩ := atPhase_eq_some.mp stepped
    cases done
    exact Or.inl ⟨t, old, _, _, there, .wakes rfl, rfl⟩
  | tryPop t =>
    obtain ⟨old, contents, new, there, here, done, rfl⟩ := atPhase_eq_some.mp stepped
    exact Or.inl ⟨t, old, contents, new, there, tryPop_moves here done, rfl⟩
  | waitAndPop t | resume t =>
    obtain ⟨old, contents, new, there, _, done, rfl⟩ := atPhase_eq_some.mp stepped
    exact Or.inl ⟨t, old, contents, new, there, waitAndPop_moves done, rfl⟩

/-- A notification finds nobody blocked, or hands its credit to a thread that it wakes. -/
theorem notify_passes {st st' : State α} {t : Nat} {chosen : Option Nat}
    (stepped : step st (.notifyOne t chosen) = some st') :
    st'.contents = st.contents ∧ (inPhase .blocked st'.threads = 0 ∨
      inPhase .blocked st'.threads < inPhase .blocked st.threads ∧
        inPhase .notifying st'.threads + inPhase .woken st'.threads =
          inPhase .notifying st.threads + inPhase .woken st.threads) := by
  cases chosen with
  | none =>
    simp only [step] at stepped
    split at stepped
    · rename_i nobody
      obtain ⟨thread, _, _, there, here, done, rfl⟩ := atPhase_eq_some.mp stepped
      cases done
      have count := inPhase_set there { thread with phase := .outside } .blocked
      simp only [here, reduceCtorEq, if_false] at count
      exact ⟨rfl, Or.inl (count.trans nobody)⟩
    · cases stepped
  | some chosen =>
    obtain ⟨mid, left, woke⟩ := Option.bind_eq_some_iff.mp stepped
    obtain ⟨thread, _, _, there, here, done, rfl⟩ := atPhase_eq_some.mp left
    cases done
    obtain ⟨sleeper, _, _, there', here', done, rfl⟩ := atPhase_eq_some.mp woke
    cases done
    have credits := credit_set there { thread with phase := .outside }
    have credits' := credit_set there' { sleeper with phase := .woken }
    have count := inPhase_set there { thread with phase := .outside } .blocked
    have count' := inPhase_set there' { sleeper with phase := .woken } .blocked
    simp only [here, here', credit, reduceCtorEq, if_true, if_false]
      at credits credits' count count'
    refine ⟨rfl, Or.inr ⟨?_, ?_⟩⟩
    · dsimp only
      omega
    · dsimp only
      omega

/-- A thread blocks on the empty queue only, and no move takes more credits than values. -/
theorem Moves.paid {contents contents' : Contents α} {old new : Thread α}
    (moves : Moves contents old contents' new) : contents'.theQueue = [] ∨
      new.phase ≠ .blocked ∧
        contents'.theQueue.length + credit old.phase ≤
          contents.theQueue.length + credit new.phase := by
  have most : credit old.phase ≤ 1 := by cases old.phase <;> decide
  cases moves with
  | adds here there =>
    right
    simp [here, there, credit, Contents.push]
  | pops pops there =>
    right
    rw [there, pops, List.length_cons]
    exact ⟨nofun, Nat.add_le_add_left most _⟩
  | waits drained => exact Or.inl drained
  | stays same unblocked => exact Or.inr ⟨unblocked, Nat.le_of_eq (by rw [same])⟩
  | wakes there =>
    right
    rw [there]
    exact ⟨nofun, Nat.add_le_add_left most _⟩

theorem noneLost_step {st st' : State α} {e : Event α} (none_lost : NoneLost st)
    (stepped : step st e = some st') : NoneLost st' := by
  obtain ⟨t, old, contents, new, there, moves, rfl⟩ | ⟨t, chosen, rfl⟩ := step_moves stepped
  · intro waiting
    dsimp only at waiting ⊢
    rcases moves.paid with drained | ⟨unblocked, paid⟩
    · rw [drained]
      exact Nat.zero_le _
    · have count := inPhase_set there new .blocked
      have credits := credit_set there new
      rw [if_neg unblocked] at count
      have enough := none_lost (by omega)
      omega
  · obtain ⟨same, nobody | ⟨fewer, credits⟩⟩ := notify_passes stepped
    · exact fun waiting => absurd nobody (Nat.ne_of_gt waiting)
    · intro waiting
      rw [same, credits]
      exact none_lost (Nat.lt_trans waiting fewer)

theorem start_noneLost (poppedValues : List α) : NoneLost (start poppedValues) := by
  intro _
  exact Nat.zero_le _

theorem noneLost_of_run {poppedValues : List α} {es : List (Event α)} {st : State α}
    (hrun : TraceMachine.run step (start poppedValues) es = some st) : NoneLost st :=
  TraceMachine.invariant_of_run step (fun _ _ _ => noneLost_step) (start_noneLost _) hrun

/-- In every reachable state in which a value is queued and a consumer is blocked, a
notification is pending or a consumer is woken and has not tested the queue again, and there
are at least as many of them as of queued values. -/
theorem no_lost_wakeup (poppedValues : List α) {es : List (Event α)} {st : State α}
    (hrun : TraceMachine.run step (start poppedValues) es = some st)
    (queued : st.contents.theQueue ≠ [])
    (waiting : ∃ thread ∈ st.threads, thread.phase = .blocked) :
    (∃ thread ∈ st.threads, thread.phase = .notifying ∨ thread.phase = .woken) ∧
      st.contents.theQueue.length ≤
        inPhase .notifying st.threads + inPhase .woken st.threads := by
  have enough := noneLost_of_run hrun (inPhase_pos.mpr waiting)
  refine ⟨?_, enough⟩
  have some_queued : 0 < st.contents.theQueue.length := List.length_pos_iff.mpr queued
  by_cases notifying : 0 < inPhase .notifying st.threads
  · obtain ⟨thread, among, here⟩ := inPhase_pos.mp notifying
    exact ⟨thread, among, Or.inl here⟩
  · obtain ⟨thread, among, here⟩ := inPhase_pos.mp (by omega : 0 < inPhase .woken st.threads)
    exact ⟨thread, among, Or.inr here⟩

/-- Two consumers wait for the value that was just pushed. -/
theorem one_notification_pending :
    ∃ thread ∈ [Thread.mk .blocked 0 .nothing, ⟨.blocked, 0, .nothing⟩, ⟨.notifying, 0, .nothing⟩],
      thread.phase = .notifying ∨ thread.phase = .woken :=
  (@no_lost_wakeup Nat [0, 0, 0] [.waitAndPop 0, .waitAndPop 1, .push 2 5]
    ⟨⟨[5]⟩,
      [⟨.blocked, 0, .nothing⟩, ⟨.blocked, 0, .nothing⟩, ⟨.notifying, 0, .nothing⟩]⟩
    rfl (by decide) (by decide)).1

/-- The value that an event pushes. -/
def Event.pushed : Event α → List α
  | .push _ data => [data]
  | _ => []

/-- The variable of a thread whose call has returned with a value. -/
def returnedValue (st : State α) (t : Nat) (succeeded : Thread α → Bool) : List α :=
  match st.threads[t]? with
  | some thread => if succeeded thread then [thread.poppedValue] else []
  | none => []

/-- The value with which the pop of an event returns, as the state behind it shows. -/
def Event.popped (st' : State α) : Event α → List α
  | .tryPop t => returnedValue st' t fun thread => decide (thread.returned = .truth true)
  | .waitAndPop t | .resume t =>
    returnedValue st' t fun thread => decide (thread.phase = .outside)
  | _ => []

/-- The values pushed by the events of a run, in lock order. -/
def pushes (es : List (Event α)) : List α := es.flatMap Event.pushed

/-- The values returned by the pops of a run, in lock order. -/
def pops (st : State α) (es : List (Event α)) : List α :=
  TraceMachine.outputs step (fun _ e st' => e.popped st') st es

/-- A failing `try_pop` changes nothing; a successful one pops the head of the queue into the
variable. -/
theorem tryPop_reports {st st' : State α} {t : Nat} {thread : Thread α}
    (there : st.threads[t]? = some thread) (stepped : step st (.tryPop t) = some st') :
    ∃ thread', st'.threads[t]? = some thread' ∧
      ((st.contents.theQueue = [] ∧ thread'.returned = .truth false ∧
          thread'.poppedValue = thread.poppedValue ∧ st'.contents = st.contents) ∨
        (st.contents.theQueue = thread'.poppedValue :: st'.contents.theQueue ∧
          thread'.returned = .truth true)) := by
  obtain ⟨same, _, thread', there', _, done, rfl⟩ := atPhase_eq_some.mp stepped
  obtain rfl := Option.some.inj (there'.symm.trans there)
  refine ⟨thread', ListEdits.set_there there thread', ?_⟩
  obtain ⟨drained, rfl, rfl⟩ | ⟨front, took, rfl⟩ := tryPop_eq_some.mp done
  · exact Or.inl ⟨drained, rfl, rfl, rfl⟩
  · exact Or.inr ⟨takeFront_eq_some.mp took, rfl⟩

/-- A test of `wait_and_pop` pops the head of the queue, or finds no value and waits. -/
def TakesOrWaits (st : State α) (t : Nat) (tested : Option (State α)) : Prop :=
  ∃ st' thread, tested = some st' ∧ st'.threads[t]? = some thread ∧
    ((st.contents.theQueue = [] ∧ thread.phase = .blocked ∧ st'.contents = st.contents) ∨
      (st.contents.theQueue = thread.poppedValue :: st'.contents.theQueue ∧
        thread.phase = .outside))

theorem waitAndPop_takes {st st' : State α} {t : Nat} {phase : Phase}
    (tested : atPhase st t phase waitAndPop = some st') :
    TakesOrWaits st t (atPhase st t phase waitAndPop) := by
  refine ⟨st', ?_⟩
  obtain ⟨thread, _, thread', there, _, done, rfl⟩ := atPhase_eq_some.mp tested
  refine ⟨thread', tested, ListEdits.set_there there thread', ?_⟩
  obtain ⟨drained, rfl, rfl⟩ | ⟨front, took, rfl⟩ := waitAndPop_eq_some.mp done
  · exact Or.inl ⟨drained, rfl, rfl⟩
  · exact Or.inr ⟨takeFront_eq_some.mp took, rfl⟩

theorem returnedValue_there {st : State α} {t : Nat} {thread : Thread α}
    (there : st.threads[t]? = some thread) (succeeded : Thread α → Bool) :
    returnedValue st t succeeded = if succeeded thread then [thread.poppedValue] else [] := by
  simp only [returnedValue, there]

theorem waiting_conserves {st st' : State α} {t : Nat} {phase : Phase}
    (tested : atPhase st t phase waitAndPop = some st') :
    st.contents.theQueue =
      returnedValue st' t (fun thread => decide (thread.phase = .outside)) ++
        st'.contents.theQueue := by
  obtain ⟨_, thread, same, there, found⟩ := waitAndPop_takes tested
  obtain rfl := Option.some.inj (same.symm.trans tested)
  rw [returnedValue_there there]
  rcases found with ⟨_, blocked, same⟩ | ⟨took, outside⟩
  · simp [blocked, same]
  · simp [outside, took]

theorem trying_conserves {st st' : State α} {t : Nat}
    (stepped : step st (.tryPop t) = some st') :
    st.contents.theQueue =
      returnedValue st' t (fun thread => decide (thread.returned = .truth true)) ++
        st'.contents.theQueue := by
  obtain ⟨thread, _, _, there, _⟩ := atPhase_eq_some.mp stepped
  obtain ⟨thread', there', found⟩ := tryPop_reports there stepped
  rw [returnedValue_there there']
  rcases found with ⟨_, failed, _, same⟩ | ⟨took, succeeded⟩
  · simp [failed, same]
  · simp [succeeded, took]

/-- An event appends what it pushes, and what it pops comes from the front. -/
theorem step_conserves {st st' : State α} {e : Event α} (stepped : step st e = some st') :
    st.contents.theQueue ++ e.pushed = e.popped st' ++ st'.contents.theQueue := by
  cases e with
  | push t data =>
    obtain ⟨_, _, _, _, _, done, rfl⟩ := atPhase_eq_some.mp stepped
    cases done
    rfl
  | tryPop t => exact (List.append_nil _).trans (trying_conserves stepped)
  | waitAndPop t | resume t => exact (List.append_nil _).trans (waiting_conserves stepped)
  | notifyOne t chosen =>
    change st.contents.theQueue ++ [] = st'.contents.theQueue
    rw [List.append_nil, (notify_passes stepped).1]
  | empty t | size t | spuriousWake t | assign t value =>
    obtain ⟨_, _, _, _, _, done, rfl⟩ := atPhase_eq_some.mp stepped
    cases done
    exact List.append_nil _

/-- Every value pushed in a run was returned by a pop or is still queued, in order. -/
theorem pushes_of_run {poppedValues : List α} {es : List (Event α)} {st : State α}
    (hrun : TraceMachine.run step (start poppedValues) es = some st) :
    pushes es = pops (start poppedValues) es ++ st.contents.theQueue :=
  TraceMachine.conserved_of_run step (fun _ _ _ _ _ => trivial)
    (fun _ _ _ _ => step_conserves) trivial hrun

section
variable {st : State α} {t : Nat} {thread : Thread α}

theorem popping_exists (contents : Contents α) (drained : Thread α) (popped : α → Thread α) :
    ∃ contents' thread', (if contents.theQueue.isEmpty then some (contents, drained)
      else (takeFront contents).map fun (front, contents) => (contents, popped front)) =
        some (contents', thread') := by
  by_cases empty : contents.theQueue = []
  · exact ⟨_, _, (popping_eq_some drained popped).mpr (Or.inl ⟨empty, rfl, rfl⟩)⟩
  · obtain ⟨front, contents', took⟩ := takeFront_exists empty
    exact ⟨_, _, (popping_eq_some drained popped).mpr (Or.inr ⟨front, took, rfl⟩)⟩

theorem tryPop_exists (there : st.threads[t]? = some thread) (here : thread.phase = .outside) :
    ∃ st', step st (.tryPop t) = some st' := by
  obtain ⟨contents, thread', done⟩ := popping_exists st.contents
    { thread with returned := .truth false }
    fun front => { thread with poppedValue := front, returned := .truth true }
  exact ⟨_, atPhase_eq_some.mpr ⟨thread, contents, thread', there, here, done, rfl⟩⟩

theorem takesOrWaits_at {phase : Phase} (there : st.threads[t]? = some thread)
    (here : thread.phase = phase) : TakesOrWaits st t (atPhase st t phase waitAndPop) := by
  obtain ⟨contents, thread', done⟩ := popping_exists st.contents { thread with phase := .blocked }
    fun front => { phase := .outside, poppedValue := front, returned := .nothing }
  exact waitAndPop_takes
    (atPhase_eq_some.mpr ⟨thread, contents, thread', there, here, done, rfl⟩)

end

/-- A call returns an answer and leaves the queue alone. -/
def Returns (st : State α) (t : Nat) (called : Option (State α)) (answer : Answer) : Prop :=
  ∃ st' thread, called = some st' ∧ st'.threads[t]? = some thread ∧
    thread.returned = answer ∧ st'.contents = st.contents

theorem asking_returns {st : State α} {t : Nat} {thread : Thread α}
    (there : st.threads[t]? = some thread) (here : thread.phase = .outside)
    (answer : Contents α → Answer) :
    Returns st t (atPhase st t .outside fun contents thread =>
      some (contents, { thread with returned := answer contents })) (answer st.contents) :=
  ⟨_, _, atPhase_eq_some.mpr ⟨thread, _, _, there, here, rfl, rfl⟩,
    ListEdits.set_there there _, rfl, rfl⟩

/-- In every reachable state the values pushed are those that pops have returned, in lock order,
and behind them those queued; `try_pop` returns `false`, with its variable unchanged, exactly
when every value pushed is popped, and else the head of the queue; `empty` and `size` count the
values not popped; and `wait_and_pop` takes the head of the queue or waits. -/
theorem linearisable_fifo (poppedValues : List α) {es : List (Event α)} {st : State α}
    (hrun : TraceMachine.run step (start poppedValues) es = some st) :
    pushes es = pops (start poppedValues) es ++ st.contents.theQueue ∧
    ∀ t thread, st.threads[t]? = some thread →
      (thread.phase = .outside →
        (∃ st' thread', step st (.tryPop t) = some st' ∧ st'.threads[t]? = some thread' ∧
          (thread'.returned = .truth false ↔ pushes es = pops (start poppedValues) es) ∧
          (thread'.returned = .truth false →
            thread'.poppedValue = thread.poppedValue ∧ st'.contents = st.contents) ∧
          (thread'.returned ≠ .truth false → thread'.returned = .truth true ∧
            st.contents.theQueue = thread'.poppedValue :: st'.contents.theQueue)) ∧
        (∃ b, Returns st t (step st (.empty t)) (.truth b) ∧
          (b = true ↔ pushes es = pops (start poppedValues) es)) ∧
        Returns st t (step st (.size t)) (.number
          (Int32.ofNat ((pushes es).length - (pops (start poppedValues) es).length))) ∧
        TakesOrWaits st t (step st (.waitAndPop t))) ∧
      (thread.phase = .woken → TakesOrWaits st t (step st (.resume t))) := by
  have conserved := pushes_of_run hrun
  have drained_iff : pushes es = pops (start poppedValues) es ↔ st.contents.theQueue = [] := by
    rw [conserved]
    exact List.append_right_eq_self
  refine ⟨conserved, fun t thread there => ⟨fun here => ⟨?_, ?_, ?_, ?_⟩, fun here => ?_⟩⟩
  · obtain ⟨st', tried⟩ := tryPop_exists there here
    obtain ⟨thread', there', reported⟩ := tryPop_reports there tried
    refine ⟨st', thread', tried, there', ?_⟩
    rw [drained_iff]
    rcases reported with ⟨drained, failed, same, kept⟩ | ⟨queued, succeeded⟩
    · exact ⟨⟨fun _ => drained, fun _ => failed⟩, fun _ => ⟨same, kept⟩,
        fun other => absurd failed other⟩
    · simp [succeeded, queued]
  · refine ⟨_, asking_returns there here fun contents => .truth contents.theQueue.isEmpty, ?_⟩
    rw [drained_iff, List.isEmpty_iff]
  · have waiting : st.contents.theQueue.length =
        (pushes es).length - (pops (start poppedValues) es).length := by
      rw [conserved, List.length_append, Nat.add_sub_cancel_left]
    rw [← waiting]
    exact asking_returns there here fun contents => .number (Int32.ofNat contents.theQueue.length)
  · exact takesOrWaits_at there here
  · exact takesOrWaits_at there here

/-- A consumer waits, is woken by the push of another thread and takes its value. -/
theorem waited_value_in_order :
    pushes [.waitAndPop 0, .push 1 5, .notifyOne 1 (some 0), .push 1 6, .resume 0] =
      pops (start [0, 0])
        [.waitAndPop 0, .push 1 5, .notifyOne 1 (some 0), .push 1 6, .resume 0] ++ [6] :=
  (@linearisable_fifo Nat [0, 0]
    [.waitAndPop 0, .push 1 5, .notifyOne 1 (some 0), .push 1 6, .resume 0] _ rfl).1

end ConcurrentQueue
