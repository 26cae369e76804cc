import UnvStream.CheckedMemory
import UnvStream.ClientReceiver

/-!
# The packet log of the testing mode

Every pass of the receive loop counts itself, records its time and size in the row of
that number and, once the testing period is over, prints as many rows as it has counted
and exits. Rows are counted from 0 and passes from 1.
-/

namespace PacketLog

open CheckedMemory ClientReceiver

/-- The rows of `log_buffer`. -/
def rows : Nat := 100000

/-- TESTING_PERIOD. -/
def testingPeriod : UInt32 := 50000

/-- A row holds two `long int`. -/
abbrev Row := Int × Int

/-- What `stop-start` is in a pass, and what `recv` returns. -/
structure Iteration where
  elapsed : UInt32
  result : RecvResult

def Iteration.row (it : Iteration) : Row := (it.elapsed.toNat, it.result.iReceived)

/-- The globals of the log, and what `writelogfile` has printed. -/
structure Log where
  iPacketNoTotal : Nat
  logBuffer : Vector Row rows
  printed : Option (List Row)

def Log.start : Log := ⟨0, Vector.replicate rows (0, 0), none⟩

/-- The rows that are printed, on a file that opens. -/
def writelogfile (a : Vector Row rows) (packetnumber : Nat) : Option (List Row) :=
  read a 0 packetnumber

/-- The statements of a pass about the log. -/
def pass (log : Log) (it : Iteration) : Option Log := do
  let iPacketNoTotal := log.iPacketNoTotal + 1
  let logBuffer ← store log.logBuffer iPacketNoTotal it.row
  if testingPeriod ≤ it.elapsed then
    let printed ← writelogfile logBuffer iPacketNoTotal
    return ⟨iPacketNoTotal, logBuffer, some printed⟩
  else return ⟨iPacketNoTotal, logBuffer, log.printed⟩

/-- The loop, which `writelogfile` leaves. -/
def receive : Log → List Iteration → Option Log
  | log, [] => some log
  | log, it :: its => (pass log it).bind fun log =>
    if log.printed.isSome then some log else receive log its

/-- The passes up to the one that prints. -/
def untilDump : List Iteration → List Iteration
  | [] => []
  | it :: its => if testingPeriod ≤ it.elapsed then [it] else it :: untilDump its

/-- From this state on, every write lies in the log, and what is printed are the rows of the
passes before and of those up to the one that prints. -/
structure CompleteFrom (log : Log) (before its : List Iteration) : Prop where
  inside : (receive log its).isSome = true
  rows : ∀ log' printed, receive log its = some log' → log'.printed = some printed →
    printed = (before ++ untilDump its).map Iteration.row

def Complete (its : List Iteration) : Prop := CompleteFrom Log.start [] its

/-- The passes before have left their rows behind row 0 and have not printed. -/
structure Recorded (log : Log) (before : List Iteration) : Prop where
  count : log.iPacketNoTotal = before.length
  room : before.length < rows
  rows : region log.logBuffer 0 (before.length + 1) = (0, 0) :: before.map Iteration.row
  silent : log.printed = none
  quiet : ∀ it ∈ before, ¬ testingPeriod ≤ it.elapsed

theorem recorded_start : Recorded Log.start [] := by
  refine ⟨rfl, by decide, ?_, rfl, nofun⟩
  rw [region, Log.start, Vector.toList_replicate, List.drop_zero, List.take_replicate]
  rfl

/-- The row of a pass is written behind those of the passes before. -/
theorem store_row {log : Log} {before : List Iteration} (recorded : Recorded log before)
    (room : before.length + 1 < rows) (it : Iteration) :
    ∃ logBuffer, store log.logBuffer (log.iPacketNoTotal + 1) it.row = some logBuffer ∧
      region logBuffer 0 (before.length + 1) = (0, 0) :: before.map Iteration.row ∧
      region logBuffer 0 (before.length + 1 + 1) = (0, 0) :: (before ++ [it]).map Iteration.row := by
  rw [recorded.count]
  obtain ⟨logBuffer, stored, cell, frame⟩ := store_spec log.logBuffer it.row room
  have kept := (frame 0 (before.length + 1) (Or.inr (Nat.le_of_eq (Nat.zero_add _)))).trans
    recorded.rows
  refine ⟨logBuffer, stored, kept, ?_⟩
  rw [region_append, kept, Nat.zero_add, cell 0, region_zero, List.map_append]
  rfl

theorem pass_full {log : Log} {before : List Iteration} (recorded : Recorded log before)
    (full : ¬ before.length + 1 < rows) (it : Iteration) : pass log it = none := by
  have refused : store log.logBuffer (log.iPacketNoTotal + 1) it.row = none := by
    rw [recorded.count, store, dif_neg full]
  simp only [pass, refused, Option.bind_eq_bind, Option.bind_none]

theorem pass_quiet {log : Log} {before : List Iteration} (recorded : Recorded log before)
    (room : before.length + 1 < rows) {it : Iteration} (early : ¬ testingPeriod ≤ it.elapsed) :
    ∃ log', pass log it = some log' ∧ Recorded log' (before ++ [it]) := by
  obtain ⟨logBuffer, stored, _, whole⟩ := store_row recorded room it
  have length : (before ++ [it]).length = before.length + 1 := List.length_append
  refine ⟨⟨log.iPacketNoTotal + 1, logBuffer, log.printed⟩, ?_, ?_, ?_, ?_, recorded.silent, ?_⟩
  · simp only [pass, stored, if_neg early, Option.bind_eq_bind, Option.bind_some, Option.pure_def]
  · rw [length, recorded.count]
  · rw [length]
    exact room
  · rw [length]
    exact whole
  · intro other among
    rcases List.mem_append.mp among with old | new
    · exact recorded.quiet other old
    · obtain rfl := List.mem_singleton.mp new
      exact early

/-- The pass that prints leaves its own row out and starts with the row nobody wrote. -/
theorem pass_dump {log : Log} {before : List Iteration} (recorded : Recorded log before)
    (room : before.length + 1 < rows) {it : Iteration} (late : testingPeriod ≤ it.elapsed) :
    ∃ log', pass log it = some log' ∧
      log'.printed = some ((0, 0) :: before.map Iteration.row) := by
  obtain ⟨logBuffer, stored, shifted, _⟩ := store_row recorded room it
  refine ⟨⟨log.iPacketNoTotal + 1, logBuffer, some ((0, 0) :: before.map Iteration.row)⟩, ?_, rfl⟩
  have printed : writelogfile logBuffer (log.iPacketNoTotal + 1) =
      some ((0, 0) :: before.map Iteration.row) := by
    rw [writelogfile, recorded.count, read_of_le logBuffer (by omega), shifted]
  simp only [pass, stored, if_pos late, printed, Option.bind_eq_bind, Option.bind_some,
    Option.pure_def]

/-- The printed rows miss the row of the pass that prints them. -/
theorem shifted_ne {before : List Iteration} {it : Iteration} (late : testingPeriod ≤ it.elapsed)
    (quiet : ∀ it ∈ before, ¬ testingPeriod ≤ it.elapsed) :
    (0, 0) :: before.map Iteration.row ≠ (before ++ [it]).map Iteration.row := by
  intro same
  have among : it.row ∈ (0, 0) :: before.map Iteration.row := by
    rw [same]
    exact List.mem_map_of_mem (List.mem_append_right _ (List.mem_singleton_self it))
  rcases List.mem_cons.mp among with first | later
  · have zero : it.elapsed.toNat = 0 := Int.ofNat.inj (congrArg Prod.fst first)
    have := UInt32.le_iff_toNat_le.mp late
    rw [zero] at this
    exact absurd this (by decide)
  · obtain ⟨other, old, row⟩ := List.mem_map.mp later
    have elapsed : other.elapsed = it.elapsed :=
      UInt32.toNat_inj.mp (Int.ofNat.inj (congrArg Prod.fst row))
    exact quiet other old (elapsed ▸ late)

/-- The pass that finds no row left writes outside the log. -/
theorem not_complete_of_full {log : Log} {before : List Iteration} (recorded : Recorded log before)
    (full : ¬ before.length + 1 < rows) (it : Iteration) (its : List Iteration) :
    ¬ CompleteFrom log before (it :: its) := by
  rintro ⟨inside, _⟩
  rw [receive, pass_full recorded full, Option.bind_none] at inside
  cases inside

theorem not_complete_of_late {log : Log} {before : List Iteration} (recorded : Recorded log before)
    (room : before.length + 1 < rows) {it : Iteration} (late : testingPeriod ≤ it.elapsed)
    (its : List Iteration) : ¬ CompleteFrom log before (it :: its) := by
  rintro ⟨_, exact_rows⟩
  obtain ⟨log', passed, printed⟩ := pass_dump recorded room late
  have ended : receive log (it :: its) = some log' := by
    rw [receive, passed, Option.bind_some, printed]
    rfl
  have same := exact_rows log' _ ended printed
  rw [untilDump, if_pos late] at same
  exact shifted_ne late recorded.quiet same

/-- A pass before the end of the testing period leaves it to the later ones. -/
theorem completeFrom_next {log : Log} {before : List Iteration} (recorded : Recorded log before)
    (room : before.length + 1 < rows) {it : Iteration} (early : ¬ testingPeriod ≤ it.elapsed)
    (its : List Iteration) :
    ∃ log', Recorded log' (before ++ [it]) ∧
      (CompleteFrom log before (it :: its) ↔ CompleteFrom log' (before ++ [it]) its) := by
  obtain ⟨log', passed, recorded'⟩ := pass_quiet recorded room early
  have goes_on : receive log (it :: its) = receive log' its := by
    rw [receive, passed, Option.bind_some, recorded'.silent]
    rfl
  have dumped : before ++ untilDump (it :: its) = (before ++ [it]) ++ untilDump its := by
    rw [untilDump, if_neg early, List.append_assoc]
    rfl
  refine ⟨log', recorded', ?_, ?_⟩
  · rintro ⟨inside, exact_rows⟩
    rw [goes_on] at inside exact_rows
    rw [dumped] at exact_rows
    exact ⟨inside, exact_rows⟩
  · rintro ⟨inside, exact_rows⟩
    rw [← goes_on] at inside exact_rows
    rw [← dumped] at exact_rows
    exact ⟨inside, exact_rows⟩

/-- A run without passes prints nothing. -/
theorem completeFrom_nil {log : Log} {before : List Iteration} (recorded : Recorded log before) :
    CompleteFrom log before [] := by
  refine ⟨rfl, fun log' printed ended dumped => ?_⟩
  obtain rfl := Option.some.inj ended
  rw [recorded.silent] at dumped
  cases dumped

theorem completeFrom_iff {log : Log} {before : List Iteration} (recorded : Recorded log before)
    (its : List Iteration) :
    CompleteFrom log before its ↔
      before.length + its.length < rows ∧ ∀ it ∈ its, ¬ testingPeriod ≤ it.elapsed := by
  induction its generalizing log before with
  | nil => exact iff_of_true (completeFrom_nil recorded) ⟨recorded.room, nofun⟩
  | cons it its ih =>
    rw [List.length_cons]
    by_cases room : before.length + 1 < rows
    · by_cases late : testingPeriod ≤ it.elapsed
      · refine iff_of_false (not_complete_of_late recorded room late its) ?_
        rintro ⟨_, quiet⟩
        exact quiet it List.mem_cons_self late
      · obtain ⟨log', recorded', same⟩ := completeFrom_next recorded room late its
        have grown : (before ++ [it]).length = before.length + 1 := List.length_append
        rw [same, ih recorded', List.forall_mem_cons, grown]
        constructor
        · rintro ⟨short, quiet⟩
          exact ⟨by omega, late, quiet⟩
        · rintro ⟨short, _, quiet⟩
          exact ⟨by omega, quiet⟩
    · refine iff_of_false (not_complete_of_full recorded room it its) ?_
      rintro ⟨short, _⟩
      omega

/-- The log is complete and its writes are inside exactly where it is never printed and has
fewer passes than rows. -/
theorem complete_iff_never_dumped (its : List Iteration) :
    Complete its ↔ its.length < rows ∧ ∀ it ∈ its, it.elapsed < testingPeriod := by
  rw [Complete, completeFrom_iff recorded_start, List.length_nil, Nat.zero_add]
  exact and_congr_right fun _ => forall_congr' fun it => forall_congr' fun _ => UInt32.not_le

/-- Two datagrams, the second after the testing period. -/
theorem second_datagram_missing :
    ¬ Complete [⟨10, .data [1, 2, 3]⟩, ⟨50000, .data [4]⟩] := by
  intro complete
  have quiet := ((completeFrom_iff recorded_start _).mp complete).2
  exact quiet ⟨50000, .data [4]⟩ (List.mem_cons_of_mem _ List.mem_cons_self) (by decide)

end PacketLog
