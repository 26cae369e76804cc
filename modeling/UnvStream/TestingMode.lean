import UnvStream.NumberTable
import UnvStream.PacketLog

/-!
# The client in the testing mode

A pass of `startClientUDP` with its log: `recv`, the row of the log, and the handler. The pass that
finds the testing period over writes the log to client_log.csv and ends the process before its
handler, so the file and the video stop at the same packet.
-/

namespace TestingMode

open Vocabulary ClientReceiver PacketLog NumberTable

structure Session where
  receiver : Receiver
  log : Log

def Session.start : Session := ⟨.cleared, .start⟩

/-- A pass; `writelogfile` does not return. -/
def pass (tlayer : Transport) (vcodec : VideoCodec) (iPortNum : Nat) (s : Session)
    (it : Iteration) : Option (Session × List UInt8) := do
  let log ← PacketLog.pass s.log it
  if log.printed.isSome then return ({ s with log := log }, [])
  let (receiver, out) ← receivePass tlayer vcodec iPortNum s.receiver it.result
  return (⟨receiver, log⟩, out)

/-- The loop, with the bytes each pass writes. -/
def startClientUDP (tlayer : Transport) (vcodec : VideoCodec) (iPortNum : Nat) :
    Session → List Iteration → Option (Session × List (List UInt8))
  | s, [] => some (s, [])
  | s, it :: its => do
    let (s, out) ← pass tlayer vcodec iPortNum s it
    if s.log.printed.isSome then return (s, [out])
    let (s, outs) ← startClientUDP tlayer vcodec iPortNum s its
    return (s, out :: outs)

/-- The text of client_log.csv. -/
def logFile (printed : List Row) : List Char :=
  printTable [' '] (printed.map fun row => [row.1, row.2])

/-- The passes before the one that ends the process. -/
def handled (its : List Iteration) : List Iteration :=
  its.takeWhile fun it => !decide (testingPeriod ≤ it.elapsed)

/-- Whether a pass finds the testing period over. -/
def ended (its : List Iteration) : Bool := its.any fun it => decide (testingPeriod ≤ it.elapsed)

/-- The bytes that the sizes of a log count; an error counts as none. -/
def bytesLogged (table : List (List Int)) : Int :=
  (table.map fun row => max 0 (row.getD 1 0)).sum

theorem readTable_logFile (printed : List Row) :
    readTable (logFile printed) = printed.map fun row => [row.1, row.2] := by
  have blank : Gap [' '] := ⟨by simp [DecimalText.isSpace], by decide⟩
  apply readTable_printTable blank
  intro row among
  obtain ⟨numbers, _, rfl⟩ := List.mem_map.mp among
  exact List.cons_ne_nil _ _

section
variable {tlayer : Transport} {vcodec : VideoCodec} {iPortNum : Nat}

theorem pass_handled {s : Session} {it : Iteration} {log : Log} {r : Receiver}
    {out : List UInt8} (logged : PacketLog.pass s.log it = some log) (silent : log.printed = none)
    (received : receivePass tlayer vcodec iPortNum s.receiver it.result = some (r, out)) :
    pass tlayer vcodec iPortNum s it = some (⟨r, log⟩, out) := by
  simp only [pass, logged, received, silent, Option.bind_eq_bind, Option.bind_some,
    Option.pure_def]
  rfl

theorem pass_ends {s : Session} {it : Iteration} {log : Log} {printed : List Row}
    (logged : PacketLog.pass s.log it = some log) (dumped : log.printed = some printed) :
    pass tlayer vcodec iPortNum s it = some ({ s with log := log }, []) := by
  simp only [pass, logged, dumped, Option.bind_eq_bind, Option.bind_some, Option.pure_def]
  rfl

/-- From a state in which the log holds the passes before, the loop handles the passes up to the
end of the testing period and prints the rows of all that it has handled. -/
theorem startClientUDP_logs {s : Session} {before its : List Iteration}
    (recorded : Recorded s.log before) (room : before.length + (untilDump its).length < rows)
    {r' : Receiver} {outs : List (List UInt8)}
    (received : receiveAll tlayer vcodec iPortNum s.receiver
      ((handled its).map Iteration.result) = some (r', outs)) :
    ∃ s' written, startClientUDP tlayer vcodec iPortNum s its = some (s', written) ∧
      written.flatten = outs.flatten ∧
      s'.log.printed =
        if ended its then some ((0, 0) :: (before ++ handled its).map Iteration.row) else none := by
  induction its generalizing s before outs with
  | nil =>
    obtain ⟨_, rfl⟩ := Prod.mk.inj (Option.some.inj received)
    exact ⟨s, [], rfl, rfl, recorded.silent⟩
  | cons it its ih =>
    by_cases late : testingPeriod ≤ it.elapsed
    · have none_handled : handled (it :: its) = [] := by
        rw [handled, List.takeWhile_cons_of_neg (by simpa using late)]
      rw [untilDump, if_pos late, List.length_singleton] at room
      rw [none_handled] at received ⊢
      obtain ⟨_, rfl⟩ := Prod.mk.inj (Option.some.inj received)
      obtain ⟨log, logged, printed⟩ := pass_dump recorded room late
      refine ⟨⟨s.receiver, log⟩, [[]], ?_, rfl, ?_⟩
      · simp only [startClientUDP, pass_ends logged printed, printed, Option.bind_eq_bind,
          Option.bind_some, Option.pure_def]
        rfl
      · have late_one : ended (it :: its) = true := by
          rw [ended, List.any_cons, decide_eq_true late, Bool.true_or]
        rw [late_one, if_pos rfl, List.append_nil]
        exact printed
    · have handles : handled (it :: its) = it :: handled its := by
        rw [handled, List.takeWhile_cons_of_pos (by simpa using late)]
        rfl
      rw [untilDump, if_neg late, List.length_cons] at room
      rw [handles] at received ⊢
      obtain ⟨⟨r1, out⟩, here, rest⟩ := Option.bind_eq_some_iff.mp received
      obtain ⟨⟨r2, outs'⟩, later, same⟩ := Option.bind_eq_some_iff.mp rest
      obtain ⟨rfl, rfl⟩ := Prod.mk.inj (Option.some.inj same)
      obtain ⟨log, logged, recorded'⟩ := pass_quiet recorded (by omega) late
      have grown : (before ++ [it]).length = before.length + 1 := List.length_append
      obtain ⟨s', written, ran, bytes, printed⟩ :=
        @ih ⟨r1, log⟩ _ recorded' (by rw [grown]; omega) _ later
      refine ⟨s', out :: written, ?_, ?_, ?_⟩
      · simp only [startClientUDP, pass_handled logged recorded'.silent here, recorded'.silent,
          ran, Option.bind_eq_bind, Option.bind_some, Option.pure_def]
        rfl
      · rw [List.flatten_cons, List.flatten_cons, bytes]
      · have goes_on : ended (it :: its) = ended its := by
          rw [ended, List.any_cons, decide_eq_false late, Bool.false_or]
          rfl
        rw [printed, goes_on, List.append_assoc]
        rfl

end

theorem handled_subset (its : List Iteration) : ∀ it ∈ handled its, it ∈ its := by
  intro it among
  exact (List.takeWhile_prefix _).subset among

/-- An error counts for no byte, and the empty first row for none. -/
theorem bytesLogged_rows (its : List Iteration) :
    bytesLogged (((0, 0) :: its.map Iteration.row).map fun row => [row.1, row.2]) =
      ((its.map fun it => it.result.bytes).flatten.length : Int) := by
  have rows : bytesLogged ((its.map Iteration.row).map fun row => [row.1, row.2]) =
      ((its.map fun it => it.result.bytes).flatten.length : Int) := by
    induction its with
    | nil => rfl
    | cons it its ih =>
      have here : max 0 it.result.iReceived = (it.result.bytes.length : Int) := by
        cases it.result with
        | error => rfl
        | data bytes => exact max_eq_right (Int.natCast_nonneg _)
      simp only [bytesLogged, List.map_cons, List.sum_cons, List.flatten_cons,
        List.length_append, Int.natCast_add] at ih ⊢
      rw [ih]
      exact congrArg (· + _) here
  rw [← rows]
  simp only [bytesLogged, List.map_cons, List.sum_cons]
  exact zero_add _

/-- The client ends with the pass that finds the testing period over. client_log.csv is then read
back as an empty row and a row for each pass before, and where frames are sent whole its sizes
count the bytes of video that the client has written. -/
theorem log_accounts_for_video (tlayer : Transport) (vcodec : VideoCodec) (iPortNum : Nat)
    {its : List Iteration} (room : (untilDump its).length < rows)
    (short : ∀ it ∈ its, it.result.bytes.length ≤ buffSize) {r' : Receiver}
    {outs : List (List UInt8)}
    (received : receiveAll tlayer vcodec iPortNum .cleared ((handled its).map Iteration.result) =
      some (r', outs)) :
    ∃ s written, startClientUDP tlayer vcodec iPortNum .start its = some (s, written) ∧
      written.flatten = outs.flatten ∧ (s.log.printed.isSome = ended its) ∧
      ∀ printed, s.log.printed = some printed →
        readTable (logFile printed) =
          [0, 0] :: (handled its).map (fun it => [it.row.1, it.row.2]) ∧
        (¬ (tlayer = .useUDP ∧ vcodec = .useMJPEG) →
          bytesLogged (readTable (logFile printed)) = (written.flatten.length : Int)) := by
  obtain ⟨s, written, ran, bytes, dumped⟩ :=
    @startClientUDP_logs _ _ _ .start [] its recorded_start (by simpa using room) _ _ received
  refine ⟨s, written, ran, bytes, ?_, ?_⟩
  · rw [dumped]
    cases ended its <;> rfl
  · intro printed isPrinted
    have table : printed = (0, 0) :: (handled its).map Iteration.row := by
      rw [isPrinted] at dumped
      split at dumped
      · exact Option.some.inj dumped
      · cases dumped
    rw [readTable_logFile, table]
    refine ⟨by simp only [List.map_cons, List.map_map]; rfl, fun mode => ?_⟩
    have fits : ∀ result ∈ (handled its).map Iteration.result, result.bytes.length ≤ buffSize := by
      intro result among
      obtain ⟨it, there, rfl⟩ := List.mem_map.mp among
      exact short it (handled_subset its it there)
    obtain ⟨r'', whole⟩ := receiveAll_whole mode iPortNum .cleared _ fits
    obtain ⟨_, rfl⟩ := Prod.mk.inj (Option.some.inj (received.symm.trans whole))
    rw [bytesLogged_rows, bytes, List.map_map]
    rfl

/-- Three bytes arrive and the testing period is over with the next packet. -/
theorem one_packet_accounted :
    ∃ s written, startClientUDP .useTCP .useH264 0 .start
        [⟨20, .data [1, 2, 3]⟩, ⟨50001, .data [4]⟩] = some (s, written) ∧
      s.log.printed.isSome = true := by
  obtain ⟨r', whole⟩ := @receiveAll_whole .useTCP .useH264 nofun 0 .cleared [.data [1, 2, 3]]
    (by decide)
  obtain ⟨s, written, ran, _, printed, _⟩ := @log_accounts_for_video .useTCP .useH264 0
    [⟨20, .data [1, 2, 3]⟩, ⟨50001, .data [4]⟩] (by decide) (by decide) r' _ whole
  exact ⟨s, written, ran, printed⟩

end TestingMode
