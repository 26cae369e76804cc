import UnvStream.RtspServer
import UnvStream.FrameSender

/-!
# What a client has done when the server plays

The thread is watched with notes about the connection accepted last: the requests
it received, the replies it sent, and the end of the connection. The state follows
the replied requests alone.
-/

namespace SessionOrder

open Vocabulary RtspMessages RtspServer FrameSender

inductive Note where
  | request (type : RequestType)
  | reply (type : RequestType)
  | gone
  deriving DecidableEq

structure Watched where
  server : Server
  notes : List Note
  deriving DecidableEq

def note (s : Server) (notes : List Note) : Event → List Note
  | .accepted => []
  | .acceptFailed => notes
  | .received data =>
    match parseRTSPRequest s.session (cString data) with
    | some (_, request) => notes ++ [.request request]
    | none => notes
  | .ended | .sendFailed => notes ++ [.gone]
  | .act =>
    match s.pc with
    | .replying request => notes ++ [.reply request]
    | _ => notes

def watchedStep (iNumUDPPorts : Nat) (w : Watched) (e : Event) : Option Watched :=
  (step iNumUDPPorts w.server e).map fun server => ⟨server, note w.server w.notes e⟩

def watchedStart : Watched := ⟨start, []⟩

/-- The client of the last connection is still there and has sent a SETUP and then a
PLAY, with no TEARDOWN since. -/
structure InSession (w : Watched) : Prop where
  connected : w.server.pc ≠ .accepting
  ordered : ∃ before between after,
    w.notes = before ++ .request .setup :: (between ++ .request .play :: after) ∧
      .request .teardown ∉ after ∧ .gone ∉ after

/-- The session order asks that the server plays for such a client only. -/
def Ordered (w : Watched) : Prop := w.server.iRTSPState = .playing → InSession w

def replied (notes : List Note) : List RequestType :=
  notes.filterMap fun
    | .reply request => some request
    | _ => none

/-- The reply has been sent and the assignment has not been made. -/
def assignmentDue : Pc → Bool
  | .starting _ | .assigningReady | .assigningPlaying => true
  | .accepting | .receiving | .replying _ | .clearingSlp | .stopped => false

/-- The replied requests, without the last one while its assignment is still due. -/
def settled (w : Watched) : List RequestType :=
  if assignmentDue w.server.pc then (replied w.notes).dropLast else replied w.notes

def assigned (state : RtspState) : RequestType → RtspState
  | .setup => .ready
  | .play => .playing
  | .pause | .teardown | .unrecognised => state

def stateAfter (requests : List RequestType) : RtspState := requests.foldl assigned .init

/-- A PLAY with no SETUP after it. -/
def PlayPending (requests : List RequestType) : Prop :=
  ∃ before after, requests = before ++ .play :: after ∧ .setup ∉ after

structure WatchInv (w : Watched) : Prop where
  state : w.server.iRTSPState = stateAfter (settled w)
  setup : (∃ port, w.server.pc = .starting port) ∨ w.server.pc = .assigningReady →
    ∃ earlier, replied w.notes = earlier ++ [.setup]
  play : w.server.pc = .assigningPlaying → ∃ earlier, replied w.notes = earlier ++ [.play]
  asked : ∀ request, w.server.pc = .replying request → .request request ∈ w.notes
  requested : ∀ request ∈ replied w.notes, .request request ∈ w.notes

theorem stateAfter_append (requests : List RequestType) (request : RequestType) :
    stateAfter (requests ++ [request]) = assigned (stateAfter requests) request := by
  rw [stateAfter, List.foldl_append]
  rfl

theorem playPending_snoc (requests : List RequestType) (request : RequestType) :
    PlayPending (requests ++ [request]) ↔
      request = .play ∨ request ≠ .setup ∧ PlayPending requests := by
  constructor
  · rintro ⟨before, after, split, noSetup⟩
    rcases List.eq_nil_or_concat after with rfl | ⟨init, last, rfl⟩
    · obtain ⟨_, same⟩ := List.append_inj' split rfl
      exact Or.inl (List.cons.inj same).1
    · have split' : requests ++ [request] = (before ++ .play :: init) ++ [last] := by
        rw [split]
        simp
      obtain ⟨earlier, same⟩ := List.append_inj' split' rfl
      have hlast := (List.cons.inj same).1
      subst hlast
      refine Or.inr ⟨?_, before, init, earlier, ?_⟩
      · rintro rfl
        exact noSetup (by simp)
      · exact fun h => noSetup (by simp [h])
  · rintro (rfl | ⟨notSetup, before, after, rfl, noSetup⟩)
    · exact ⟨requests, [], rfl, List.not_mem_nil⟩
    · refine ⟨before, after ++ [request], by simp, ?_⟩
      intro h
      rcases List.mem_append.mp h with h | h
      · exact noSetup h
      · exact notSetup (List.mem_singleton.mp h).symm

/-- Only PLAY leads to PLAYING and only SETUP leads away from it. -/
theorem stateAfter_playing_iff (requests : List RequestType) :
    stateAfter requests = .playing ↔ PlayPending requests := by
  induction requests using List.reverseRecOn with
  | nil =>
    constructor
    · intro h
      cases h
    · rintro ⟨before, after, h, _⟩
      cases before <;> cases h
  | append_singleton requests request ih =>
    rw [stateAfter_append, playPending_snoc, ← ih]
    cases request <;> simp [assigned]

theorem replied_snoc (notes : List Note) (n : Note) :
    replied (notes ++ [n]) = replied notes ++ replied [n] := List.filterMap_append

theorem watchedStart_inv : WatchInv watchedStart where
  state := rfl
  setup := by
    rintro (⟨port, h⟩ | h) <;> cases h
  play := fun h => by cases h
  asked := fun request h => by cases h
  requested := fun request h => by cases h

theorem settled_due {w : Watched} (due : assignmentDue w.server.pc = true) :
    settled w = (replied w.notes).dropLast := if_pos due

theorem settled_done {w : Watched} (done : assignmentDue w.server.pc = false) :
    settled w = replied w.notes := by
  rw [settled, done]
  rfl

/-- Where no assignment is due the invariant is about the replied requests. -/
theorem inv_of_done {w : Watched} (done : assignmentDue w.server.pc = false)
    (state : w.server.iRTSPState = stateAfter (replied w.notes))
    (asked : ∀ request, w.server.pc = .replying request → .request request ∈ w.notes)
    (requested : ∀ request ∈ replied w.notes, .request request ∈ w.notes) : WatchInv w where
  state := by
    rw [settled_done done]
    exact state
  setup := by
    rintro (⟨port, h⟩ | h) <;> rw [h] at done <;> cases done
  play := by
    intro h
    rw [h] at done
    cases done
  asked := asked
  requested := requested

theorem WatchInv.state_done {w : Watched} (inv : WatchInv w)
    (done : assignmentDue w.server.pc = false) :
    w.server.iRTSPState = stateAfter (replied w.notes) := by
  rw [← settled_done done]
  exact inv.state

/-- Notes other than replies do not touch the replied requests. -/
theorem requested_snoc {notes : List Note} {n : Note} (quiet : replied [n] = [])
    (requested : ∀ request ∈ replied notes, .request request ∈ notes) :
    replied (notes ++ [n]) = replied notes ∧
      ∀ request ∈ replied (notes ++ [n]), .request request ∈ notes ++ [n] := by
  have same : replied (notes ++ [n]) = replied notes := by
    rw [replied_snoc, quiet, List.append_nil]
  refine ⟨same, ?_⟩
  intro request h
  rw [same] at h
  exact List.mem_append_left [n] (requested request h)

/-- After a reply the invariant is about the request the reply was for. -/
theorem inv_of_reply {server : Server} {notes : List Note} {request : RequestType}
    (pc : server.pc = afterReply request)
    (state : server.iRTSPState = stateAfter (replied notes))
    (asked : .request request ∈ notes)
    (requested : ∀ type ∈ replied notes, .request type ∈ notes) :
    WatchInv ⟨server, notes ++ [.reply request]⟩ := by
  have snoc : replied (notes ++ [.reply request]) = replied notes ++ [request] :=
    replied_snoc notes (.reply request)
  have requested' : ∀ type ∈ replied (notes ++ [.reply request]),
      Note.request type ∈ notes ++ [.reply request] := by
    intro type h
    rw [snoc] at h
    rcases List.mem_append.mp h with h | h
    · exact List.mem_append_left _ (requested type h)
    · rw [List.mem_singleton.mp h]
      exact List.mem_append_left _ asked
  have dropped : (replied (notes ++ [.reply request])).dropLast = replied notes := by
    rw [snoc, List.dropLast_concat]
  have noReplying : ∀ type, server.pc ≠ .replying type := by
    intro type h
    rw [pc] at h
    cases request <;> cases h
  cases request with
  | setup =>
    refine ⟨?_, fun _ => ⟨replied notes, snoc⟩, ?_, fun type h => absurd h (noReplying type),
      requested'⟩
    · rw [settled_due (congrArg assignmentDue pc), dropped]
      exact state
    · intro h
      rw [pc] at h
      cases h
  | play =>
    refine ⟨?_, ?_, fun _ => ⟨replied notes, snoc⟩, fun type h => absurd h (noReplying type),
      requested'⟩
    · rw [settled_due (congrArg assignmentDue pc), dropped]
      exact state
    · rintro (⟨port, h⟩ | h) <;> rw [pc] at h <;> cases h
  | pause | teardown | unrecognised =>
    refine inv_of_done (congrArg assignmentDue pc) ?_ (fun type h => absurd h (noReplying type)) requested'
    rw [snoc, stateAfter_append]
    exact state

/-- The end of a connection, noted while no assignment is due. -/
theorem inv_of_gone {w : Watched} {server : Server} (inv : WatchInv w)
    (done : assignmentDue w.server.pc = false) (pc : server.pc = .accepting)
    (same : server.iRTSPState = w.server.iRTSPState) :
    WatchInv ⟨server, w.notes ++ [.gone]⟩ := by
  have state := same.trans (inv.state_done done)
  obtain ⟨quiet, requested⟩ := requested_snoc (n := .gone) rfl inv.requested
  refine inv_of_done (congrArg assignmentDue pc)
    (state.trans (congrArg stateAfter quiet.symm)) ?_ requested
  intro request h
  cases pc.symm.trans h

/-- The thread goes on starting workers, with READY still due. -/
theorem inv_of_starting {w : Watched} {server : Server} (inv : WatchInv w) {port : Nat}
    (before : w.server.pc = .starting port)
    (after : (∃ port, server.pc = .starting port) ∨ server.pc = .assigningReady)
    (same : server.iRTSPState = w.server.iRTSPState) : WatchInv ⟨server, w.notes⟩ := by
  have due : assignmentDue server.pc = true := by
    rcases after with ⟨port, pc⟩ | pc
    · exact congrArg assignmentDue pc
    · exact congrArg assignmentDue pc
  have wasDue : assignmentDue w.server.pc = true := congrArg assignmentDue before
  have state := inv.state
  rw [settled_due wasDue] at state
  refine ⟨?_, fun _ => inv.setup (Or.inl ⟨port, before⟩), ?_, ?_, inv.requested⟩
  · rw [settled_due due]
    exact same.trans state
  · intro h
    rw [h] at after
    rcases after with ⟨port, pc⟩ | pc <;> cases pc
  · intro request h
    rw [h] at due
    cases due

/-- The thread's own steps are noted when they are replies only. -/
theorem note_act {s : Server} {pc : Pc} (notes : List Note) (there : s.pc = pc)
    (silent : ∀ request, pc ≠ .replying request) : note s notes .act = notes := by
  cases pc with
  | replying request => exact absurd rfl (silent request)
  | _ => simp only [note, there]

/-- One step of the watched thread, by what the thread does. -/
theorem watchedStep_inv {iNumUDPPorts : Nat} {w w' : Watched} {e : Event} (inv : WatchInv w)
    (h : watchedStep iNumUDPPorts w e = some w') : WatchInv w' := by
  obtain ⟨server, hstep, rfl⟩ := Option.map_eq_some_iff.mp h
  cases stepped_of_step hstep with
  | accepted pc =>
    exact inv_of_done rfl rfl nofun nofun
  | acceptFailed pc =>
    have state := inv.state_done (congrArg assignmentDue pc)
    exact inv_of_done rfl state nofun inv.requested
  | received data session request pc parsed =>
    have state := inv.state_done (congrArg assignmentDue pc)
    have noted : note w.server w.notes (.received data) = w.notes ++ [.request request] := by
      simp only [note, parsed]
    obtain ⟨same, requested⟩ := requested_snoc (n := .request request) rfl inv.requested
    rw [noted]
    refine inv_of_done rfl (state.trans (congrArg stateAfter same.symm)) ?_ requested
    rintro type h
    cases h
    exact List.mem_append_right _ List.mem_cons_self
  | ended pc => exact inv_of_gone inv (congrArg assignmentDue pc) rfl rfl
  | replied request pc =>
    have state := inv.state_done (congrArg assignmentDue pc)
    have noted : note w.server w.notes .act = w.notes ++ [.reply request] := by
      simp only [note, pc]
    rw [noted]
    exact inv_of_reply rfl state (inv.asked request pc) inv.requested
  | started port pc more =>
    rw [note_act w.notes pc nofun]
    exact inv_of_starting inv pc (Or.inl ⟨port + 1, rfl⟩) rfl
  | allStarted port pc done =>
    rw [note_act w.notes pc nofun]
    exact inv_of_starting inv pc (Or.inr rfl) rfl
  | ready pc =>
    obtain ⟨earlier, last⟩ := inv.setup (Or.inr pc)
    rw [note_act w.notes pc nofun]
    refine inv_of_done rfl ?_ nofun inv.requested
    rw [last, stateAfter_append]
    rfl
  | playing pc =>
    obtain ⟨earlier, last⟩ := inv.play pc
    rw [note_act w.notes pc nofun]
    refine inv_of_done rfl ?_ nofun inv.requested
    rw [last, stateAfter_append]
    rfl
  | cleared pc =>
    have state := inv.state_done (congrArg assignmentDue pc)
    rw [note_act w.notes pc nofun]
    exact inv_of_done rfl state nofun inv.requested
  | sendFailed request pc => exact inv_of_gone inv (congrArg assignmentDue pc) rfl rfl

theorem watchedRun_inv {iNumUDPPorts : Nat} {w : Watched} {events : List Event}
    (run : TraceMachine.run (watchedStep iNumUDPPorts) watchedStart events = some w) :
    WatchInv w :=
  TraceMachine.invariant_of_run _ (fun _ _ _ inv step => watchedStep_inv inv step)
    watchedStart_inv run

theorem PlayPending.mem {requests : List RequestType} (h : PlayPending requests) :
    .play ∈ requests := by
  obtain ⟨before, after, rfl, _⟩ := h
  exact List.mem_append_right before List.mem_cons_self

theorem settled_subset (w : Watched) : settled w ⊆ replied w.notes := by
  intro request h
  cases due : assignmentDue w.server.pc with
  | true =>
    rw [settled_due due] at h
    exact List.dropLast_subset _ h
  | false =>
    rw [settled_done due] at h
    exact h

/-- In every reachable state the server plays exactly when the client accepted last has
been replied to on a PLAY, and on no SETUP since; `addFrame` sends in these states.
Neither an earlier SETUP nor the lack of a TEARDOWN or of a disconnection is needed. -/
theorem playing_iff_play_settled (iNumUDPPorts : Nat) (events : List Event) (w : Watched)
    (run : TraceMachine.run (watchedStep iNumUDPPorts) watchedStart events = some w) :
    (w.server.iRTSPState = .playing ↔ PlayPending (settled w)) ∧
      (w.server.iRTSPState = .playing → .request .play ∈ w.notes) ∧
      ∀ (tlayer : Transport) (sender : Sender) (frame : List UInt8),
        sender.iRTSPState = w.server.iRTSPState → frame.length ≤ frameQSize →
        ∃ sender' sent, addFrame tlayer sender frame = some (sender', sent) ∧
          (sent.isSome ↔ PlayPending (settled w)) := by
  have inv := watchedRun_inv run
  have playing : w.server.iRTSPState = .playing ↔ PlayPending (settled w) := by
    rw [inv.state]
    exact stateAfter_playing_iff (settled w)
  refine ⟨playing, ?_, ?_⟩
  · intro h
    exact inv.requested .play (settled_subset w (playing.mp h).mem)
  · intro tlayer sender frame same fits
    obtain ⟨sender', call, _⟩ := addFrame_spec tlayer sender frame fits
    refine ⟨sender', _, call, ?_⟩
    rw [← playing, ← same]
    by_cases h : sender.iRTSPState = .playing
    · simp [h]
    · simp [h]

private def setupText : List Char :=
  "SETUP RTSP/1.0\r\nCSeq: 1\r\nTransport: RTP/UDP; client_port= 25000\r\n".toList

private def playText : List Char :=
  "PLAY RTSP/1.0\r\nCSeq: 1\r\nSession: 123456\n".toList

private def teardownText : List Char :=
  "TEARDOWN RTSP/1.0\r\nCSeq: 201\r\nSession: 123456\n".toList

theorem plays_after_play :
    ∃ w, TraceMachine.run (watchedStep 2) watchedStart
        [.accepted, .received playText, .act, .act, .act] = some w ∧ PlayPending (settled w) := by
  have reached : (TraceMachine.run (watchedStep 2) watchedStart
      [.accepted, .received playText, .act, .act, .act]).any
        (fun w => w.server.iRTSPState = .playing) = true := by decide +kernel
  obtain ⟨w, run, playing⟩ := (Option.any_eq_true _ _).mp reached
  exact ⟨w, run, (playing_iff_play_settled 2 _ w run).1.mp (of_decide_eq_true playing)⟩

/-- The server plays for a client that never sent SETUP, for one that has sent TEARDOWN,
and for one that has gone. -/
theorem playing_out_of_order :
    (∃ w, TraceMachine.run (watchedStep 2) watchedStart
        [.accepted, .received playText, .act, .act, .act] = some w ∧
      w.server.iRTSPState = .playing ∧ .request .setup ∉ w.notes) ∧
    (∃ w, TraceMachine.run (watchedStep 2) watchedStart
        [.accepted, .received setupText, .act, .act, .act, .act, .act, .received playText, .act,
          .act, .act, .received teardownText, .act] = some w ∧
      w.server.iRTSPState = .playing ∧ w.notes.getLast? = some (.reply .teardown)) ∧
    (∃ w, TraceMachine.run (watchedStep 2) watchedStart
        [.accepted, .received setupText, .act, .act, .act, .act, .act, .received playText, .act,
          .act, .act, .ended] = some w ∧
      w.server.iRTSPState = .playing ∧ w.server.pc = .accepting) ∧
    ¬ ∀ (events : List Event) (w : Watched),
      TraceMachine.run (watchedStep 2) watchedStart events = some w → Ordered w := by
  have early : (TraceMachine.run (watchedStep 2) watchedStart
      [.accepted, .received playText, .act, .act, .act]).any
        (fun w => w.server.iRTSPState = .playing ∧ .request .setup ∉ w.notes) = true := by
    decide +kernel
  have torn : (TraceMachine.run (watchedStep 2) watchedStart
      [.accepted, .received setupText, .act, .act, .act, .act, .act, .received playText, .act,
        .act, .act, .received teardownText, .act]).any
        (fun w => w.server.iRTSPState = .playing ∧
          w.notes.getLast? = some (.reply .teardown)) = true := by decide +kernel
  have away : (TraceMachine.run (watchedStep 2) watchedStart
      [.accepted, .received setupText, .act, .act, .act, .act, .act, .received playText, .act,
        .act, .act, .ended]).any
        (fun w => w.server.iRTSPState = .playing ∧ w.server.pc = .accepting) = true := by
    decide +kernel
  obtain ⟨w1, run1, early⟩ := (Option.any_eq_true _ _).mp early
  obtain ⟨w2, run2, torn⟩ := (Option.any_eq_true _ _).mp torn
  obtain ⟨w3, run3, away⟩ := (Option.any_eq_true _ _).mp away
  have early := of_decide_eq_true early
  have away := of_decide_eq_true away
  refine ⟨⟨w1, run1, early⟩, ⟨w2, run2, of_decide_eq_true torn⟩, ⟨w3, run3, away⟩, ?_⟩
  intro ordered
  exact (ordered _ w3 run3 away.1).connected away.2

end SessionOrder
