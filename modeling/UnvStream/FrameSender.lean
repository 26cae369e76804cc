import UnvStream.CheckedMemory
import UnvStream.TraceMachine
import UnvStream.FragmentLoop

/-!
# `addFrame` and the thread that calls it

`addFrame` copies the frame to `pFrameQ`, tests `iRTSP_State` once and sends the
frame when the state is PLAYING. The RTSP thread assigns `iRTSP_State` without
any lock, so a scheduler interleaves its assignments with the two halves of the
calls: up to the test, and the send.
-/

namespace FrameSender

open CheckedMemory Vocabulary FragmentLoop

def frameQSize : Nat := 200000

structure Sender where
  pFrameQ : Vector UInt8 frameQSize
  framesize : Nat
  iPacketNo : Nat
  iRTSPState : RtspState

def Sender.cleared (state : RtspState) : Sender :=
  ⟨Vector.replicate frameQSize 0, 0, 0, state⟩

/-- What reaches a socket: `send` on `acc`, or `sendto` from `iUDP_Sock[0]` to
`structUDP_Client[0]`. -/
inductive Sent where
  | tcp (bytes : List UInt8)
  | udp (bytes : List UInt8)
  deriving DecidableEq

def Sent.bytes : Sent → List UInt8
  | .tcp bytes => bytes
  | .udp bytes => bytes

/-- `sendRTP_PacketTCP` or `sendRTP_PacketUDP` for port 0 on the queued frame. -/
def sendRTPPacket (tlayer : Transport) (s : Sender) (videoFrameSize : Nat) :
    Option (Sender × Sent) := do
  let frame ← read s.pFrameQ 0 videoFrameSize
  let s := { s with iPacketNo := s.iPacketNo + 1 }
  match tlayer with
  | .useTCP => return (s, .tcp frame)
  | .useUDP => return (s, .udp frame)

/-- `addFrame` up to and with the test of the state. -/
def queueFrame (s : Sender) (frame : List UInt8) : Option (Sender × Bool) := do
  let queue ← storeAll s.pFrameQ 0 frame
  return ({ s with pFrameQ := queue, framesize := frame.length },
    decide (s.iRTSPState = .playing))

def addFrame (tlayer : Transport) (s : Sender) (frame : List UInt8) :
    Option (Sender × Option Sent) := do
  let (s, playing) ← queueFrame s frame
  if playing then
    let (s, sent) ← sendRTPPacket tlayer s frame.length
    return (s, some sent)
  else return (s, none)

def wrap : Transport → List UInt8 → Sent
  | .useTCP => .tcp
  | .useUDP => .udp

@[simp] theorem wrap_bytes (tlayer : Transport) (frame : List UInt8) :
    (wrap tlayer frame).bytes = frame := by
  cases tlayer <;> rfl

/-- The queue holds a frame from its start. -/
def Queued (s : Sender) (frame : List UInt8) : Prop :=
  region s.pFrameQ 0 frame.length = frame

theorem queueFrame_spec (s : Sender) (frame : List UInt8) (fits : frame.length ≤ frameQSize) :
    ∃ s', queueFrame s frame = some (s', decide (s.iRTSPState = .playing)) ∧
      s'.iRTSPState = s.iRTSPState ∧ Queued s' frame := by
  obtain ⟨queue, stored, held, _⟩ := storeAll_spec s.pFrameQ 0 frame (by omega)
  refine ⟨{ s with pFrameQ := queue, framesize := frame.length }, ?_, rfl, held⟩
  simp only [queueFrame, stored, Option.bind_eq_bind, Option.bind_some, Option.pure_def]

theorem sendRTPPacket_spec (tlayer : Transport) {s : Sender} {frame : List UInt8}
    (queued : Queued s frame) (fits : frame.length ≤ frameQSize) :
    ∃ s', sendRTPPacket tlayer s frame.length = some (s', wrap tlayer frame) ∧
      s'.iRTSPState = s.iRTSPState ∧ s'.pFrameQ = s.pFrameQ := by
  have readOut : read s.pFrameQ 0 frame.length = some frame := by
    rw [read_of_le s.pFrameQ (by omega), queued]
  refine ⟨{ s with iPacketNo := s.iPacketNo + 1 }, ?_, rfl, rfl⟩
  cases tlayer <;> simp only [sendRTPPacket, readOut, Option.bind_eq_bind, Option.bind_some, wrap,
    Option.pure_def]

/-- A call sends the whole frame when it observes PLAYING and nothing otherwise. -/
theorem addFrame_spec (tlayer : Transport) (s : Sender) (frame : List UInt8)
    (fits : frame.length ≤ frameQSize) :
    ∃ s', addFrame tlayer s frame =
        some (s', if s.iRTSPState = .playing then some (wrap tlayer frame) else none) ∧
      s'.iRTSPState = s.iRTSPState := by
  obtain ⟨s1, queue, state1, queued⟩ := queueFrame_spec s frame fits
  by_cases playing : s.iRTSPState = .playing
  · obtain ⟨s2, send, state2, _⟩ := sendRTPPacket_spec tlayer queued fits
    refine ⟨s2, ?_, state2.trans state1⟩
    simp only [addFrame, queue, playing, send, Option.bind_eq_bind, Option.bind_some,
      decide_true, if_true, Option.pure_def]
  · refine ⟨s1, ?_, state1⟩
    simp only [addFrame, queue, playing, Option.bind_eq_bind, Option.bind_some, decide_false,
      Bool.false_eq_true, if_false, Option.pure_def]

/-- The video thread between two scheduling points: the calls it still has to
make, the frame size of a call that has observed PLAYING and not sent yet, what
reached the socket, and the state every call observed so far. -/
structure VideoThread where
  sender : Sender
  remaining : List (List UInt8)
  sending : Option Nat
  wire : List Sent
  tests : List RtspState

/-- The scheduler lets the RTSP thread assign the state or the video thread take
its next half call. -/
inductive Action where
  | assign (state : RtspState)
  | video
  deriving DecidableEq

def threadStep (tlayer : Transport) (t : VideoThread) : Action → Option VideoThread
  | .assign state => some { t with sender := { t.sender with iRTSPState := state } }
  | .video =>
    match t.sending with
    | some size => do
      let (s, sent) ← sendRTPPacket tlayer t.sender size
      return { t with sender := s, sending := none, wire := t.wire ++ [sent] }
    | none =>
      match t.remaining with
      | [] => some t
      | frame :: rest => do
        let (s, playing) ← queueFrame t.sender frame
        return { t with
          sender := s
          remaining := rest
          sending := if playing then some frame.length else none
          tests := t.tests ++ [t.sender.iRTSPState] }

def threadRun (tlayer : Transport) : VideoThread → List Action → Option VideoThread :=
  TraceMachine.run (threadStep tlayer)

def VideoThread.Finished (t : VideoThread) : Prop := t.remaining = [] ∧ t.sending = none

/-- The video thread about to make the calls `frames`. -/
def VideoThread.start (sender : Sender) (frames : List (List UInt8)) : VideoThread where
  sender := sender
  remaining := frames
  sending := none
  wire := []
  tests := []

/-- The frames whose call observed PLAYING. -/
def observed (frames : List (List UInt8)) (tests : List RtspState) : List (List UInt8) :=
  ((frames.zip tests).filter fun call => call.2 = .playing).map Prod.fst

/-- Calls and tests can be matched up stretch by stretch. -/
theorem observed_append {frames later : List (List UInt8)} {tests laterTests : List RtspState}
    (len : frames.length = tests.length) :
    observed (frames ++ later) (tests ++ laterTests) =
      observed frames tests ++ observed later laterTests := by
  simp only [observed, List.zip_append len, List.filter_append, List.map_append]

theorem observed_snoc {frames rest : List (List UInt8)} {tests : List RtspState}
    {frame : List UInt8} (made : tests.length ≤ frames.length)
    (next : frames.drop tests.length = frame :: rest) (state : RtspState) :
    observed frames (tests ++ [state]) =
      observed frames tests ++ if state = .playing then [frame] else [] := by
  have len : (frames.take tests.length).length = tests.length := by
    rw [List.length_take]
    exact Nat.min_eq_left made
  have split : frames = frames.take tests.length ++ frame :: rest := by
    rw [← next, List.take_append_drop]
  have before : observed (frames.take tests.length ++ frame :: rest) (tests ++ []) =
      observed (frames.take tests.length) tests ++ observed (frame :: rest) [] :=
    observed_append len
  have after : observed (frames.take tests.length ++ frame :: rest) (tests ++ [state]) =
      observed (frames.take tests.length) tests ++ observed (frame :: rest) [state] :=
    observed_append len
  rw [← split, List.append_nil] at before
  rw [← split] at after
  have nothing : observed (frame :: rest) [] = [] := rfl
  rw [nothing, List.append_nil] at before
  have last : observed (frame :: rest) [state] = if state = .playing then [frame] else [] := by
    by_cases playing : state = .playing
    · simp [observed, playing]
    · simp [observed, playing]
  rw [after, before, last]

/-- What the video thread has done of the calls `frames`. -/
structure ThreadInv (tlayer : Transport) (frames : List (List UInt8)) (t : VideoThread) :
    Prop where
  calls : t.remaining = frames.drop t.tests.length
  made : t.tests.length ≤ frames.length
  idle : t.sending = none → t.wire = (observed frames t.tests).map (wrap tlayer)
  busy : ∀ size, t.sending = some size → ∃ sent frame,
    observed frames t.tests = sent ++ [frame] ∧ t.wire = sent.map (wrap tlayer) ∧
      frame.length = size ∧ frame ∈ frames ∧ Queued t.sender frame

theorem start_inv (tlayer : Transport) (sender : Sender) (frames : List (List UInt8)) :
    ThreadInv tlayer frames (.start sender frames) where
  calls := rfl
  made := Nat.zero_le _
  idle := fun _ => by simp [VideoThread.start, observed]
  busy := by
    intro size h
    cases h

/-- The half call that sends. -/
theorem send_inv {tlayer : Transport} {frames : List (List UInt8)}
    (fits : ∀ f ∈ frames, f.length ≤ frameQSize) {t : VideoThread}
    (inv : ThreadInv tlayer frames t) {size : Nat} (sending : t.sending = some size) :
    ∃ t', threadStep tlayer t .video = some t' ∧ ThreadInv tlayer frames t' := by
  obtain ⟨sent, frame, hobs, hwire, hlen, hmem, queued⟩ := inv.busy size sending
  obtain ⟨s', send, _, _⟩ := sendRTPPacket_spec tlayer queued (fits frame hmem)
  rw [hlen] at send
  refine ⟨{ t with
    sender := s', sending := none, wire := t.wire ++ [wrap tlayer frame] }, ?_, inv.calls, inv.made,
    ?_, ?_⟩
  · simp only [threadStep, sending, send, Option.bind_eq_bind, Option.bind_some, Option.pure_def]
  · intro _
    simp only [hobs, hwire, List.map_append, List.map_cons, List.map_nil]
  · intro size' h
    cases h

/-- The half call up to the test of the state. -/
theorem test_inv {tlayer : Transport} {frames : List (List UInt8)}
    (fits : ∀ f ∈ frames, f.length ≤ frameQSize) {t : VideoThread}
    (inv : ThreadInv tlayer frames t) (idle : t.sending = none) {frame : List UInt8}
    {rest : List (List UInt8)} (next : t.remaining = frame :: rest) :
    ∃ t', threadStep tlayer t .video = some t' ∧ ThreadInv tlayer frames t' := by
  have wire := inv.idle idle
  have calls := inv.calls
  rw [next] at calls
  have hmem : frame ∈ frames := by
    apply List.mem_of_mem_drop
    rw [← calls]
    exact List.mem_cons_self
  have hrest : rest = frames.drop (t.tests.length + 1) := by
    rw [← List.drop_drop, ← calls]
    rfl
  have left := congrArg List.length calls
  rw [List.length_cons, List.length_drop] at left
  have snoc := observed_snoc inv.made calls.symm t.sender.iRTSPState
  obtain ⟨s', queue, _, queued⟩ := queueFrame_spec t.sender frame (fits frame hmem)
  refine ⟨{ t with
    sender := s'
    remaining := rest
    sending := if decide (t.sender.iRTSPState = .playing) then some frame.length else none
    tests := t.tests ++ [t.sender.iRTSPState] }, ?_, ?_, ?_, ?_, ?_⟩
  · simp only [threadStep, idle, next, queue, Option.bind_eq_bind, Option.bind_some,
      Option.pure_def]
  · simpa only [List.length_append, List.length_singleton] using hrest
  · rw [List.length_append, List.length_singleton]
    omega
  · intro hnone
    have notPlaying : t.sender.iRTSPState ≠ .playing := by
      intro hp
      simp [hp] at hnone
    rw [snoc, if_neg notPlaying, List.append_nil]
    exact wire
  · intro size hsome
    have hp : t.sender.iRTSPState = .playing := by
      by_contra hp
      simp [hp] at hsome
    rw [if_pos hp] at snoc
    have hsize : frame.length = size := by simpa [hp] using hsome
    exact ⟨_, frame, snoc, wire, hsize, hmem, queued⟩

theorem threadStep_inv {tlayer : Transport} {frames : List (List UInt8)}
    (fits : ∀ f ∈ frames, f.length ≤ frameQSize) {t : VideoThread}
    (inv : ThreadInv tlayer frames t) (a : Action) :
    ∃ t', threadStep tlayer t a = some t' ∧ ThreadInv tlayer frames t' := by
  cases a with
  | assign state => exact ⟨_, rfl, inv.calls, inv.made, inv.idle, inv.busy⟩
  | video =>
    cases sending : t.sending with
    | some size => exact send_inv fits inv sending
    | none =>
      cases remaining : t.remaining with
      | nil => exact ⟨t, by simp only [threadStep, sending, remaining], inv⟩
      | cons frame rest => exact test_inv fits inv sending remaining

theorem threadRun_inv {tlayer : Transport} {frames : List (List UInt8)}
    (fits : ∀ f ∈ frames, f.length ≤ frameQSize) {t : VideoThread}
    (inv : ThreadInv tlayer frames t) (actions : List Action) :
    ∃ t', threadRun tlayer t actions = some t' ∧ ThreadInv tlayer frames t' := by
  induction actions generalizing t with
  | nil => exact ⟨t, rfl, inv⟩
  | cons a actions ih =>
    obtain ⟨t1, step, inv1⟩ := threadStep_inv fits inv a
    obtain ⟨t', run, inv'⟩ := ih inv1
    exact ⟨t', (TraceMachine.run_cons _).mpr ⟨t1, step, run⟩, inv'⟩

/-- When all calls have returned, the wire carries the frames whose call observed
PLAYING, whole and in the order of the calls. -/
theorem threadRun_wire {tlayer : Transport} {frames : List (List UInt8)} {t : VideoThread}
    (inv : ThreadInv tlayer frames t) (finished : t.Finished) :
    t.wire = (observed frames t.tests).map (wrap tlayer) ∧ t.tests.length = frames.length := by
  refine ⟨inv.idle finished.2, ?_⟩
  have none := inv.calls
  rw [finished.1] at none
  exact Nat.le_antisymm inv.made (List.drop_eq_nil_iff.mp none.symm)

end FrameSender
