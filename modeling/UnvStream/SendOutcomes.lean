import UnvStream.FlushInterleaving
import UnvStream.WholeFrameDelivery
import Mathlib.Data.List.Forall2

/-!
# Calls of `send` and `sendto` that take less than they are given

`sendRTP_PacketTCP` does not look at the result of `send`, which may take a part of the frame or
nothing, or end the process with a signal. `sendRTP_PacketUDP` ends the process when `sendto`
fails. The calls are made by the thread of `FrameSender`, between the same assignments.
-/

namespace SendOutcomes

open Vocabulary FragmentLoop FrameSender ClientReceiver WholeFrameDelivery FlushInterleaving

/-- What a call does: it takes bytes, returns -1, or a signal ends the process. -/
inductive Outcome where
  | taken (bytes : Nat)
  | failed
  | killed
  deriving DecidableEq

/-- The payload of an IPv4 datagram. -/
def datagramLimit : Nat := 65507

/-- What a call puts on the network for the client, and whether the process goes on. A datagram
is taken as a whole. -/
def transmit (tlayer : Transport) (frame : List UInt8) :
    Outcome → Option (List (List UInt8) × Bool)
  | .taken bytes =>
    match tlayer with
    | .useTCP => if bytes ≤ frame.length then some ([frame.take bytes], true) else none
    | .useUDP =>
      if bytes = frame.length ∧ bytes ≤ datagramLimit then some ([frame], true) else none
  | .failed =>
    match tlayer with
    | .useTCP => some ([[]], true)
    | .useUDP => some ([], false)
  | .killed =>
    match tlayer with
    | .useTCP => some ([], false)
    | .useUDP => none

/-- The video thread, what its calls have put on the network, and whether the process has
ended. -/
structure Caller where
  thread : VideoThread
  network : List (List UInt8)
  exited : Bool

/-- A half call of the video thread has an outcome if it is the send. -/
inductive Action where
  | assign (state : RtspState)
  | video (outcome : Outcome)
  deriving DecidableEq

def step (tlayer : Transport) (c : Caller) (a : Action) : Option Caller :=
  if c.exited then none
  else
    match a with
    | .assign state =>
      (threadStep tlayer c.thread (.assign state)).map fun thread => { c with thread := thread }
    | .video outcome =>
      match c.thread.sending with
      | none => (threadStep tlayer c.thread .video).map fun thread => { c with thread := thread }
      | some size => do
        let (sender, sent) ← sendRTPPacket tlayer c.thread.sender size
        let (pieces, goesOn) ← transmit tlayer sent.bytes outcome
        return {
          thread := { c.thread with
            sender := sender, sending := none, wire := c.thread.wire ++ [sent] }
          network := c.network ++ pieces
          exited := !goesOn }

def Caller.start (sender : Sender) (frames : List (List UInt8)) : Caller :=
  ⟨.start sender frames, [], false⟩

/-- What is on the network for a frame whose call did not end the process. -/
def Carries (tlayer : Transport) (piece frame : List UInt8) : Prop :=
  match tlayer with
  | .useTCP => piece <+: frame
  | .useUDP => piece = frame ∧ frame.length ≤ datagramLimit

theorem transmit_carries {tlayer : Transport} {frame : List UInt8} {outcome : Outcome}
    {pieces : List (List UInt8)} {goesOn : Bool}
    (sent : transmit tlayer frame outcome = some (pieces, goesOn)) :
    goesOn = true ∧ (∃ piece, pieces = [piece] ∧ Carries tlayer piece frame) ∨
      goesOn = false ∧ pieces = [] := by
  cases outcome with
  | taken bytes =>
    cases tlayer with
    | useTCP =>
      simp only [transmit] at sent
      split at sent
      · obtain ⟨rfl, rfl⟩ := Prod.mk.inj (Option.some.inj sent)
        exact Or.inl ⟨rfl, _, rfl, List.take_prefix bytes frame⟩
      · cases sent
    | useUDP =>
      simp only [transmit] at sent
      split at sent
      · rename_i whole
        obtain ⟨rfl, rfl⟩ := Prod.mk.inj (Option.some.inj sent)
        exact Or.inl ⟨rfl, _, rfl, rfl, whole.1 ▸ whole.2⟩
      · cases sent
  | failed =>
    cases tlayer with
    | useTCP =>
      obtain ⟨rfl, rfl⟩ := Prod.mk.inj (Option.some.inj sent)
      exact Or.inl ⟨rfl, _, rfl, List.nil_prefix⟩
    | useUDP =>
      obtain ⟨rfl, rfl⟩ := Prod.mk.inj (Option.some.inj sent)
      exact Or.inr ⟨rfl, rfl⟩
  | killed =>
    cases tlayer with
    | useTCP =>
      obtain ⟨rfl, rfl⟩ := Prod.mk.inj (Option.some.inj sent)
      exact Or.inr ⟨rfl, rfl⟩
    | useUDP => cases sent

/-- The network carries what the calls were given, call by call, but for the call that has ended
the process. -/
structure Transmitted (tlayer : Transport) (frames : List (List UInt8)) (c : Caller) : Prop where
  thread : ThreadInv tlayer frames c.thread
  carried : ∃ calls rest, c.thread.wire.map Sent.bytes = calls ++ rest ∧
    List.Forall₂ (Carries tlayer) c.network calls ∧ (c.exited = false → rest = []) ∧
    (c.exited = true → ∃ frame, rest = [frame])

theorem start_transmitted (tlayer : Transport) (sender : Sender) (frames : List (List UInt8)) :
    Transmitted tlayer frames (.start sender frames) :=
  ⟨start_inv tlayer sender frames, [], [], rfl, .nil, fun _ => rfl, nofun⟩

theorem thread_transmitted {tlayer : Transport} {frames : List (List UInt8)}
    (fits : ∀ f ∈ frames, f.length ≤ frameQSize) {c : Caller} {thread : VideoThread}
    (inv : Transmitted tlayer frames c) {a : FrameSender.Action}
    (moved : threadStep tlayer c.thread a = some thread) (wire : thread.wire = c.thread.wire) :
    Transmitted tlayer frames { c with thread := thread } := by
  obtain ⟨thread', step', inv'⟩ := threadStep_inv fits inv.thread a
  obtain rfl := Option.some.inj (moved.symm.trans step')
  refine ⟨inv', ?_⟩
  rw [wire]
  exact inv.carried

/-- The send of a call whose first half has observed PLAYING. -/
theorem send_transmitted {tlayer : Transport} {frames : List (List UInt8)}
    (fits : ∀ f ∈ frames, f.length ≤ frameQSize) {c : Caller} (inv : Transmitted tlayer frames c)
    (running : c.exited = false) {size : Nat} (sending : c.thread.sending = some size)
    {sender : Sender} {sent : Sent} {outcome : Outcome} {pieces : List (List UInt8)}
    {goesOn : Bool} (packet : sendRTPPacket tlayer c.thread.sender size = some (sender, sent))
    (transmitted : transmit tlayer sent.bytes outcome = some (pieces, goesOn)) :
    Transmitted tlayer frames ⟨{ c.thread with
      sender := sender, sending := none, wire := c.thread.wire ++ [sent] },
      c.network ++ pieces, !goesOn⟩ := by
  obtain ⟨thread', step', inv'⟩ := threadStep_inv fits inv.thread .video
  simp only [threadStep, sending, packet, Option.bind_eq_bind, Option.bind_some,
    Option.pure_def, Option.some.injEq] at step'
  subst step'
  obtain ⟨calls, rest, wire, carried, whole, _⟩ := inv.carried
  rw [whole running, List.append_nil] at wire
  refine ⟨inv', ?_⟩
  rcases transmit_carries transmitted with ⟨rfl, piece, rfl, carries⟩ | ⟨rfl, rfl⟩
  · refine ⟨calls ++ [sent.bytes], [], ?_, ?_, fun _ => rfl, Bool.noConfusion⟩
    · rw [List.map_append, wire, List.append_nil]
      rfl
    · exact List.rel_append carried (.cons carries .nil)
  · refine ⟨calls, [sent.bytes], ?_, ?_, Bool.noConfusion, fun _ => ⟨_, rfl⟩⟩
    · rw [List.map_append, wire]
      rfl
    · rw [List.append_nil]
      exact carried

/-- The first half of a call sends nothing. -/
theorem idle_keeps_wire {tlayer : Transport} {t t' : VideoThread} (idle : t.sending = none)
    (h : threadStep tlayer t .video = some t') : t'.wire = t.wire := by
  simp only [threadStep, idle] at h
  split at h
  · cases h
    rfl
  · obtain ⟨queued, _, same⟩ := Option.bind_eq_some_iff.mp h
    cases same
    rfl

theorem step_transmitted {tlayer : Transport} {frames : List (List UInt8)}
    (fits : ∀ f ∈ frames, f.length ≤ frameQSize) {c c' : Caller} {a : Action}
    (inv : Transmitted tlayer frames c) (h : step tlayer c a = some c') :
    Transmitted tlayer frames c' := by
  unfold step at h
  split at h
  · cases h
  rename_i running
  cases a with
  | assign state =>
    obtain ⟨thread, moved, rfl⟩ := Option.map_eq_some_iff.mp h
    refine thread_transmitted fits inv moved ?_
    rw [← Option.some.inj moved]
  | video outcome =>
    cases sending : c.thread.sending with
    | none =>
      simp only [sending] at h
      obtain ⟨thread, moved, rfl⟩ := Option.map_eq_some_iff.mp h
      exact thread_transmitted fits inv moved (idle_keeps_wire sending moved)
    | some size =>
      simp only [sending] at h
      obtain ⟨⟨sender, sent⟩, packet, rest⟩ := Option.bind_eq_some_iff.mp h
      obtain ⟨⟨pieces, goesOn⟩, transmitted, same⟩ := Option.bind_eq_some_iff.mp rest
      rw [← Option.some.inj same]
      exact send_transmitted fits inv (by simpa using running) sending packet transmitted

/-- A step without the outcome of its call. -/
def Action.forget : Action → FrameSender.Action
  | .assign state => .assign state
  | .video _ => .video

/-- A step of the caller is one of its thread. -/
theorem step_thread {tlayer : Transport} {c c' : Caller} {a : Action}
    (h : step tlayer c a = some c') : threadStep tlayer c.thread a.forget = some c'.thread := by
  unfold step at h
  split at h
  · cases h
  cases a with
  | assign state =>
    obtain ⟨thread, moved, rfl⟩ := Option.map_eq_some_iff.mp h
    exact moved
  | video outcome =>
    cases sending : c.thread.sending with
    | none =>
      simp only [sending] at h
      obtain ⟨thread, moved, rfl⟩ := Option.map_eq_some_iff.mp h
      exact moved
    | some size =>
      simp only [sending] at h
      obtain ⟨⟨sender, sent⟩, packet, rest⟩ := Option.bind_eq_some_iff.mp h
      obtain ⟨⟨pieces, goesOn⟩, _, same⟩ := Option.bind_eq_some_iff.mp rest
      rw [← Option.some.inj same]
      simp only [Action.forget, threadStep, sending, packet, Option.bind_eq_bind,
        Option.bind_some, Option.pure_def]

/-- The next half call sends nothing, or it sends a frame and can have any outcome of a send. -/
theorem next_call {tlayer : Transport} {frames : List (List UInt8)}
    (fits : ∀ f ∈ frames, f.length ≤ frameQSize) {c : Caller} (inv : Transmitted tlayer frames c)
    (running : c.exited = false) :
    (∀ outcome, ∃ c', step tlayer c (.video outcome) = some c' ∧ c'.exited = false) ∨
      ∃ frame ∈ frames, ∀ outcome pieces goesOn,
        transmit tlayer frame outcome = some (pieces, goesOn) →
          ∃ c', step tlayer c (.video outcome) = some c' ∧ c'.exited = !goesOn := by
  cases sending : c.thread.sending with
  | none =>
    obtain ⟨thread, moved, _⟩ := threadStep_inv fits inv.thread .video
    refine Or.inl fun outcome => ⟨{ c with thread := thread }, ?_, running⟩
    simp only [step, running, sending, moved, Option.map_some, Bool.false_eq_true, if_false]
  | some size =>
    obtain ⟨_, frame, _, _, rfl, among, queued⟩ := inv.thread.busy size sending
    obtain ⟨sender, packet, _, _⟩ := sendRTPPacket_spec tlayer queued (fits frame among)
    refine Or.inr ⟨frame, among, fun outcome pieces goesOn sent => ⟨⟨{ c.thread with
      sender := sender, sending := none, wire := c.thread.wire ++ [wrap tlayer frame] },
      c.network ++ pieces, !goesOn⟩, ?_, rfl⟩⟩
    simp only [step, running, sending, packet, wrap_bytes, sent, Option.bind_eq_bind,
      Option.bind_some, Option.pure_def, Bool.false_eq_true, if_false]

/-- Frames that fit into a datagram can be taken whole. -/
theorem call_taken {tlayer : Transport} {frames : List (List UInt8)}
    (fits : ∀ f ∈ frames, f.length ≤ frameQSize) {c : Caller} (inv : Transmitted tlayer frames c)
    (running : c.exited = false)
    (small : tlayer = .useUDP → ∀ f ∈ frames, f.length ≤ datagramLimit) :
    ∃ outcome c', step tlayer c (.video outcome) = some c' ∧ c'.exited = false := by
  rcases next_call fits inv running with silent | ⟨frame, among, sends⟩
  · exact ⟨.failed, silent .failed⟩
  · obtain ⟨pieces, sent⟩ : ∃ pieces,
        transmit tlayer frame (.taken frame.length) = some (pieces, true) := by
      cases tlayer with
      | useTCP => exact ⟨_, if_pos (Nat.le_refl _)⟩
      | useUDP => exact ⟨_, if_pos ⟨rfl, small rfl frame among⟩⟩
    exact ⟨.taken frame.length, sends _ pieces true sent⟩

theorem run_transmitted {tlayer : Transport} {frames : List (List UInt8)}
    (fits : ∀ f ∈ frames, f.length ≤ frameQSize) {sender : Sender} {actions : List Action}
    {c : Caller} (run : TraceMachine.run (step tlayer) (.start sender frames) actions = some c) :
    Transmitted tlayer frames c :=
  TraceMachine.invariant_of_run (step tlayer) (fun _ _ _ inv h => step_transmitted fits inv h)
    (start_transmitted tlayer sender frames) run

/-- When all calls have returned, the network carries the frames whose call observed PLAYING, each
as far as its call has taken it. -/
theorem finished_network {tlayer : Transport} {frames : List (List UInt8)} {c : Caller}
    (inv : Transmitted tlayer frames c) (running : c.exited = false)
    (finished : c.thread.Finished) :
    List.Forall₂ (Carries tlayer) c.network (observed frames c.thread.tests) := by
  obtain ⟨calls, rest, wire, carried, whole, _⟩ := inv.carried
  have sent := (threadRun_wire inv.thread finished).1
  have bytes : Sent.bytes ∘ wrap tlayer = id := funext (wrap_bytes tlayer)
  rw [whole running, List.append_nil, sent, List.map_map, bytes, List.map_id] at wire
  exact wire ▸ carried

/-- Parts of frames join to the bytes of the frames only if they are the frames. -/
theorem prefixes_flatten_iff {pieces frames : List (List UInt8)}
    (carried : List.Forall₂ (· <+: ·) pieces frames) :
    pieces.flatten = frames.flatten ↔ pieces = frames := by
  have shorter : ∀ {pieces frames : List (List UInt8)}, List.Forall₂ (· <+: ·) pieces frames →
      pieces.flatten.length ≤ frames.flatten.length := by
    intro pieces frames carried
    induction carried with
    | nil => exact Nat.le_refl 0
    | cons part _ ih =>
      rw [List.flatten_cons, List.flatten_cons, List.length_append, List.length_append]
      exact Nat.add_le_add part.length_le ih
  constructor
  · induction carried with
    | nil => exact fun _ => rfl
    | @cons piece frame pieces frames part carried ih =>
      intro same
      have lengths := congrArg List.length same
      have le := part.length_le
      have le' := shorter carried
      rw [List.flatten_cons, List.flatten_cons, List.length_append, List.length_append] at lengths
      obtain rfl := part.eq_of_length (by omega)
      rw [List.flatten_cons, List.flatten_cons] at same
      rw [ih (List.append_cancel_left same)]
  · exact congrArg List.flatten

/-- Over TCP the client writes what the calls have taken of the frames whose call observed
PLAYING, in their order, and these frames exactly if every call has taken its whole frame. -/
theorem taken_bytes_delivered (vcodec : VideoCodec) {frames : List EncodedFrame} {sender : Sender}
    {actions : List Action} {c : Caller}
    (run : TraceMachine.run (step .useTCP) (.start sender (frames.map EncodedFrame.bytes))
      actions = some c)
    (running : c.exited = false) (finished : c.thread.Finished) {results : List RecvResult}
    (cut : Segmentation c.network.flatten results) (iPortNum : Nat) (r : Receiver) :
    ∃ r' outs, receiveAll .useTCP vcodec iPortNum r results = some (r', outs) ∧
      outs.flatten = c.network.flatten ∧
      List.Forall₂ (· <+: ·) c.network
        (observed (frames.map EncodedFrame.bytes) c.thread.tests) ∧
      (outs.flatten = (observed (frames.map EncodedFrame.bytes) c.thread.tests).flatten ↔
        c.network = observed (frames.map EncodedFrame.bytes) c.thread.tests) := by
  have inv := run_transmitted (encoded_fits frames) run
  have carried : List.Forall₂ (· <+: ·) c.network _ := finished_network inv running finished
  obtain ⟨r', outs, received, written⟩ := receive_segmentation iPortNum r cut
  refine ⟨r', outs, received, written, carried, ?_⟩
  rw [written]
  exact prefixes_flatten_iff carried

private def threeByteFrame : EncodedFrame := ⟨[11, 12, 13], by decide, by decide⟩

/-- A call that takes two bytes of three. -/
theorem two_bytes_taken :
    ∃ c, TraceMachine.run (step .useTCP) (.start (.cleared .playing) [[11, 12, 13]])
        [.video .failed, .video (.taken 2)] = some c ∧
      ∃ r' outs, receiveAll .useTCP .useH264 0 .cleared [.data [11], .data [12]] =
        some (r', outs) ∧ outs.flatten = c.network.flatten := by
  obtain ⟨c, run, running, finished, network⟩ : ∃ c,
      TraceMachine.run (step .useTCP) (.start (.cleared .playing) [[11, 12, 13]])
        [.video .failed, .video (.taken 2)] = some c ∧ c.exited = false ∧ c.thread.Finished ∧
      c.network = [[11, 12]] := ⟨_, rfl, rfl, ⟨rfl, rfl⟩, rfl⟩
  have cut : Segmentation c.network.flatten [.data [11], .data [12]] := by
    rw [network]
    exact ⟨by decide, rfl⟩
  obtain ⟨r', outs, received, written, _⟩ :=
    @taken_bytes_delivered .useH264 [threeByteFrame] _ _ c run running finished _ cut 0 .cleared
  exact ⟨c, run, r', outs, received, written⟩

/-- The calls that have been made are those that observed PLAYING, up to the one that is going
on. -/
theorem made_prefix {tlayer : Transport} {frames : List (List UInt8)} {t : VideoThread}
    (inv : ThreadInv tlayer frames t) : t.wire.map Sent.bytes <+: observed frames t.tests := by
  have bytes : Sent.bytes ∘ wrap tlayer = id := funext (wrap_bytes tlayer)
  cases sending : t.sending with
  | none =>
    have same : t.wire.map Sent.bytes = observed frames t.tests := by
      rw [inv.idle sending, List.map_map, bytes, List.map_id]
    exact same ▸ List.prefix_rfl
  | some size =>
    obtain ⟨sent, frame, made, wire, _⟩ := inv.busy size sending
    rw [wire, made, List.map_map, bytes, List.map_id]
    exact List.prefix_append sent [frame]

theorem carried_whole {pieces frames : List (List UInt8)}
    (carried : List.Forall₂ (Carries .useUDP) pieces frames) :
    pieces = frames ∧ ∀ frame ∈ frames, frame.length ≤ datagramLimit := by
  induction carried with
  | nil => exact ⟨rfl, nofun⟩
  | cons carries _ ih =>
    obtain ⟨rfl, small⟩ := carries
    obtain ⟨rfl, rest⟩ := ih
    exact ⟨rfl, List.forall_mem_cons.mpr ⟨small, rest⟩⟩

/-- Over UDP the network carries the frames whose call observed PLAYING, whole and in order, up to
the first one that cannot be sent, with which the process ends; a frame larger than a datagram is
one. A client that does not expect fragments writes whatever arrives of them. -/
theorem datagrams_whole {frames : List EncodedFrame} {sender : Sender} {actions : List Action}
    {c : Caller} (run : TraceMachine.run (step .useUDP)
      (.start sender (frames.map EncodedFrame.bytes)) actions = some c) :
    c.network <+: observed (frames.map EncodedFrame.bytes) c.thread.tests ∧
    (∀ d ∈ c.network, d.length ≤ datagramLimit) ∧
    (c.exited = false → c.thread.Finished →
      c.network = observed (frames.map EncodedFrame.bytes) c.thread.tests) ∧
    (c.exited = true → ∃ frame, c.thread.wire.map Sent.bytes = c.network ++ [frame]) ∧
    ∀ received, (∀ d ∈ received, d ∈ c.network) → ∀ iPortNum r, ∃ r',
      receiveAll .useUDP .useH264 iPortNum r (received.map .data) = some (r', received) := by
  have inv := run_transmitted (encoded_fits frames) run
  obtain ⟨calls, rest, wire, carried, _, ended⟩ := inv.carried
  obtain ⟨rfl, small⟩ := carried_whole carried
  have made := made_prefix inv.thread
  rw [wire] at made
  refine ⟨(List.prefix_append _ rest).trans made, small, ?_, ?_, ?_⟩
  · exact fun running finished => (carried_whole (finished_network inv running finished)).1
  · intro exited
    obtain ⟨frame, rfl⟩ := ended exited
    exact ⟨frame, wire⟩
  · intro received among iPortNum r
    have mode : ¬ (Transport.useUDP = .useUDP ∧ VideoCodec.useH264 = .useMJPEG) := by
      rintro ⟨_, ⟨⟩⟩
    have short : ∀ result ∈ received.map RecvResult.data, result.bytes.length ≤ buffSize := by
      intro result there
      obtain ⟨d, arrived, rfl⟩ := List.mem_map.mp there
      exact Nat.le_trans (small d (among d arrived)) (by decide)
    obtain ⟨r', ran⟩ := receiveAll_whole mode iPortNum r _ short
    have bytes : RecvResult.bytes ∘ RecvResult.data = id := rfl
    rw [List.map_map, bytes, List.map_id] at ran
    exact ⟨r', ran⟩

/-- The second of two frames cannot be sent. -/
theorem second_datagram_fails :
    ∃ c, TraceMachine.run (step .useUDP) (.start (.cleared .playing) [[11, 12, 13], [11, 12, 13]])
        [.video .failed, .video (.taken 3), .video .failed, .video .failed] = some c ∧
      ∃ frame, c.thread.wire.map Sent.bytes = [[11, 12, 13]] ++ [frame] := by
  obtain ⟨c, run, exited, network⟩ : ∃ c,
      TraceMachine.run (step .useUDP) (.start (.cleared .playing) [[11, 12, 13], [11, 12, 13]])
        [.video .failed, .video (.taken 3), .video .failed, .video .failed] = some c ∧
      c.exited = true ∧ c.network = [[11, 12, 13]] := ⟨_, rfl, rfl, rfl⟩
  obtain ⟨_, _, _, ended, _⟩ := @datagrams_whole [threeByteFrame, threeByteFrame] _ _ c run
  rw [network] at ended
  exact ⟨c, run, ended exited⟩

end SendOutcomes
