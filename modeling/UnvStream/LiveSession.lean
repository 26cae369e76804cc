import UnvStream.SendOutcomes
import UnvStream.VideoGate
import UnvStream.VideoOutputs

/-!
# A session of the server from its first client to the last frame

The calls of `addFrame` that a pass makes behind its gate test what the RTSP thread has assigned
last. Here the two threads run together, and a call sends as much as the socket takes. The process
may end in a call, or at any time in another thread: in the bind of a worker, or by a signal. When
no further client and no SETUP come after the first PLAY, every frame goes to the client, and only
the end of the process keeps the video thread from its own.
-/

namespace LiveSession

open FragmentLoop VideoLoop VideoGate VideoOutputs FrameSender ClientReceiver WholeFrameDelivery
open Vocabulary RtspMessages RtspServer ParserSafety
open SendOutcomes (Caller Outcome Transmitted Carries datagramLimit)

/-- The threads, with the calls of `addFrame` that the video thread has to make before its next
half of a pass, and whether another thread or a signal has ended the process. -/
structure Process where
  gate : VideoGate.Process
  caller : Caller
  halted : Bool

/-- The process has ended. -/
def Process.over (st : Process) : Bool := st.halted || st.caller.exited

/-- The outcome is that of the send, if the step of the video thread is one. -/
inductive Event where
  | rtsp (e : RtspServer.Event)
  | video (outcome : Outcome)
  | exit

instance (t : VideoThread) : Decidable t.Finished := inferInstanceAs (Decidable (_ ∧ _))

/-- The calls that a half of a pass makes. -/
def callsOf (st st' : VideoGate.Process) : List (List UInt8) :=
  addFrameCalls (st'.loop.out.emissions.drop st.loop.out.emissions.length)

/-- The caller is given the calls of a pass. -/
def given (c : Caller) (calls : List (List UInt8)) : Caller :=
  { c with thread := { c.thread with remaining := calls } }

/-- The files that a pass writes behind its calls are written before them here: they are read by
no other thread. -/
def step (iNumUDPPorts : Nat) (opts : VideoLoop.Options) (video : Video) (st : Process)
    (e : Event) : Option Process :=
  if st.over then none
  else
    match e with
    | .rtsp e => do
      let gate ← VideoGate.step iNumUDPPorts opts video st.gate (.rtsp e)
      let caller ← SendOutcomes.step opts.transport st.caller (.assign gate.server.iRTSPState)
      return { st with gate := gate, caller := caller }
    | .video outcome =>
      if st.caller.thread.Finished then do
        let gate ← videoStep opts video st.gate
        return { st with gate := gate, caller := given st.caller (callsOf st.gate gate) }
      else do
        let caller ← SendOutcomes.step opts.transport st.caller (.video outcome)
        return { st with caller := caller }
    | .exit => some { st with halted := true }

def start (ps : List Packet) : Process :=
  ⟨VideoGate.start ps, .start (.cleared .init) [], false⟩

/-- What a half of a pass adds to the emissions, each call short enough for `pFrameQ`. -/
structure Emitted (st st' : VideoGate.Process) (new : List Emission) : Prop where
  added : st'.loop.out.emissions = st.loop.out.emissions ++ new
  fits : ∀ c ∈ addFrameCalls new, c.length ≤ frameQSize
  closed : st.server.slp = true → new = []
  server : st'.server = st.server

/-- All that an event can do. -/
inductive Moved (iNumUDPPorts : Nat) (opts : VideoLoop.Options) (video : Video) (st : Process) :
    Event → Process → Prop where
  | rtsp (e : RtspServer.Event) (server : Server) (caller : Caller)
      (moved : RtspServer.step iNumUDPPorts st.gate.server e = some server)
      (assigned : SendOutcomes.step opts.transport st.caller (.assign server.iRTSPState) =
        some caller) :
      Moved iNumUDPPorts opts video st (.rtsp e)
        { st with gate := { st.gate with server := server }, caller := caller }
  | half (outcome : Outcome) (gate : VideoGate.Process) (new : List Emission)
      (finished : st.caller.thread.Finished) (passed : videoStep opts video st.gate = some gate)
      (emitted : Emitted st.gate gate new) :
      Moved iNumUDPPorts opts video st (.video outcome)
        { st with gate := gate, caller := given st.caller (addFrameCalls new) }
  | call (outcome : Outcome) (caller : Caller) (busy : ¬ st.caller.thread.Finished)
      (called : SendOutcomes.step opts.transport st.caller (.video outcome) = some caller) :
      Moved iNumUDPPorts opts video st (.video outcome) { st with caller := caller }
  | exit : Moved iNumUDPPorts opts video st .exit { st with halted := true }

theorem no_calls_fit : ∀ c ∈ addFrameCalls [], c.length ≤ frameQSize := by
  intro c among
  cases among

theorem videoPass_fits {opts : CliOpts} {vid vid' : VideoBuffer} {frame : EncodedFrame}
    {new : List Emission} (passed : videoPass opts vid frame.bytes = some (vid', new)) :
    ∀ c ∈ addFrameCalls new, c.length ≤ frameQSize := by
  have larger : outBufferSize ≤ frameQSize := by decide
  unfold videoPass at passed
  split at passed
  · have room := fragmentFrame_fits frame.nonempty (Option.isSome_iff_exists.mpr ⟨_, passed⟩)
    obtain ⟨_, bytes, length, _, whole⟩ := fragmentFrame_spec vid frame.nonempty room
    have same := (Prod.mk.inj (Option.some.inj (passed.symm.trans (whole _)))).2
    rw [same]
    split
    · cases saving : opts.savevideo with
      | true =>
        rw [(flushEmissions_kind true frame.bytes bytes).1 rfl]
        exact no_calls_fit
      | false =>
        rw [flushEmissions_sent, addFrameCalls_map]
        intro c among
        have short := flushChunks_length_le bytes c among
        omega
    · exact no_calls_fit
  · obtain ⟨_, rfl⟩ := Prod.mk.inj (Option.some.inj passed)
    intro c among
    obtain rfl := List.mem_singleton.mp among
    exact Nat.le_trans frame.room larger

/-- The statements behind the gate emit nothing unless there is a gate. -/
theorem afterGate_emissions {opts : VideoLoop.Options} {n : Int} {o o' : Outputs} {p : Packet}
    (after : afterGate opts n o p = some o') :
    ∃ new, o'.emissions = o.emissions ++ new ∧ (∀ c ∈ addFrameCalls new, c.length ≤ frameQSize) ∧
      (atGate opts p = false → new = []) := by
  cases encoded : p.encoded with
  | frame frame =>
    simp only [afterGate, encoded] at after
    obtain ⟨o1, emitted, same⟩ := Option.bind_eq_some_iff.mp after
    obtain rfl := Option.some.inj same
    unfold emit at emitted
    split at emitted
    · rename_i networked
      obtain ⟨⟨vid, new⟩, passed, same⟩ := Option.bind_eq_some_iff.mp emitted
      obtain rfl := Option.some.inj same
      refine ⟨new, rfl, videoPass_fits passed, fun ungated => ?_⟩
      simp [atGate, networked, encoded, Encoded.frame?] at ungated
    · obtain rfl := Option.some.inj emitted
      exact ⟨[], (List.append_nil _).symm, no_calls_fit, fun _ => rfl⟩
  | buffered | fault =>
    simp only [afterGate, encoded] at after
    obtain rfl := Option.some.inj after
    exact ⟨[], (List.append_nil _).symm, no_calls_fit, fun _ => rfl⟩

theorem conclude_kept (opts : VideoLoop.Options) (st : VideoGate.Process) (l : Loop) :
    (conclude st (countFrame opts l)).loop.out = l.out ∧
      (conclude st (countFrame opts l)).server = st.server := by
  obtain ⟨l', out, next | left⟩ := countFrame_out opts l
  · rw [next]
    exact ⟨out, rfl⟩
  · rw [left]
    exact ⟨out, rfl⟩

theorem Emitted.nothing {st st' : VideoGate.Process}
    (same : st'.loop.out.emissions = st.loop.out.emissions) (server : st'.server = st.server) :
    Emitted st st' [] :=
  ⟨same.trans (List.append_nil _).symm, no_calls_fit, fun _ => rfl, server⟩

theorem videoStep_emitted {opts : VideoLoop.Options} {video : Video} {st st' : VideoGate.Process}
    (h : videoStep opts video st = some st') : ∃ new, Emitted st st' new := by
  obtain ⟨_, passed⟩ := passed_of_videoStep h
  cases passed with
  | sleeps p inside waits slp => exact ⟨[], .nothing rfl rfl⟩
  | leaves p o inside opened after =>
    obtain ⟨new, added, fits, ungated⟩ := afterGate_emissions after
    obtain ⟨out, server⟩ := conclude_kept opts st { st.loop with out := o }
    refine ⟨new, (congrArg Outputs.emissions out).trans added, fits, fun slp => ungated ?_, server⟩
    by_contra gated
    rw [Bool.not_eq_false] at gated
    rw [opened gated] at slp
    cases slp
  | ends outside none_left => exact ⟨[], .nothing rfl rfl⟩
  | stops p ps outside next stopped => exact ⟨[], .nothing rfl rfl⟩
  | enters p ps o outside next going complete before =>
    obtain ⟨frameId, dropped⟩ := dropFrame_spec opts st.loop p
    rw [dropped] at before
    exact ⟨[], .nothing (beforeGate_outputs before).1 rfl⟩
  | skips p ps outside next going incomplete =>
    obtain ⟨frameId, dropped⟩ := dropFrame_spec opts st.loop p
    rw [dropped]
    exact ⟨[], .nothing rfl rfl⟩

theorem moved_of_step {iNumUDPPorts : Nat} {opts : VideoLoop.Options} {video : Video}
    {st st' : Process} {e : Event} (h : step iNumUDPPorts opts video st e = some st') :
    Moved iNumUDPPorts opts video st e st' := by
  unfold step at h
  split at h
  · cases h
  cases e with
  | rtsp e =>
    obtain ⟨gate, stepped, rest⟩ := Option.bind_eq_some_iff.mp h
    obtain ⟨server, moved, rfl⟩ := Option.map_eq_some_iff.mp stepped
    obtain ⟨caller, assigned, same⟩ := Option.bind_eq_some_iff.mp rest
    obtain rfl := Option.some.inj same
    exact .rtsp e server caller moved assigned
  | video outcome =>
    simp only at h
    split at h
    · rename_i finished
      obtain ⟨gate, passed, same⟩ := Option.bind_eq_some_iff.mp h
      obtain rfl := Option.some.inj same
      obtain ⟨new, emitted⟩ := videoStep_emitted passed
      have calls : callsOf st.gate gate = addFrameCalls new := by
        rw [callsOf, emitted.added, List.drop_left]
      rw [calls]
      exact .half outcome gate new finished passed emitted
    · rename_i busy
      obtain ⟨caller, called, same⟩ := Option.bind_eq_some_iff.mp h
      obtain rfl := Option.some.inj same
      exact .call outcome caller busy called
  | exit =>
    obtain rfl := Option.some.inj h
    exact .exit

/-- A thread that has made its calls can be given further ones. -/
theorem further_calls {tlayer : Transport} {frames : List (List UInt8)} {t : VideoThread}
    (inv : ThreadInv tlayer frames t) (finished : t.Finished) (new : List (List UInt8)) :
    ThreadInv tlayer (frames ++ new) { t with remaining := new } := by
  obtain ⟨wire, made⟩ := threadRun_wire inv finished
  have all : observed (frames ++ new) t.tests = observed frames t.tests := by
    have apart : observed (frames ++ new) (t.tests ++ []) =
        observed frames t.tests ++ observed new [] := observed_append made.symm
    rwa [List.append_nil, show observed new [] = [] by simp [observed], List.append_nil] at apart
  refine ⟨?_, ?_, fun _ => ?_, fun size sending => ?_⟩
  · rw [made, List.drop_left]
  · rw [made, List.length_append]
    exact Nat.le_add_right _ _
  · rw [all]
    exact wire
  · rw [finished.2] at sending
    cases sending

theorem given_transmitted {tlayer : Transport} {frames : List (List UInt8)} {c : Caller}
    (inv : Transmitted tlayer frames c) (finished : c.thread.Finished) (new : List (List UInt8)) :
    Transmitted tlayer (frames ++ new) (given c new) :=
  ⟨further_calls inv.thread finished new, inv.carried⟩

/-- The thread makes the calls of the passes, each call tests what the RTSP thread has assigned,
and there are none while the video thread sleeps. -/
structure Live (opts : VideoLoop.Options) (st : Process) : Prop where
  calls : Transmitted opts.transport (addFrameCalls st.gate.loop.out.emissions) st.caller
  fits : ∀ c ∈ addFrameCalls st.gate.loop.out.emissions, c.length ≤ frameQSize
  state : st.caller.thread.sender.iRTSPState = st.gate.server.iRTSPState
  closed : st.gate.server.slp = true → st.gate.loop.out.emissions = []

theorem start_live (opts : VideoLoop.Options) (ps : List Packet) : Live opts (start ps) :=
  ⟨SendOutcomes.start_transmitted _ _ _, no_calls_fit, rfl, fun _ => rfl⟩

/-- The video thread is never woken twice. -/
theorem slp_of_step {iNumUDPPorts : Nat} {s s' : Server} {e : RtspServer.Event}
    (h : RtspServer.step iNumUDPPorts s e = some s') (slp : s'.slp = true) : s.slp = true := by
  cases stepped_of_step h with
  | cleared pc => cases slp
  | accepted | acceptFailed | received | ended | replied | started | allStarted | ready | playing
    | sendFailed => exact slp

section Run

variable {iNumUDPPorts : Nat} {opts : VideoLoop.Options} {video : Video} {ps : List Packet}

theorem step_live {st st' : Process} {e : Event} (live : Live opts st)
    (h : step iNumUDPPorts opts video st e = some st') : Live opts st' := by
  cases moved_of_step h with
  | rtsp e server caller moved assigned =>
    have thread := Option.some.inj (SendOutcomes.step_thread assigned)
    exact ⟨SendOutcomes.step_transmitted live.fits live.calls assigned, live.fits,
      (congrArg (·.sender.iRTSPState) thread).symm, fun slp => live.closed (slp_of_step moved slp)⟩
  | half outcome gate new finished passed emitted =>
    have calls : addFrameCalls gate.loop.out.emissions =
        addFrameCalls st.gate.loop.out.emissions ++ addFrameCalls new := by
      rw [emitted.added, addFrameCalls_append]
    refine ⟨?_, ?_, ?_, fun slp => ?_⟩
    · rw [calls]
      exact given_transmitted live.calls finished _
    · rw [calls]
      intro c among
      exact (List.mem_append.mp among).elim (live.fits c) (emitted.fits c)
    · rw [emitted.server]
      exact live.state
    · rw [emitted.server] at slp
      rw [emitted.added, live.closed slp, emitted.closed slp]
      rfl
  | call outcome caller busy called =>
    have state := (FlushInterleaving.video_step (SendOutcomes.step_thread called)).1
    exact ⟨SendOutcomes.step_transmitted live.fits live.calls called, live.fits,
      state.trans live.state, live.closed⟩
  | exit => exact ⟨live.calls, live.fits, live.state, live.closed⟩

theorem run_live {st st' : Process} {events : List Event} (live : Live opts st)
    (run : TraceMachine.run (step iNumUDPPorts opts video) st events = some st') :
    Live opts st' :=
  TraceMachine.invariant_of_run _ (fun _ _ _ => step_live) live run

/-- The session without its calls is a run behind the gate. -/
theorem step_remaining {st st' : Process} {e : Event}
    (h : step iNumUDPPorts opts video st e = some st') :
    remaining opts video st'.gate = remaining opts video st.gate := by
  cases moved_of_step h with
  | half outcome gate new finished passed emitted => exact videoStep_remaining passed
  | rtsp | call | exit => rfl

/-- An event in which the RTSP thread takes no request for PLAY. -/
def WithoutPlay : Event → Prop
  | .rtsp e => AsksOther (.rtsp e)
  | .video _ | .exit => True

/-- An event that leaves a playing session playing. -/
def KeepsPlaying : Event → Prop
  | .rtsp .accepted => False
  | .rtsp (.received data) => requestTypeOf (firstToken (cString data)) ≠ .setup
  | _ => True

/-- The RTSP thread is in the branch of SETUP. -/
def inSetup : Pc → Bool
  | .replying .setup | .starting _ | .assigningReady => true
  | _ => false

/-- Once `slp` is cleared, the state is PLAYING and no SETUP is under way. -/
structure Kept (s : Server) : Prop where
  setup : inSetup s.pc = true → s.slp = true
  state : s.slp = true ∨ s.iRTSPState = .playing
  clearing : s.pc = .clearingSlp → s.iRTSPState = .playing

theorem Unplayed.kept {s : Server} (unplayed : Unplayed s) : Kept s :=
  ⟨fun _ => unplayed.slp, Or.inl unplayed.slp, fun clearing => absurd clearing unplayed.clearing⟩

theorem server_kept {s s' : Server} {e : RtspServer.Event} (kept : Kept s)
    (keeps : KeepsPlaying (.rtsp e)) (h : RtspServer.step iNumUDPPorts s e = some s') :
    Kept s' := by
  obtain ⟨setup, state, clearing⟩ := kept
  cases stepped_of_step h with
  | accepted pc => exact keeps.elim
  | received data session request pc parsed =>
    refine ⟨fun inside => ?_, state, nofun⟩
    have notSetup : request ≠ .setup := parsed_type parsed ▸ keeps
    cases request with
    | setup => exact absurd rfl notSetup
    | play | pause | teardown | unrecognised => cases inside
  | replied request pc =>
    refine ⟨fun inside => ?_, state, fun clearing' => ?_⟩
    · cases request with
      | setup => exact setup (by rw [pc]; rfl)
      | play | pause | teardown | unrecognised => cases inside
    · cases request <;> cases clearing'
  | started port pc more =>
    exact ⟨fun _ => setup (by rw [pc]; rfl), state, nofun⟩
  | allStarted port pc done =>
    exact ⟨fun _ => setup (by rw [pc]; rfl), state, nofun⟩
  | ready pc => exact ⟨nofun, Or.inl (setup (by rw [pc]; rfl)), nofun⟩
  | playing pc => exact ⟨nofun, Or.inr rfl, fun _ => rfl⟩
  | cleared pc => exact ⟨nofun, Or.inr (clearing pc), nofun⟩
  | acceptFailed | ended | sendFailed => exact ⟨nofun, state, nofun⟩

/-- Every call so far has found the session playing, and the next one will. -/
structure Playing (opts : VideoLoop.Options) (st : Process) : Prop where
  live : Live opts st
  kept : Kept st.gate.server
  tests : ∀ state ∈ st.caller.thread.tests, state = .playing

/-- A call that is to be made finds the session playing. -/
theorem Playing.next {st : Process} (playing : Playing opts st) {call : List UInt8}
    {rest : List (List UInt8)} (remaining : st.caller.thread.remaining = call :: rest) :
    st.caller.thread.sender.iRTSPState = .playing := by
  rw [playing.live.state]
  refine playing.kept.state.resolve_left fun slp => ?_
  have none_left := playing.live.calls.thread.calls
  rw [playing.live.closed slp, remaining] at none_left
  cases none_left.trans List.drop_nil

theorem step_playing {st st' : Process} {e : Event} (playing : Playing opts st)
    (keeps : KeepsPlaying e) (h : step iNumUDPPorts opts video st e = some st') :
    Playing opts st' := by
  refine ⟨step_live playing.live h, ?_, ?_⟩
  · cases moved_of_step h with
    | rtsp e server caller moved assigned => exact server_kept playing.kept keeps moved
    | half outcome gate new finished passed emitted => exact emitted.server ▸ playing.kept
    | call | exit => exact playing.kept
  · cases moved_of_step h with
    | rtsp e server caller moved assigned =>
      have thread := Option.some.inj (SendOutcomes.step_thread assigned)
      rw [← thread]
      exact playing.tests
    | half | exit => exact playing.tests
    | call outcome caller busy called =>
      obtain ⟨_, ⟨_, tests⟩ | ⟨⟨call, remaining⟩, tests⟩⟩ :=
        FlushInterleaving.video_step (SendOutcomes.step_thread called)
      · exact tests ▸ playing.tests
      · rw [tests, playing.next remaining]
        intro state among
        exact (List.mem_append.mp among).elim (playing.tests state) List.mem_singleton.mp

theorem run_unplayed {st st' : Process} {events : List Event} (unplayed : Unplayed st.gate.server)
    (run : TraceMachine.run (step iNumUDPPorts opts video) st events = some st')
    (others : ∀ e ∈ events, WithoutPlay e) : Unplayed st'.gate.server := by
  refine @TraceMachine.invariant_along _ _ (step iNumUDPPorts opts video) _
    (fun s => Unplayed s.gate.server) ?_ _ _ _ unplayed
    (TraceMachine.along_of_forall _ st others) run
  intro s e s' before other h
  cases moved_of_step h with
  | rtsp e server caller moved assigned => exact server_unplayed before other moved
  | half outcome gate new finished passed emitted => exact emitted.server ▸ before
  | call | exit => exact before

/-- The calls that follow the first PLAY are all made in PLAYING. -/
theorem run_playing {before after : List Event} {st : Process}
    (run : TraceMachine.run (step iNumUDPPorts opts video) (start ps) (before ++ after) = some st)
    (unplayed : ∀ e ∈ before, WithoutPlay e) (kept : ∀ e ∈ after, KeepsPlaying e) :
    Playing opts st := by
  obtain ⟨middle, first, second⟩ := TraceMachine.run_split _ run
  have live := run_live (start_live opts ps) first
  have asleep : Unplayed (start ps).gate.server := ⟨rfl, nofun, nofun, nofun⟩
  have server := run_unplayed asleep first unplayed
  have untested : middle.caller.thread.tests = [] := by
    have made := live.calls.thread.made
    rw [live.closed server.slp] at made
    exact List.eq_nil_of_length_eq_zero (Nat.le_zero.mp made)
  have playing : Playing opts middle := by
    refine ⟨live, Unplayed.kept server, ?_⟩
    rw [untested]
    exact nofun
  exact TraceMachine.invariant_along (step iNumUDPPorts opts video)
    (fun _ _ _ => step_playing) playing (TraceMachine.along_of_forall _ middle kept) second

theorem ended_loop {events : List Event} {st : Process}
    (run : TraceMachine.run (step iNumUDPPorts opts video) (start ps) events = some st)
    (ended : st.gate.ended = true) : runVideoLoop opts video .start ps = some st.gate.loop := by
  have same : remaining opts video st.gate = remaining opts video (start ps).gate :=
    @TraceMachine.invariant_of_run _ _ (step iNumUDPPorts opts video)
      (fun s => remaining opts video s.gate = remaining opts video (start ps).gate)
      (fun _ _ _ before h => (step_remaining h).trans before) _ _ _ rfl run
  simp only [remaining, ended, if_true] at same
  exact same.symm

/-- A session that stays in PLAYING sends what the loop without a gate hands to `addFrame`. -/
theorem session_sends {before after : List Event} {st : Process}
    (run : TraceMachine.run (step iNumUDPPorts opts video) (start ps) (before ++ after) = some st)
    (unplayed : ∀ e ∈ before, WithoutPlay e) (kept : ∀ e ∈ after, KeepsPlaying e)
    (ended : st.gate.ended = true) (finished : st.caller.thread.Finished)
    (running : st.caller.exited = false) :
    runVideoLoop opts video .start ps = some st.gate.loop ∧
      List.Forall₂ (Carries opts.transport) st.caller.network
        (addFrameCalls st.gate.loop.out.emissions) := by
  have playing := run_playing run unplayed kept
  have carried := SendOutcomes.finished_network playing.live.calls running finished
  obtain ⟨_, made⟩ := threadRun_wire playing.live.calls.thread finished
  rw [(FlushInterleaving.observed_eq_self_iff made.symm).mpr playing.tests] at carried
  exact ⟨ended_loop run ended, carried⟩

/-- Whatever interleaves, if every SETUP and every client come before the first PLAY, a video
thread that has ended and made its calls has sent every frame or chunk, as far as each call has
taken it; over UDP whole. Over TCP the client writes what the calls have taken, and that is the
whole video, from the first frame that is encoded to the last one, exactly if every call has taken
its whole frame. -/
theorem uninterrupted_session {before after : List Event} {st : Process}
    (run : TraceMachine.run (step iNumUDPPorts opts video) (start ps) (before ++ after) = some st)
    (unplayed : ∀ e ∈ before, WithoutPlay e) (kept : ∀ e ∈ after, KeepsPlaying e)
    (ended : st.gate.ended = true) (finished : st.caller.thread.Finished)
    (running : st.caller.exited = false) :
    runVideoLoop opts video .start ps = some st.gate.loop ∧
    List.Forall₂ (Carries opts.transport) st.caller.network
      (addFrameCalls st.gate.loop.out.emissions) ∧
    (opts.transport = .useUDP →
      st.caller.network = addFrameCalls st.gate.loop.out.emissions) ∧
    (opts.transport = .useTCP → 0 < opts.networkport → ∀ results iPortNum r,
      Segmentation st.caller.network.flatten results →
      ∃ r' outs, receiveAll .useTCP opts.vcodec iPortNum r results = some (r', outs) ∧
        outs.flatten = st.caller.network.flatten ∧
        (outs.flatten = (encodedBytes opts video ps).flatten ↔
          st.caller.network = encodedBytes opts video ps)) := by
  obtain ⟨loop, carried⟩ := session_sends run unplayed kept ended finished running
  refine ⟨loop, carried, fun udp => ?_, fun tcp networked results iPortNum r cut => ?_⟩
  · rw [udp] at carried
    exact (SendOutcomes.carried_whole carried).1
  · have whole : ¬ Fragmented opts := by
      rintro ⟨udp, _⟩
      rw [tcp] at udp
      cases udp
    have calls := (whole_emissions loop whole).2
    rw [if_pos networked] at calls
    rw [tcp, calls] at carried
    obtain ⟨r', outs, received, written⟩ := receive_segmentation iPortNum r cut
    refine ⟨r', outs, received, written, ?_⟩
    rw [written]
    exact SendOutcomes.prefixes_flatten_iff carried

theorem processFrame_extends {n : Int} {o o' : Outputs} {p : Packet}
    (processed : processFrame opts video n o p = some o') : o.emissions <+: o'.emissions := by
  rw [processFrame_gate] at processed
  obtain ⟨o1, before, after⟩ := Option.bind_eq_some_iff.mp processed
  obtain ⟨new, added, _⟩ := afterGate_emissions after
  rw [added, (beforeGate_outputs before).1]
  exact List.prefix_append _ _

/-- The loop never takes an emission back. -/
theorem runVideoLoop_extends {l l' : Loop} (run : runVideoLoop opts video l ps = some l') :
    l.out.emissions <+: l'.out.emissions := by
  induction ps generalizing l with
  | nil =>
    obtain rfl := Option.some.inj run
    exact List.prefix_rfl
  | cons p ps ih =>
    obtain ⟨flow, passed, rest⟩ := Option.bind_eq_some_iff.mp run
    cases stopped : p.stopExecution with
    | true =>
      obtain rfl := Option.some.inj (passed.symm.trans (pass_stop stopped opts video l))
      obtain rfl := Option.some.inj rest
      exact List.prefix_rfl
    | false =>
      cases complete : p.complete video.iVideoStream with
      | false =>
        obtain ⟨frameId, skipped⟩ := pass_skip stopped complete opts l
        obtain rfl := Option.some.inj (passed.symm.trans skipped)
        exact @ih { l with frameId := frameId } rest
      | true =>
        obtain ⟨frameId, framed⟩ := pass_frame stopped complete opts l
        obtain ⟨o, processed, rfl⟩ := Option.map_eq_some_iff.mp (framed.symm.trans passed)
        have further := processFrame_extends processed
        obtain ⟨l1, out, next | left⟩ := countFrame_out opts ⟨l.iFramesDecoded, frameId, o⟩
        · rw [next] at rest
          have later := ih rest
          rw [out] at later
          exact further.trans later
        · rw [left] at rest
          obtain rfl := Option.some.inj rest
          rw [out]
          exact further

theorem remaining_extends {st : VideoGate.Process} {l : Loop}
    (rest : remaining opts video st = some l) : st.loop.out.emissions <+: l.out.emissions := by
  unfold remaining at rest
  split at rest
  · obtain rfl := Option.some.inj rest
    exact List.prefix_rfl
  · cases inside : st.inside with
    | none =>
      rw [inside] at rest
      exact runVideoLoop_extends rest
    | some p =>
      rw [inside] at rest
      obtain ⟨o, after, rest⟩ := Option.bind_eq_some_iff.mp rest
      obtain ⟨new, added, _⟩ := afterGate_emissions after
      have further : st.loop.out.emissions <+: o.emissions := added ▸ List.prefix_append _ _
      obtain ⟨l1, out, next | left⟩ := countFrame_out opts { st.loop with out := o }
      · rw [next] at rest
        have later := runVideoLoop_extends rest
        rw [out] at later
        exact further.trans later
      · rw [left] at rest
        obtain rfl := Option.some.inj rest
        rw [out]
        exact further

/-- Where the loop without a gate has a result, no half of a pass fails. -/
theorem videoStep_goes_on {st : VideoGate.Process} {l : Loop} (going : st.ended = false)
    (rest : remaining opts video st = some l) : ∃ st', videoStep opts video st = some st' := by
  cases inside : st.inside with
  | some p =>
    simp only [remaining, going, inside, Bool.false_eq_true, if_false] at rest
    obtain ⟨o, after, _⟩ := Option.bind_eq_some_iff.mp rest
    simp only [videoStep, going, inside, after, Option.bind_eq_bind, Option.bind_some,
      Bool.false_eq_true, if_false]
    split
    · exact ⟨st, rfl⟩
    · exact ⟨_, rfl⟩
  | none =>
    cases next : st.unread with
    | nil =>
      simp only [videoStep, going, inside, next]
      exact ⟨_, rfl⟩
    | cons p ps =>
      simp only [videoStep, going, inside, next, Bool.false_eq_true, if_false]
      split
      · exact ⟨_, rfl⟩
      · rename_i goes
        split
        · rename_i complete
          simp only [remaining, going, inside, next, runVideoLoop, VideoLoop.pass, goes,
            complete.1, complete.2, processFrame_gate, Option.bind_eq_bind, Bool.false_eq_true,
            if_false, if_true] at rest
          obtain ⟨flow, passed, _⟩ := Option.bind_eq_some_iff.mp rest
          obtain ⟨o', processed, _⟩ := Option.bind_eq_some_iff.mp passed
          obtain ⟨o, before, _⟩ := Option.bind_eq_some_iff.mp processed
          exact ⟨_, Option.bind_eq_some_iff.mpr ⟨o, before, rfl⟩⟩
        · exact ⟨_, rfl⟩

/-- The halves of passes to come, at most. -/
def gateLeft (st : VideoGate.Process) : Nat :=
  2 * st.unread.length + st.inside.toList.length + if st.ended then 0 else 1

/-- The half calls to come, when there are `calls` in all. -/
def callsLeft (calls : Nat) (t : VideoThread) : Nat :=
  2 * (calls - t.tests.length) + if t.sending.isSome then 1 else 0

theorem videoStep_left {st st' : VideoGate.Process} (h : videoStep opts video st = some st') :
    gateLeft st' + (if st.server.slp then 0 else 1) ≤ gateLeft st := by
  obtain ⟨going, passed⟩ := passed_of_videoStep h
  have one : (if st.server.slp then 0 else 1) ≤ 1 := by split <;> omega
  cases passed with
  | sleeps p inside waits slp => simp [slp]
  | leaves p o inside opened after =>
    obtain ⟨l', _, next | left⟩ := countFrame_out opts { st.loop with out := o }
    · simp only [next, conclude, gateLeft, going, inside, Option.toList_some, Option.toList_none,
        List.length_singleton, List.length_nil]
      omega
    · simp only [left, conclude, gateLeft, going, inside, Option.toList_some, Option.toList_none,
        List.length_singleton, List.length_nil, Bool.false_eq_true, if_false, if_true]
      omega
  | ends outside none_left =>
    simp only [gateLeft, going, Bool.false_eq_true, if_false, if_true]
    omega
  | stops p ps outside next stopped =>
    simp only [gateLeft, going, next, List.length_cons, Bool.false_eq_true, if_false, if_true]
    omega
  | enters p ps o outside next going' complete before =>
    simp only [gateLeft, going, next, outside, List.length_cons, Option.toList_some,
      Option.toList_none, List.length_nil]
    omega
  | skips p ps outside next going' incomplete =>
    simp only [gateLeft, going, next, List.length_cons]
    omega

theorem threadStep_left {tlayer : Transport} {frames : List (List UInt8)} {t t' : VideoThread}
    (inv : ThreadInv tlayer frames t) {calls : Nat} (room : frames.length ≤ calls)
    (busy : ¬ t.Finished) (called : threadStep tlayer t .video = some t') :
    callsLeft calls t' + 1 ≤ callsLeft calls t := by
  cases sending : t.sending with
  | some size =>
    simp only [threadStep, sending] at called
    obtain ⟨sent, _, same⟩ := Option.bind_eq_some_iff.mp called
    obtain rfl := Option.some.inj same
    simp [callsLeft, sending]
  | none =>
    cases remaining : t.remaining with
    | nil => exact absurd ⟨remaining, sending⟩ busy
    | cons frame rest =>
      have more : t.tests.length < frames.length := by
        have left := congrArg List.length (inv.calls.symm.trans remaining)
        rw [List.length_drop, List.length_cons] at left
        omega
      simp only [threadStep, sending, remaining] at called
      obtain ⟨⟨s, playing⟩, _, same⟩ := Option.bind_eq_some_iff.mp called
      obtain rfl := Option.some.inj same
      have last : ∀ sending : Option Nat, (if sending.isSome then 1 else 0) ≤ 1 := by
        intro sending
        split <;> omega
      have last := last (if playing then some frame.length else none)
      simp only [callsLeft, sending, List.length_append, List.length_singleton,
        Option.isSome_none, Bool.false_eq_true, if_false]
      omega

def isVideo : Event → Bool
  | .video _ => true
  | .rtsp _ | .exit => false

def stepsLeft (l : Loop) (st : Process) : Nat :=
  gateLeft st.gate + callsLeft (addFrameCalls l.out.emissions).length st.caller.thread

/-- A live process whose loop ends with `l`. -/
structure Bound (opts : VideoLoop.Options) (video : Video) (l : Loop) (st : Process) : Prop where
  live : Live opts st
  rest : remaining opts video st.gate = some l

theorem step_bound {l : Loop} {st st' : Process} {e : Event} (bound : Bound opts video l st)
    (h : step iNumUDPPorts opts video st e = some st') : Bound opts video l st' :=
  ⟨step_live bound.live h, (step_remaining h).trans bound.rest⟩

/-- A step of the video thread behind its open gate brings its end nearer. -/
theorem step_left {l : Loop} {st st' : Process} {e : Event} (bound : Bound opts video l st)
    (h : step iNumUDPPorts opts video st e = some st') :
    stepsLeft l st' + (if isVideo e && !st.gate.server.slp then 1 else 0) ≤ stepsLeft l st := by
  cases moved_of_step h with
  | rtsp e server caller moved assigned =>
    have thread := Option.some.inj (SendOutcomes.step_thread assigned)
    have same : callsLeft (addFrameCalls l.out.emissions).length caller.thread =
        callsLeft (addFrameCalls l.out.emissions).length st.caller.thread := by
      rw [← thread]
      rfl
    simp only [stepsLeft, same]
    exact Nat.le_refl _
  | half outcome gate new finished passed emitted =>
    have left := videoStep_left passed
    have same : callsLeft (addFrameCalls l.out.emissions).length
        (given st.caller (addFrameCalls new)).thread =
      callsLeft (addFrameCalls l.out.emissions).length st.caller.thread := rfl
    simp only [stepsLeft, same, isVideo, Bool.true_and]
    cases slp : st.gate.server.slp <;> simp [slp] at left ⊢ <;> omega
  | call outcome caller busy called =>
    have room : (addFrameCalls st.gate.loop.out.emissions).length ≤
        (addFrameCalls l.out.emissions).length := by
      obtain ⟨later, all⟩ := remaining_extends bound.rest
      rw [← all, addFrameCalls_append, List.length_append]
      exact Nat.le_add_right _ _
    have left := threadStep_left bound.live.calls.thread room busy (SendOutcomes.step_thread called)
    simp only [stepsLeft]
    split <;> omega
  | exit => exact Nat.le_refl _

theorem running_of_alive {st : Process} (alive : st.over = false) : st.caller.exited = false :=
  (Bool.or_eq_false_iff.mp alive).2

/-- A thread with no call to make goes on with its pass. -/
theorem half_goes_on {l : Loop} {st : Process} (bound : Bound opts video l st)
    (alive : st.over = false) (going : st.gate.ended = false)
    (finished : st.caller.thread.Finished) (outcome : Outcome) :
    ∃ st', step iNumUDPPorts opts video st (.video outcome) = some st' ∧ st'.over = false := by
  obtain ⟨gate, passed⟩ := videoStep_goes_on going bound.rest
  refine ⟨{ st with gate := gate, caller := given st.caller (callsOf st.gate gate) }, ?_, alive⟩
  simp only [step, alive, if_pos finished, passed, Bool.false_eq_true, if_false]
  rfl

/-- Every call can be sent as a whole. -/
def Sendable (opts : VideoLoop.Options) (l : Loop) : Prop :=
  opts.transport = .useUDP → ∀ c ∈ addFrameCalls l.out.emissions, c.length ≤ datagramLimit

theorem video_goes_on {l : Loop} {st : Process} (bound : Bound opts video l st)
    (sendable : Sendable opts l) (alive : st.over = false)
    (left : ¬ (st.gate.ended = true ∧ st.caller.thread.Finished)) :
    ∃ outcome st', step iNumUDPPorts opts video st (.video outcome) = some st' ∧
      st'.over = false := by
  by_cases finished : st.caller.thread.Finished
  · have going : st.gate.ended = false := by
      rw [← Bool.not_eq_true]
      exact fun ended => left ⟨ended, finished⟩
    exact ⟨.failed, half_goes_on bound alive going finished .failed⟩
  · have small : opts.transport = .useUDP →
        ∀ c ∈ addFrameCalls st.gate.loop.out.emissions, c.length ≤ datagramLimit := by
      intro udp c among
      obtain ⟨later, all⟩ := remaining_extends bound.rest
      refine sendable udp c ?_
      rw [← all, addFrameCalls_append]
      exact List.mem_append_left _ among
    obtain ⟨outcome, caller, called, running⟩ :=
      SendOutcomes.call_taken bound.live.fits bound.live.calls (running_of_alive alive) small
    have unhalted := (Bool.or_eq_false_iff.mp alive).1
    refine ⟨outcome, { st with caller := caller }, ?_, Bool.or_eq_false_iff.mpr ⟨unhalted, running⟩⟩
    simp only [step, alive, if_neg finished, called, Bool.false_eq_true, if_false]
    rfl

theorem step_opened {st st' : Process} {e : Event} (opened : st.gate.server.slp = false)
    (h : step iNumUDPPorts opts video st e = some st') : st'.gate.server.slp = false := by
  cases moved_of_step h with
  | rtsp e server caller moved assigned =>
    by_contra slp
    rw [Bool.not_eq_false] at slp
    rw [slp_of_step moved slp] at opened
    cases opened
  | half outcome gate new finished passed emitted => exact emitted.server ▸ opened
  | call | exit => exact opened

/-- The steps of the video thread alone can bring it to its end. -/
theorem video_ends {l : Loop} {st : Process} (bound : Bound opts video l st)
    (sendable : Sendable opts l) (alive : st.over = false) (opened : st.gate.server.slp = false) :
    ∃ (outcomes : List Outcome) (st' : Process), TraceMachine.run (step iNumUDPPorts opts video) st
        (outcomes.map Event.video) = some st' ∧
      st'.gate.ended = true ∧ st'.caller.thread.Finished ∧ st'.over = false := by
  induction left : stepsLeft l st using Nat.strong_induction_on generalizing st with
  | _ left ih =>
    by_cases done : st.gate.ended = true ∧ st.caller.thread.Finished
    · exact ⟨[], st, rfl, done.1, done.2, alive⟩
    · obtain ⟨outcome, next, moved, alive'⟩ :=
        @video_goes_on iNumUDPPorts _ _ l st bound sendable alive done
      have nearer := step_left bound moved
      rw [opened, Bool.not_false, Bool.and_true, isVideo, if_pos rfl] at nearer
      obtain ⟨outcomes, st', run, ended⟩ := ih (stepsLeft l next) (by omega)
        (step_bound bound moved) alive' (step_opened opened moved) rfl
      exact ⟨outcome :: outcomes, st', (TraceMachine.run_cons _).mpr ⟨next, moved, run⟩, ended⟩

theorem run_bound {l : Loop} {events : List Event} {st : Process}
    (loop : runVideoLoop opts video .start ps = some l)
    (run : TraceMachine.run (step iNumUDPPorts opts video) (start ps) events = some st) :
    Bound opts video l st :=
  TraceMachine.invariant_of_run (step iNumUDPPorts opts video) (fun _ _ _ => step_bound)
    ⟨start_live opts ps, loop⟩ run

end Run

private def cameraFrame : Packet :=
  ⟨false, 0, true, ⟨8, #v[4, 6, 8, 0, 0, 1, 3, 5], 5⟩, Vector.replicate 32 ' ',
    .frame ⟨[31, 32, 33], by decide, by decide⟩, 40⟩

private def liveCamera : VideoLoop.Options := ⟨6000, .useTCP, .useH264, false, 0, 0⟩

def asks (request : String) : Event :=
  .rtsp (.received (prepareRTSPRequest ⟨6005, 0, 0⟩ request.toList).2)

/-- A step of the video thread that sends nothing. -/
def quietly : Event := .video .failed

/-- The first frame waits, while a client connects and sets up one port. -/
def settingUp : List Event :=
  [quietly, quietly, .rtsp .accepted, asks "SETUP", .rtsp .act, .rtsp .act, .rtsp .act, .rtsp .act]

def wakes : List Event := [asks "PLAY", .rtsp .act, .rtsp .act, .rtsp .act]

theorem settingUp_others : ∀ e ∈ settingUp, WithoutPlay e := by
  have setup : WithoutPlay (asks "SETUP") := by
    unfold asks WithoutPlay AsksOther
    decide
  simp only [settingUp, List.forall_mem_cons, List.not_mem_nil, false_imp_iff, implies_true,
    and_true]
  exact ⟨trivial, trivial, trivial, setup, trivial, trivial, trivial, trivial⟩

theorem wakes_keep : ∀ e ∈ wakes, KeepsPlaying e := by
  have play : KeepsPlaying (asks "PLAY") := by
    unfold asks KeepsPlaying
    decide
  simp only [wakes, List.forall_mem_cons, List.not_mem_nil, false_imp_iff, implies_true, and_true]
  exact ⟨play, trivial, trivial, trivial⟩

/-- The client ends its session while the frame is sent, and the call takes so many bytes. -/
private def leaving (bytes : Nat) : List Event :=
  [quietly, quietly, .rtsp .ended, .video (.taken bytes), quietly]

private theorem leaving_keeps (bytes : Nat) : ∀ e ∈ leaving bytes, KeepsPlaying e := by
  simp [leaving, quietly, KeepsPlaying]

/-- A call that takes two bytes of three. -/
theorem one_frame_session : ∃ st,
    TraceMachine.run (step 1 liveCamera ⟨0, 2, 1⟩) (start [cameraFrame])
      (settingUp ++ (wakes ++ leaving 2)) = some st ∧
    ∃ r' outs, receiveAll .useTCP .useH264 0 .cleared [.data [31], .error, .data [32]] =
      some (r', outs) ∧ outs.flatten = [31, 32] := by
  obtain ⟨st, run, ended, finished, running, network⟩ : ∃ st,
      TraceMachine.run (step 1 liveCamera ⟨0, 2, 1⟩) (start [cameraFrame])
        (settingUp ++ (wakes ++ leaving 2)) = some st ∧ st.gate.ended = true ∧
      st.caller.thread.Finished ∧ st.caller.exited = false ∧ st.caller.network = [[31, 32]] :=
    ⟨_, rfl, rfl, ⟨rfl, rfl⟩, rfl, rfl⟩
  have cut : Segmentation st.caller.network.flatten [.data [31], .error, .data [32]] := by
    rw [network]
    exact ⟨by decide, rfl⟩
  have keeps := List.forall_mem_append.mpr ⟨wakes_keep, leaving_keeps 2⟩
  obtain ⟨_, _, _, received⟩ :=
    uninterrupted_session run settingUp_others keeps ended finished running
  obtain ⟨r', outs, ran, written, _⟩ := received rfl (by decide) _ 0 .cleared cut
  rw [network] at written
  exact ⟨st, run, r', outs, ran, written⟩

end LiveSession
