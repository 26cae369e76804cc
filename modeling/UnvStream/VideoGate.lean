import UnvStream.VideoLoop
import UnvStream.ParserSafety
import UnvStream.RtspServer

/-!
# The video loop behind its gate

In the middle of a pass, when the picture of a frame is saved and its delay counted, the video
thread sleeps until the RTSP thread has cleared `slp`, which it does with the first PLAY. Here the
passes are cut at this place and run between the steps of the RTSP thread.
-/

namespace VideoGate

open FragmentLoop VideoLoop NumberTable Vocabulary RtspMessages RtspServer ParserSafety

/-- The statements of a pass before `while(slp)`. -/
def beforeGate (opts : VideoLoop.Options) (video : Video) (iFramesDecoded : Int) (o : Outputs)
    (p : Packet) : Option Outputs := do
  let o ← savePicture opts video iFramesDecoded o p
  match p.encoded with
  | .frame _ =>
    if 0 < opts.networkport then
      let (delays, average) := AverageDelay.addDelay o.delays p.dt
      return { o with delays := delays, averages := o.averages ++ [average] }
    else return o
  | _ => return o

/-- The way of the bytes to `addFrame` or to `pOutputVideo`. -/
def emit (opts : VideoLoop.Options) (o : Outputs) (packet : List UInt8) : Option Outputs :=
  if 0 < opts.networkport then do
    let (vid, emissions) ← videoPass opts.cliOpts o.vid packet
    return { o with vid := vid, emissions := o.emissions ++ emissions }
  else some o

/-- The statements of a pass behind it, up to the count. -/
def afterGate (opts : VideoLoop.Options) (iFramesDecoded : Int) (o : Outputs) (p : Packet) :
    Option Outputs :=
  match p.encoded with
  | .frame frame => do
    let o ← emit opts o frame.bytes
    return { o with
      test := if opts.savevideo then o.test ++ frame.bytes else o.test
      statistics := o.statistics ++ printRow [] [iFramesDecoded, frame.bytes.length] }
  | _ => some o

/-- Whether a pass comes to the gate. -/
def atGate (opts : VideoLoop.Options) (p : Packet) : Bool :=
  0 < opts.networkport && p.encoded.frame?.isSome

/-- The RTSP thread and the video thread, which is between two passes or inside the pass of a
frame. -/
structure Process where
  server : Server
  loop : Loop
  unread : List Packet
  inside : Option Packet
  ended : Bool

inductive Event where
  | rtsp (e : RtspServer.Event)
  | video

def conclude (st : Process) : Flow → Process
  | .next l => { st with loop := l, inside := none }
  | .left l => { st with loop := l, inside := none, ended := true }

/-- The next half of a pass; at the gate the thread only sleeps. -/
def videoStep (opts : VideoLoop.Options) (video : Video) (st : Process) : Option Process :=
  if st.ended then none
  else
    match st.inside with
    | some p =>
      if atGate opts p && st.server.slp then some st
      else do
        let o ← afterGate opts st.loop.iFramesDecoded st.loop.out p
        return conclude st (countFrame opts { st.loop with out := o })
    | none =>
      match st.unread with
      | [] => some { st with ended := true }
      | p :: ps =>
        if p.stopExecution then some { st with unread := ps, ended := true }
        else
          let (l, streamIndex) := dropFrame opts st.loop p
          if streamIndex = video.iVideoStream ∧ p.iFrameFinished then do
            let o ← beforeGate opts video l.iFramesDecoded l.out p
            return { st with loop := { l with out := o }, unread := ps, inside := some p }
          else some { st with loop := l, unread := ps }

def step (iNumUDPPorts : Nat) (opts : VideoLoop.Options) (video : Video) (st : Process) :
    Event → Option Process
  | .rtsp e => (RtspServer.step iNumUDPPorts st.server e).map fun server =>
    { st with server := server }
  | .video => videoStep opts video st

def start (ps : List Packet) : Process := ⟨RtspServer.start, .start, ps, none, false⟩

/-- What the loop without a gate makes of the rest of the packets. -/
def remaining (opts : VideoLoop.Options) (video : Video) (st : Process) : Option Loop :=
  if st.ended then some st.loop
  else
    match st.inside with
    | some p => (afterGate opts st.loop.iFramesDecoded st.loop.out p).bind fun o =>
      match countFrame opts { st.loop with out := o } with
      | .next l => runVideoLoop opts video l st.unread
      | .left l => some l
    | none => runVideoLoop opts video st.loop st.unread

/-- All that a half of a pass can do, with what it finds. -/
inductive Passed (opts : VideoLoop.Options) (video : Video) (st : Process) : Process → Prop where
  | sleeps (p : Packet) (inside : st.inside = some p) (waits : atGate opts p = true)
      (slp : st.server.slp = true) : Passed opts video st st
  | leaves (p : Packet) (o : Outputs) (inside : st.inside = some p)
      (opened : atGate opts p = true → st.server.slp = false)
      (after : afterGate opts st.loop.iFramesDecoded st.loop.out p = some o) :
      Passed opts video st (conclude st (countFrame opts { st.loop with out := o }))
  | ends (outside : st.inside = none) (none_left : st.unread = []) :
      Passed opts video st { st with ended := true }
  | stops (p : Packet) (ps : List Packet) (outside : st.inside = none)
      (next : st.unread = p :: ps) (stopped : p.stopExecution = true) :
      Passed opts video st { st with unread := ps, ended := true }
  | enters (p : Packet) (ps : List Packet) (o : Outputs) (outside : st.inside = none)
      (next : st.unread = p :: ps) (going : p.stopExecution = false)
      (complete : (dropFrame opts st.loop p).2 = video.iVideoStream ∧ p.iFrameFinished = true)
      (before : beforeGate opts video (dropFrame opts st.loop p).1.iFramesDecoded
        (dropFrame opts st.loop p).1.out p = some o) :
      Passed opts video st { st with
        loop := { (dropFrame opts st.loop p).1 with out := o }, unread := ps, inside := some p }
  | skips (p : Packet) (ps : List Packet) (outside : st.inside = none)
      (next : st.unread = p :: ps) (going : p.stopExecution = false)
      (incomplete : ¬ ((dropFrame opts st.loop p).2 = video.iVideoStream ∧
        p.iFrameFinished = true)) :
      Passed opts video st { st with loop := (dropFrame opts st.loop p).1, unread := ps }

theorem passed_of_videoStep {opts : VideoLoop.Options} {video : Video} {st st' : Process}
    (h : videoStep opts video st = some st') : st.ended = false ∧ Passed opts video st st' := by
  obtain ⟨server, loop, unread, inside, ended⟩ := st
  cases ended with
  | true => cases h
  | false =>
    refine ⟨rfl, ?_⟩
    cases inside with
    | some p =>
      simp only [videoStep, Bool.false_eq_true, if_false] at h
      split at h
      · rename_i waits
        obtain rfl := Option.some.inj h
        obtain ⟨gate, slp⟩ := Bool.and_eq_true_iff.mp waits
        exact .sleeps p rfl gate slp
      · rename_i passes
        obtain ⟨o, after, same⟩ := Option.bind_eq_some_iff.mp h
        obtain rfl := Option.some.inj same
        refine .leaves p o rfl (fun gate => ?_) after
        simpa [gate] using passes
    | none =>
      cases unread with
      | nil =>
        obtain rfl := Option.some.inj h
        exact .ends rfl rfl
      | cons p ps =>
        simp only [videoStep, Bool.false_eq_true, if_false] at h
        split at h
        · rename_i stopped
          obtain rfl := Option.some.inj h
          exact .stops p ps rfl rfl stopped
        · rename_i going
          rw [Bool.not_eq_true] at going
          split at h
          · rename_i complete
            obtain ⟨o, before, same⟩ := Option.bind_eq_some_iff.mp h
            obtain rfl := Option.some.inj same
            exact .enters p ps o rfl rfl going complete before
          · rename_i incomplete
            obtain rfl := Option.some.inj h
            exact .skips p ps rfl rfl going incomplete

theorem processFrame_gate (opts : VideoLoop.Options) (video : Video) (iFramesDecoded : Int)
    (o : Outputs) (p : Packet) : processFrame opts video iFramesDecoded o p =
      (beforeGate opts video iFramesDecoded o p).bind fun o =>
        afterGate opts iFramesDecoded o p := by
  simp only [processFrame, beforeGate, afterGate, encodeFrame, network, emit, Option.bind_eq_bind,
    Option.pure_def]
  cases savePicture opts video iFramesDecoded o p with
  | none => rfl
  | some o =>
    cases p.encoded with
    | fault code => rfl
    | buffered => rfl
    | frame frame =>
      by_cases networked : 0 < opts.networkport
      · simp only [if_pos networked, Option.bind_some]
      · simp only [if_neg networked, Option.bind_some]

/-- A half of a pass leaves the rest of the loop to be done. -/
theorem videoStep_remaining {opts : VideoLoop.Options} {video : Video} {st st' : Process}
    (h : videoStep opts video st = some st') : remaining opts video st' = remaining opts video st := by
  obtain ⟨going, passed⟩ := passed_of_videoStep h
  cases passed with
  | sleeps p inside waits slp => rfl
  | leaves p o inside opened after =>
    simp only [remaining, going, inside, after, Option.bind_some]
    cases countFrame opts { st.loop with out := o } <;> simp [conclude, going]
  | ends outside none_left =>
    simp only [remaining, going, outside, none_left]
    rfl
  | stops p ps outside next stopped =>
    simp only [remaining, going, outside, next, runVideoLoop, pass_stop stopped,
      Option.bind_eq_bind, Option.bind_some]
    rfl
  | enters p ps o outside next going' complete before =>
    simp only [remaining, going, outside, next, runVideoLoop, VideoLoop.pass, going',
      complete.1, complete.2, processFrame_gate, before, Option.bind_eq_bind, Option.bind_some,
      Bool.false_eq_true, if_false, if_true]
    cases afterGate opts (dropFrame opts st.loop p).1.iFramesDecoded o p <;> rfl
  | skips p ps outside next going' incomplete =>
    have skipped : VideoLoop.pass opts video st.loop p =
        some (.next (dropFrame opts st.loop p).1) := by
      simp only [VideoLoop.pass, going', Bool.false_eq_true, if_false]
      split
      · rename_i onVideo
        rw [if_neg fun finished => incomplete ⟨onVideo, finished⟩]
      · rfl
    simp only [remaining, going, outside, next, runVideoLoop, skipped, Option.bind_eq_bind,
      Option.bind_some, Bool.false_eq_true, if_false]

theorem run_remaining {iNumUDPPorts : Nat} {opts : VideoLoop.Options} {video : Video}
    {st st' : Process} {events : List Event}
    (run : TraceMachine.run (step iNumUDPPorts opts video) st events = some st') :
    remaining opts video st' = remaining opts video st := by
  induction events generalizing st with
  | nil =>
    cases run
    rfl
  | cons e events ih =>
    obtain ⟨next, stepped, rest⟩ := (TraceMachine.run_cons _).mp run
    rw [ih rest]
    cases e with
    | video => exact videoStep_remaining stepped
    | rtsp e =>
      obtain ⟨server, _, rfl⟩ := Option.map_eq_some_iff.mp stepped
      rfl

/-- Whenever PLAY comes, the video thread ends with the results of the loop without a gate. -/
theorem gate_transparent {iNumUDPPorts : Nat} {opts : VideoLoop.Options} {video : Video}
    {ps : List Packet} {events : List Event} {st : Process}
    (run : TraceMachine.run (step iNumUDPPorts opts video) (start ps) events = some st)
    (ended : st.ended = true) : runVideoLoop opts video .start ps = some st.loop := by
  have same := run_remaining run
  simp only [remaining, ended, if_true] at same
  exact same.symm

/-- A request that the RTSP thread does not take for PLAY. -/
def AsksOther : Event → Prop
  | .rtsp (.received data) => requestTypeOf (firstToken (cString data)) ≠ .play
  | _ => True

/-- The RTSP thread has not come to PLAY. -/
structure Unplayed (s : Server) : Prop where
  slp : s.slp = true
  request : s.pc ≠ .replying .play
  playing : s.pc ≠ .assigningPlaying
  clearing : s.pc ≠ .clearingSlp

theorem parsed_type {s s' : ServerSession} {text : List Char} {request : RequestType}
    (parsed : parseRTSPRequest s text = some (s', request)) :
    request = requestTypeOf (firstToken text) := by
  by_cases blank : firstLine text = []
  · rw [parseRTSPRequest_blank s blank] at parsed
    cases parsed
  · rw [parseRTSPRequest_line s blank] at parsed
    split at parsed
    · rename_i unrecognised
      obtain ⟨_, rfl⟩ := Prod.mk.inj (Option.some.inj parsed)
      exact unrecognised.symm
    · obtain ⟨_, _, parsed⟩ := Option.bind_eq_some_iff.mp parsed
      obtain ⟨_, _, parsed⟩ := Option.bind_eq_some_iff.mp parsed
      obtain ⟨_, _, parsed⟩ := Option.bind_eq_some_iff.mp parsed
      exact (Prod.mk.inj (Option.some.inj parsed)).2.symm

theorem server_unplayed {iNumUDPPorts : Nat} {s s' : Server} {e : RtspServer.Event}
    (inv : Unplayed s) (other : AsksOther (.rtsp e))
    (h : RtspServer.step iNumUDPPorts s e = some s') : Unplayed s' := by
  obtain ⟨slp, request, playing, clearing⟩ := inv
  cases stepped_of_step h with
  | received data session asked pc parsed =>
    refine ⟨slp, fun replying => ?_, nofun, nofun⟩
    cases replying
    exact other (parsed_type parsed).symm
  | replied asked pc =>
    have notPlay : asked ≠ .play := fun play => request (pc.trans (by rw [play]))
    refine ⟨slp, ?_, ?_, ?_⟩ <;> cases asked <;> simp_all [afterReply]
  | playing pc => exact absurd pc playing
  | cleared pc => exact absurd pc clearing
  | accepted | acceptFailed | ended | started | allStarted | ready | sendFailed =>
    exact ⟨slp, nofun, nofun, nofun⟩

/-- The complete frames of packets before a stop. -/
def frames (video : Video) (ps : List Packet) : List Packet :=
  ps.filter fun p => !p.stopExecution && p.complete video.iVideoStream

/-- The frame with bytes that a thread inside a pass holds. -/
def held (st : Process) : List EncodedFrame := encodedFrames st.inside.toList

/-- What the video thread has done before the first PLAY. -/
structure Quiet (video : Video) (ps : List Packet) (st : Process) : Prop where
  server : Unplayed st.server
  emissions : st.loop.out.emissions = []
  test : st.loop.out.test = []
  statistics : st.loop.out.statistics = []
  delays : st.loop.out.averages.length = (held st).length
  read : ∃ read, ps = read ++ st.unread ∧ encodedFrames (frames video read) = held st ∧
    encodedFrames (frames video read.dropLast) = []

theorem savePicture_kept {opts : VideoLoop.Options} {video : Video} {n : Int} {o o' : Outputs}
    {p : Packet} (saved : savePicture opts video n o p = some o') :
    ∃ files, o' = { o with files := files } := by
  unfold savePicture at saved
  split at saved
  · obtain ⟨file, _, same⟩ := Option.bind_eq_some_iff.mp saved
    exact ⟨o.files ++ [file], (Option.some.inj same).symm⟩
  · exact ⟨o.files, (Option.some.inj saved).symm⟩

theorem beforeGate_outputs {opts : VideoLoop.Options} {video : Video} {n : Int} {o o' : Outputs}
    {p : Packet} (before : beforeGate opts video n o p = some o') :
    o'.emissions = o.emissions ∧ o'.test = o.test ∧ o'.statistics = o.statistics ∧
      (0 < opts.networkport →
        o'.averages.length = o.averages.length + (encodedFrames [p]).length) := by
  obtain ⟨_, saved, rest⟩ := Option.bind_eq_some_iff.mp before
  obtain ⟨files, rfl⟩ := savePicture_kept saved
  cases encoded : p.encoded with
  | frame frame =>
    simp only [encoded] at rest
    split at rest
    · obtain rfl := Option.some.inj rest
      refine ⟨rfl, rfl, rfl, fun _ => ?_⟩
      simp [encodedFrames, encoded, Encoded.frame?]
    · rename_i unnetworked
      obtain rfl := Option.some.inj rest
      exact ⟨rfl, rfl, rfl, fun networked => absurd networked unnetworked⟩
  | buffered | fault =>
    simp only [encoded] at rest
    obtain rfl := Option.some.inj rest
    refine ⟨rfl, rfl, rfl, fun _ => ?_⟩
    simp [encodedFrames, encoded, Encoded.frame?]

theorem frames_append (video : Video) (read : List Packet) (p : Packet) :
    encodedFrames (frames video (read ++ [p])) =
      encodedFrames (frames video read) ++ encodedFrames (frames video [p]) := by
  rw [frames, List.filter_append, encodedFrames, List.filterMap_append]
  rfl

/-- A packet of which no frame is made is only read. -/
theorem Quiet.skipped {video : Video} {ps unread : List Packet} {st : Process} {p : Packet}
    (quiet : Quiet video ps st) (outside : st.inside = none) (next : st.unread = p :: unread)
    (none_made : frames video [p] = []) (l : Loop) (out : l.out = st.loop.out) (ended : Bool) :
    Quiet video ps { st with loop := l, unread := unread, ended := ended } := by
  obtain ⟨read, rfl, made, _⟩ := quiet.read
  refine ⟨quiet.server, ?_, ?_, ?_, ?_, read ++ [p], ?_, ?_, ?_⟩
  · exact (congrArg Outputs.emissions out).trans quiet.emissions
  · exact (congrArg Outputs.test out).trans quiet.test
  · exact (congrArg Outputs.statistics out).trans quiet.statistics
  · exact (congrArg (fun o => o.averages.length) out).trans quiet.delays
  · rw [next, List.append_assoc]
    rfl
  · rw [frames_append, none_made, made]
    exact List.append_nil _
  · rw [List.dropLast_concat, made, held, outside]
    rfl

/-- The frame of a packet is made up to the gate. -/
theorem Quiet.taken {opts : VideoLoop.Options} {video : Video} {ps unread : List Packet}
    {st : Process} {p : Packet} (networked : 0 < opts.networkport) (quiet : Quiet video ps st)
    (outside : st.inside = none) (next : st.unread = p :: unread)
    (made : frames video [p] = [p]) {n : Int} {o : Outputs}
    (before : beforeGate opts video n st.loop.out p = some o) (l : Loop) :
    Quiet video ps { st with loop := { l with out := o }, unread := unread, inside := some p } := by
  obtain ⟨read, rfl, earlier, _⟩ := quiet.read
  obtain ⟨emissions, test, statistics, averages⟩ := beforeGate_outputs before
  have empty : held st = [] := by rw [held, outside]; rfl
  refine ⟨quiet.server, emissions.trans quiet.emissions, test.trans quiet.test,
    statistics.trans quiet.statistics, ?_, read ++ [p], ?_, ?_, ?_⟩
  · rw [averages networked, quiet.delays, empty]
    exact Nat.zero_add _
  · rw [next, List.append_assoc]
    rfl
  · rw [frames_append, earlier, empty, made]
    rfl
  · rw [List.dropLast_concat, earlier, empty]

theorem countFrame_out (opts : VideoLoop.Options) (l : Loop) :
    ∃ l', l'.out = l.out ∧ (countFrame opts l = .next l' ∨ countFrame opts l = .left l') := by
  unfold countFrame
  split
  · exact ⟨l, rfl, Or.inr rfl⟩
  · exact ⟨{ l with iFramesDecoded := l.iFramesDecoded + 1 }, rfl, Or.inl rfl⟩

/-- A pass without bytes ends without an output. -/
theorem Quiet.concluded {opts : VideoLoop.Options} {video : Video} {ps : List Packet}
    {st : Process} {p : Packet} (quiet : Quiet video ps st) (inside : st.inside = some p)
    (silent : p.encoded.frame? = none) :
    Quiet video ps (conclude st (countFrame opts st.loop)) := by
  have empty : held st = [] := by
    rw [held, inside]
    simp [encodedFrames, silent]
  obtain ⟨read, rfl, made, before⟩ := quiet.read
  have delays := quiet.delays
  rw [empty] at made delays
  obtain ⟨l', out, next | left⟩ := countFrame_out opts st.loop
  all_goals
    simp only [conclude, *]
    refine ⟨quiet.server, ?_, ?_, ?_, ?_, read, rfl, made, before⟩
    · exact (congrArg Outputs.emissions out).trans quiet.emissions
    · exact (congrArg Outputs.test out).trans quiet.test
    · exact (congrArg Outputs.statistics out).trans quiet.statistics
    · exact (congrArg (fun o => o.averages.length) out).trans delays

/-- While PLAY has not come, the video thread stays quiet. -/
theorem videoStep_quiet {opts : VideoLoop.Options} {video : Video} {ps : List Packet}
    {st st' : Process} (networked : 0 < opts.networkport) (quiet : Quiet video ps st)
    (h : videoStep opts video st = some st') : Quiet video ps st' := by
  obtain ⟨_, passed⟩ := passed_of_videoStep h
  cases passed with
  | sleeps p inside waits slp => exact quiet
  | leaves p o inside opened after =>
    have silent : p.encoded.frame? = none := by
      by_contra bytes
      have gate : atGate opts p = true := by
        simpa [atGate, networked] using Option.ne_none_iff_isSome.mp bytes
      rw [quiet.server.slp] at opened
      exact Bool.noConfusion (opened gate)
    have nothing : afterGate opts st.loop.iFramesDecoded st.loop.out p = some st.loop.out := by
      cases encoded : p.encoded with
      | frame frame =>
        rw [encoded] at silent
        cases silent
      | buffered | fault => simp only [afterGate, encoded]
    obtain rfl := Option.some.inj (after.symm.trans nothing)
    exact quiet.concluded inside silent
  | ends outside none_left =>
    exact ⟨quiet.server, quiet.emissions, quiet.test, quiet.statistics, quiet.delays, quiet.read⟩
  | stops p rest outside next stopped =>
    exact quiet.skipped outside next (by simp [frames, stopped]) st.loop rfl true
  | enters p rest o outside next going complete before =>
    obtain ⟨frameId, dropped⟩ := dropFrame_spec opts st.loop p
    rw [dropped] at complete before ⊢
    have onVideo : p.streamIndex = video.iVideoStream := complete.1
    have made : frames video [p] = [p] := by
      simp [frames, going, Packet.complete, onVideo, complete.2]
    exact quiet.taken networked outside next made before { st.loop with frameId := frameId }
  | skips p rest outside next going incomplete =>
    obtain ⟨frameId, dropped⟩ := dropFrame_spec opts st.loop p
    rw [dropped] at incomplete ⊢
    have none_made : frames video [p] = [] := by
      simpa [frames, going, Packet.complete] using incomplete
    exact quiet.skipped outside next none_made { st.loop with frameId := frameId } rfl st.ended

theorem start_quiet (video : Video) (ps : List Packet) : Quiet video ps (start ps) :=
  ⟨⟨rfl, nofun, nofun, nofun⟩, rfl, rfl, rfl, rfl, [], rfl, rfl, rfl⟩

theorem step_quiet {iNumUDPPorts : Nat} {opts : VideoLoop.Options} {video : Video}
    {ps : List Packet} {st st' : Process} {e : Event} (networked : 0 < opts.networkport)
    (quiet : Quiet video ps st) (other : AsksOther e)
    (stepped : step iNumUDPPorts opts video st e = some st') : Quiet video ps st' := by
  cases e with
  | video => exact videoStep_quiet networked quiet stepped
  | rtsp e =>
    obtain ⟨server, moved, rfl⟩ := Option.map_eq_some_iff.mp stepped
    exact ⟨server_unplayed quiet.server other moved, quiet.emissions, quiet.test,
      quiet.statistics, quiet.delays, quiet.read⟩

theorem run_quiet {iNumUDPPorts : Nat} {opts : VideoLoop.Options} {video : Video}
    {ps : List Packet} {st st' : Process} {events : List Event} (networked : 0 < opts.networkport)
    (quiet : Quiet video ps st)
    (run : TraceMachine.run (step iNumUDPPorts opts video) st events = some st')
    (others : ∀ e ∈ events, AsksOther e) : Quiet video ps st' :=
  TraceMachine.invariant_along (step iNumUDPPorts opts video)
    (fun _ _ _ => step_quiet networked) quiet (TraceMachine.along_of_forall _ st others) run

/-- Until the server takes a request for PLAY, nothing goes to the network or the output file, to
test.264 or into the statistics, and the video thread reads no further than the first frame with
bytes: only the last packet it has read can hold one, whose delay is the only one it counts. -/
theorem nothing_before_play {iNumUDPPorts : Nat} {opts : VideoLoop.Options} {video : Video}
    {ps : List Packet} {st : Process} {events : List Event} (networked : 0 < opts.networkport)
    (run : TraceMachine.run (step iNumUDPPorts opts video) (start ps) events = some st)
    (others : ∀ e ∈ events, AsksOther e) :
    st.loop.out.emissions = [] ∧ st.loop.out.test = [] ∧ st.loop.out.statistics = [] ∧
      ∃ read, ps = read ++ st.unread ∧ encodedFrames (frames video read.dropLast) = [] ∧
        (encodedFrames (frames video read)).length ≤ 1 ∧
        st.loop.out.averages.length = (encodedFrames (frames video read)).length := by
  have quiet := run_quiet networked (start_quiet video ps) run others
  obtain ⟨read, parts, made, before⟩ := quiet.read
  refine ⟨quiet.emissions, quiet.test, quiet.statistics, read, parts, before, ?_, ?_⟩
  · rw [made, held]
    cases st.inside with
    | none => exact Nat.zero_le 1
    | some p => exact List.length_filterMap_le _ [p]
  · rw [made]
    exact quiet.delays

private def firstFrame : Packet :=
  ⟨false, 0, true, ⟨8, #v[6, 5, 4, 0, 0, 3, 2, 1], 5⟩, Vector.replicate 32 ' ',
    .frame ⟨[21, 22, 23], by decide, by decide⟩, 40⟩

private def tcpCamera : VideoLoop.Options := ⟨5000, .useTCP, .useH264, false, 0, 0⟩

/-- PLAY comes while the video thread sleeps. -/
private def wokenByPlay : List Event :=
  [.video, .video, .rtsp .accepted,
    .rtsp (.received (prepareRTSPRequest ⟨5005, 0, 0⟩ "PLAY".toList).2),
    .rtsp .act, .rtsp .act, .rtsp .act, .video, .video]

theorem woken_loop_ends : ∃ st,
    TraceMachine.run (step 1 tcpCamera ⟨0, 2, 1⟩) (start [firstFrame]) wokenByPlay = some st ∧
      runVideoLoop tcpCamera ⟨0, 2, 1⟩ .start [firstFrame] = some st.loop := by
  obtain ⟨st, run, ended⟩ : ∃ st,
      TraceMachine.run (step 1 tcpCamera ⟨0, 2, 1⟩) (start [firstFrame]) wokenByPlay = some st ∧
        st.ended = true := ⟨_, rfl, rfl⟩
  exact ⟨st, run, gate_transparent run ended⟩

/-- The first frame waits. -/
theorem first_frame_waits : ∃ st,
    TraceMachine.run (step 1 tcpCamera ⟨0, 2, 1⟩) (start [firstFrame, firstFrame])
        [.video, .video, .rtsp .accepted, .video] = some st ∧
      st.unread = [firstFrame] ∧ st.loop.out.emissions = [] := by
  obtain ⟨st, run, unread⟩ : ∃ st,
      TraceMachine.run (step 1 tcpCamera ⟨0, 2, 1⟩) (start [firstFrame, firstFrame])
          [.video, .video, .rtsp .accepted, .video] = some st ∧ st.unread = [firstFrame] :=
    ⟨_, rfl, rfl⟩
  have others : ∀ e ∈ [Event.video, .video, .rtsp .accepted, .video], AsksOther e := by
    simp [AsksOther]
  exact ⟨st, run, unread, (nothing_before_play (by decide) run others).1⟩

end VideoGate
