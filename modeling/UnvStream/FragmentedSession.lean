import UnvStream.LiveSession

/-!
# A session over UDP with MJPEG

The frames of a session are collected and cut into chunks. When none of its datagrams is lost, the
client writes all of the video but what waits for a flush when the loop ends.
-/

namespace FragmentedSession

open FragmentLoop FragmentedDelivery VideoLoop VideoOutputs FrameSender ClientReceiver
open AccumulatorBounds Vocabulary LiveSession
open SendOutcomes (Outcome datagramLimit)

/-- The client's part of the chunks of a pass: a flush is written whole. -/
theorem pass_written {vid' : VideoBuffer} {r : Receiver} {bytes : List UInt8}
    {emissions : List Emission} (empty : Collects r []) (passed : Passed bytes vid' emissions) :
    ∃ r' outs waiting, receiveAll .useUDP .useMJPEG 0 r ((addFrameCalls emissions).map .data) =
        some (r', outs) ∧
      bytes = outs.flatten ++ waiting ∧ Waits vid' waiting ∧ Collects r' [] := by
  cases passed with
  | keeps waits => exact ⟨r, [], bytes, rfl, rfl, waits, empty⟩
  | flushes fits remainder waits =>
    obtain ⟨r', outs, received, written, client⟩ := receive_flush empty _ fits remainder
    rw [addFrameCalls_map]
    exact ⟨r', outs, [], received, by rw [written, List.append_nil], waits, client⟩

/-- What goes into the loop has come out at the client or waits. -/
theorem run_written {vid vid' : VideoBuffer} {r : Receiver} {waiting : List UInt8}
    (waits : Waits vid waiting) (empty : Collects r []) (frames : List EncodedFrame)
    {emissions : List Emission} (remainders : LeavesRemainders vid.pOutBufferVidSize frames)
    (run : videoRun ⟨.useUDP, .useMJPEG, false⟩ vid frames = some (vid', emissions)) :
    ∃ r' outs waiting', receiveAll .useUDP .useMJPEG 0 r ((addFrameCalls emissions).map .data) =
        some (r', outs) ∧
      waiting ++ (frames.map EncodedFrame.bytes).flatten = outs.flatten ++ waiting' ∧
      Waits vid' waiting' := by
  induction frames generalizing vid r waiting emissions with
  | nil =>
    obtain ⟨rfl, rfl⟩ := Prod.mk.inj (Option.some.inj run)
    exact ⟨r, [], waiting, rfl, List.append_nil _, waits⟩
  | cons frame frames ih =>
    obtain ⟨⟨vid1, first⟩, pass, rest⟩ := Option.bind_eq_some_iff.mp run
    obtain ⟨⟨vid2, later⟩, run', same⟩ := Option.bind_eq_some_iff.mp rest
    obtain ⟨rfl, rfl⟩ := Prod.mk.inj (Option.some.inj same)
    rw [videoPass_udp_mjpeg] at pass
    obtain ⟨passed, size⟩ := pass_waits waits frame remainders.1 pass
    obtain ⟨r1, outs1, waiting1, received1, parts1, waits1, empty1⟩ := pass_written empty passed
    obtain ⟨r2, outs2, waiting2, received2, parts2, waits2⟩ :=
      ih waits1 empty1 (size ▸ remainders.2) run'
    refine ⟨r2, outs1 ++ outs2, waiting2, ?_, ?_, waits2⟩
    · rw [addFrameCalls_append, List.map_append]
      exact receiveAll_append received1 received2
    · rw [List.map_cons, List.flatten_cons, ← List.append_assoc, parts1, List.append_assoc, parts2,
        List.flatten_append, List.append_assoc]

/-- Whatever interleaves, if every SETUP and every client come before the first PLAY and no flush
is an exact multiple of the chunk size, a client that gets the datagrams writes the whole video
but the fewer than `MIN_FLUSH_BUFF_SIZE` bytes that wait for a flush when the loop ends. -/
theorem fragmented_session {iNumUDPPorts : Nat} {opts : VideoLoop.Options} {video : Video}
    {ps : List Packet} {before after : List Event} {st : Process}
    (run : TraceMachine.run (step iNumUDPPorts opts video) (start ps) (before ++ after) = some st)
    (unplayed : ∀ e ∈ before, WithoutPlay e) (kept : ∀ e ∈ after, KeepsPlaying e)
    (ended : st.gate.ended = true) (finished : st.caller.thread.Finished)
    (running : st.caller.exited = false) (fragmented : Fragmented opts)
    (networked : 0 < opts.networkport) (sending : opts.savevideo = false)
    (remainders : LeavesRemainders 0 (encodedFrames (encodes opts video.iVideoStream ps)))
    {r : Receiver} (empty : r.iRTPPacketSizeLocal = 0) :
    ∃ r' outs waiting, receiveAll .useUDP .useMJPEG 0 r
        (st.caller.network.map .data) = some (r', outs) ∧
      (encodedBytes opts video ps).flatten = outs.flatten ++ waiting ∧
      waiting.length < minFlushBuffSize := by
  obtain ⟨loop, carried⟩ := session_sends run unplayed kept ended finished running
  rw [fragmented.1] at carried
  rw [(SendOutcomes.carried_whole carried).1]
  have mode : opts.cliOpts = ⟨.useUDP, .useMJPEG, false⟩ := by
    rw [Options.cliOpts, fragmented.1, fragmented.2, sending]
  have loopRun := (run_outputs loop).2.1
  rw [networkRun, if_pos networked, mode] at loopRun
  obtain ⟨r', outs, waiting, received, parts, waits⟩ :=
    run_written (waits_nil rfl) (collects_nil empty) _ remainders loopRun
  exact ⟨r', outs, waiting, received, parts, waits.length_lt⟩

/-- A chunk is at most one byte longer than `MAX_FLUSH_BUFF_SIZE`. -/
theorem flushChunks_short {bytes c : List UInt8} (among : c ∈ flushChunks bytes) :
    c.length ≤ maxFlushBuffSize + 1 := by
  obtain ⟨short, rfl⟩ | ⟨_, rfl | ⟨k, _, _, rfl⟩ | ⟨_, rfl⟩⟩ := mem_flushChunks among
  · rw [List.length_cons]
    omega
  · rw [List.length_cons, List.length_take]
    omega
  · rw [List.length_cons, List.length_take]
    omega
  · have whole := Nat.div_add_mod (bytes.length + 1) maxFlushBuffSize
    have rest := Nat.mod_lt (bytes.length + 1) maxFlushBuffSize_pos
    rw [Nat.mul_comm] at whole
    rw [List.length_cons, List.length_drop]
    omega

/-- Whatever the fragmentation loop hands to `addFrame` is a chunk of a flush. -/
theorem calls_of_flushes {savevideo : Bool} {vid vid' : VideoBuffer} {frames : List EncodedFrame}
    {emissions : List Emission}
    (run : videoRun ⟨.useUDP, .useMJPEG, savevideo⟩ vid frames = some (vid', emissions)) :
    ∀ c ∈ addFrameCalls emissions, ∃ bytes, c ∈ flushChunks bytes := by
  induction frames generalizing vid emissions with
  | nil =>
    obtain rfl := (Prod.mk.inj (Option.some.inj run)).2
    exact nofun
  | cons frame frames ih =>
    by_cases fits : accumulatedSize vid.pOutBufferVidSize frame.bytes.length ≤ outBufferSize
    · obtain ⟨vid1, bytes, _, _, _, whole⟩ := videoRun_cons vid frame frames fits
      rw [whole savevideo] at run
      obtain ⟨⟨vid2, later⟩, rest, same⟩ := Option.map_eq_some_iff.mp run
      obtain ⟨rfl, rfl⟩ := Prod.mk.inj same
      intro c among
      rw [addFrameCalls_append] at among
      rcases List.mem_append.mp among with here | there
      · split at here
        · cases savevideo with
          | true =>
            rw [(flushEmissions_kind true frame.bytes bytes).1 rfl] at here
            cases here
          | false =>
            rw [flushEmissions_sent, addFrameCalls_map] at here
            exact ⟨bytes, here⟩
        · cases here
      · exact ih rest c there
    · rw [videoRun_overruns savevideo vid frame frames fits] at run
      cases run

/-- No chunk is too large for a datagram. -/
theorem fragments_sendable {opts : VideoLoop.Options} {video : Video} {ps : List Packet} {l : Loop}
    (fragmented : Fragmented opts) (run : runVideoLoop opts video .start ps = some l) :
    Sendable opts l := by
  have limit : maxFlushBuffSize + 1 ≤ datagramLimit := by decide
  have mode : opts.cliOpts = ⟨.useUDP, .useMJPEG, opts.savevideo⟩ := by
    rw [Options.cliOpts, fragmented.1, fragmented.2]
  have loopRun := (run_outputs run).2.1
  rw [networkRun, mode] at loopRun
  intro _ c among
  split at loopRun
  · obtain ⟨bytes, chunk⟩ := calls_of_flushes loopRun c among
    exact Nat.le_trans (flushChunks_short chunk) limit
  · rw [← (Prod.mk.inj (Option.some.inj loopRun)).2] at among
    cases among

private def mjpegPacket (frame : EncodedFrame) : Packet :=
  ⟨false, 0, true, ⟨8, #v[2, 7, 1, 0, 0, 8, 2, 8], 5⟩, Vector.replicate 32 ' ', .frame frame, 40⟩

private def mjpegCamera : VideoLoop.Options := ⟨7000, .useUDP, .useMJPEG, false, 0, 0⟩

private theorem mjpeg_loop {frame : EncodedFrame} {vid' : VideoBuffer} {emissions : List Emission}
    (run : videoRun ⟨.useUDP, .useMJPEG, false⟩ .cleared [frame] = some (vid', emissions)) :
    ∃ l, runVideoLoop mjpegCamera ⟨0, 2, 1⟩ .start [mjpegPacket frame] = some l := by
  have networked : networkRun mjpegCamera .cleared [frame] = some (vid', emissions) := by
    rw [networkRun, if_pos (by decide)]
    exact run
  have encoded : encodedFrames (encodes mjpegCamera 0 [mjpegPacket frame]) = [frame] := rfl
  have start : Outputs.start.vid = .cleared := rfl
  obtain ⟨o, separate⟩ : ∃ o, separately mjpegCamera ⟨0, 2, 1⟩ 0 .start
      (encodes mjpegCamera 0 [mjpegPacket frame]) = some o := by
    rw [separately, encoded, start, networked]
    exact ⟨_, rfl⟩
  obtain ⟨l, loop, _⟩ := Option.map_eq_some_iff.mp ((run_separately _ _ _).trans separate)
  exact ⟨l, loop⟩

private theorem mjpeg_woken (frame : EncodedFrame) : ∃ st,
    TraceMachine.run (step 1 mjpegCamera ⟨0, 2, 1⟩) (start [mjpegPacket frame])
      (settingUp ++ wakes) = some st ∧ st.gate.server.slp = false ∧ st.over = false :=
  ⟨_, rfl, rfl, rfl⟩

/-- The flush of one frame. -/
theorem one_flush_session : ∃ (frame : EncodedFrame) (st : Process) (outcomes : List Outcome),
    frame.bytes = List.replicate 1600 0 ∧
    TraceMachine.run (step 1 mjpegCamera ⟨0, 2, 1⟩) (start [mjpegPacket frame])
      (settingUp ++ (wakes ++ outcomes.map Event.video)) = some st ∧
    ∃ r' outs waiting, receiveAll .useUDP .useMJPEG 0 .cleared
        (st.caller.network.map .data) = some (r', outs) ∧
      List.replicate 1600 0 = outs.flatten ++ waiting ∧ waiting.length < minFlushBuffSize := by
  obtain ⟨vid', server⟩ := LossyDelivery.cleared_flushes 1600 (by decide) (by decide) (by decide)
    (by decide)
  obtain ⟨emissions, calls, _⟩ := FlushInterleaving.serverRun_calls server
  have remainders : LeavesRemainders 0 [zeroFrame 1600 (by decide) (by decide)] := by
    refine ⟨?_, trivial⟩
    simp only [zeroFrame, List.length_replicate]
    decide
  have content : (zeroFrame 1600 (by decide) (by decide)).bytes = List.replicate 1600 0 := rfl
  generalize zeroFrame 1600 _ _ = frame at calls remainders content
  obtain ⟨l, loop⟩ := mjpeg_loop calls
  obtain ⟨woken, first, opened, alive⟩ := mjpeg_woken frame
  obtain ⟨outcomes, st, second, ended, finished, alive'⟩ :=
    video_ends (run_bound loop first) (fragments_sendable ⟨rfl, rfl⟩ loop) alive opened
  have run := TraceMachine.run_trans _ first second
  rw [List.append_assoc] at run
  have keeps : ∀ e ∈ wakes ++ outcomes.map Event.video, KeepsPlaying e := by
    refine List.forall_mem_append.mpr ⟨wakes_keep, fun e among => ?_⟩
    obtain ⟨outcome, _, rfl⟩ := List.mem_map.mp among
    trivial
  obtain ⟨r', outs, waiting, received, parts, short⟩ := fragmented_session run settingUp_others
    keeps ended finished (running_of_alive alive') ⟨rfl, rfl⟩ (by decide) rfl remainders
    (show Receiver.cleared.iRTPPacketSizeLocal = 0 from rfl)
  have whole : (encodedBytes mjpegCamera ⟨0, 2, 1⟩ [mjpegPacket frame]).flatten =
      frame.bytes ++ [] := rfl
  refine ⟨frame, st, outcomes, content, run, r', outs, waiting, received, ?_, short⟩
  rw [← parts, whole, content, List.append_nil]

end FragmentedSession
