import UnvStream.FrameSender
import UnvStream.ClientReceiver

/-!
# MJPEG over UDP from the encoder to the client's standard output

Server accumulator, `addFrame` and the client's receive loop are composed on a
network that delivers every datagram once, unmodified and in order. The abstract
side is a journal: the frames included in a flush so far, and those waiting.
-/

namespace FragmentedDelivery

open CheckedMemory MarkedFraming Vocabulary FragmentLoop FrameSender ClientReceiver

structure Stream where
  video : VideoBuffer
  sender : Sender
  receiver : Receiver

/-- `addFrame` on each emission in turn; a saved chunk does not reach the network. -/
def emitAll (tlayer : Transport) : Sender → List Emission → Option (Sender × List Sent)
  | s, [] => some (s, [])
  | s, .saved _ :: rest => emitAll tlayer s rest
  | s, .addFrame frame :: rest => do
    let (s, sent) ← addFrame tlayer s frame
    let (s, sents) ← emitAll tlayer s rest
    return (s, sent.toList ++ sents)

/-- One encoded frame through server, network and client, with savevideo off. -/
def deliverFrame (st : Stream) (frame : List UInt8) : Option (Stream × List UInt8) := do
  let (video, emissions) ← videoPass ⟨.useUDP, .useMJPEG, false⟩ st.video frame
  let (sender, sent) ← emitAll .useUDP st.sender emissions
  let (receiver, outs) ← receiveAll .useUDP .useMJPEG 0 st.receiver
    (sent.map fun s => .data s.bytes)
  return (⟨video, sender, receiver⟩, outs.flatten)

structure Journal where
  included : List UInt8
  waiting : List UInt8

def Journal.note (j : Journal) (flushes : Bool) (frame : List UInt8) : Journal :=
  if flushes then ⟨j.included ++ (j.waiting ++ frame), []⟩ else ⟨j.included, j.waiting ++ frame⟩

/-- After each frame the client's output is what the journal says was flushed, and
after each flush both accumulators are empty. `written` is the output so far. -/
def Faithful : Stream → List UInt8 → Journal → List EncodedFrame → Prop
  | _, _, _, [] => True
  | st, written, j, frame :: frames => ∃ st' out,
      deliverFrame st frame.bytes = some (st', out) ∧
      written ++ out = (j.note (passFlushes st.video frame.bytes) frame.bytes).included ∧
      (passFlushes st.video frame.bytes = true →
        st'.video.pOutBufferVidSize = 0 ∧ st'.receiver.iRTPPacketSizeLocal = 0) ∧
      Faithful st' (written ++ out) (j.note (passFlushes st.video frame.bytes) frame.bytes) frames

/-- The size a pass leaves when every flush clears the accumulator. -/
def sizeAfter (size encodedBytes : Nat) : Nat :=
  if minFlushBuffSize < accumulatedSize size encodedBytes then 0
  else accumulatedSize size encodedBytes

/-- The accumulated data fits in `pOutBufferVid` at every pass. -/
def Fits : Nat → List EncodedFrame → Prop
  | _, [] => True
  | size, frame :: frames => accumulatedSize size frame.bytes.length ≤ outBufferSize ∧
      Fits (sizeAfter size frame.bytes.length) frames

/-- No pass accumulates an exact multiple of the chunk size above one chunk. -/
def LeavesRemainders : Nat → List EncodedFrame → Prop
  | _, [] => True
  | size, frame :: frames => ¬ ExactMultiple (accumulatedSize size frame.bytes.length) ∧
      LeavesRemainders (sizeAfter size frame.bytes.length) frames

/-- Nothing is accumulated on either side and the client has been told to play. -/
structure Fresh (st : Stream) : Prop where
  server : st.video.pOutBufferVidSize = 0
  client : st.receiver.iRTPPacketSizeLocal = 0
  playing : st.sender.iRTSPState = .playing

/-- The simulation relation with the journal. -/
structure Synchronised (st : Stream) (written : List UInt8) (j : Journal) : Prop where
  server : Accumulates st.video j.waiting
  client : Collects st.receiver []
  playing : st.sender.iRTSPState = .playing
  written : written = j.included

theorem Fresh.synchronised {st : Stream} (fresh : Fresh st) : Synchronised st [] ⟨[], []⟩ :=
  ⟨accumulates_nil fresh.server, collects_nil fresh.client, fresh.playing, rfl⟩

/-- While the state is PLAYING every chunk handed to `addFrame` becomes a datagram. -/
theorem emitAll_playing (s : Sender) (chunks : List (List UInt8))
    (fits : ∀ c ∈ chunks, c.length ≤ frameQSize) (playing : s.iRTSPState = .playing) :
    ∃ s', emitAll .useUDP s (chunks.map .addFrame) = some (s', chunks.map .udp) ∧
      s'.iRTSPState = .playing := by
  induction chunks generalizing s with
  | nil => exact ⟨s, rfl, playing⟩
  | cons c chunks ih =>
    obtain ⟨s1, call, state1⟩ := addFrame_spec .useUDP s c (fits c List.mem_cons_self)
    rw [if_pos playing] at call
    obtain ⟨s', rest, state'⟩ := ih s1 (fun d hd => fits d (List.mem_cons_of_mem c hd))
      (state1.trans playing)
    refine ⟨s', ?_, state'⟩
    simp only [List.map_cons, emitAll, call, rest, Option.bind_eq_bind, Option.bind_some,
      Option.toList_some, List.singleton_append, wrap, Option.pure_def]

/-- The client's part of a flush that leaves a remainder. -/
theorem receive_flush {r : Receiver} (empty : Collects r []) (bytes : List UInt8)
    (fits : bytes.length + 1 ≤ outBufferSize) (remainder : ¬ ExactMultiple (bytes.length + 1)) :
    ∃ r' outs, receiveAll .useUDP .useMJPEG 0 r ((flushChunks bytes).map .data) =
        some (r', outs) ∧ outs.flatten = bytes ∧ Collects r' [] := by
  have sizes : outBufferSize = buffSize := rfl
  have short : ∀ d ∈ flushChunks bytes, d.length ≤ buffSize := fun d hd =>
    Nat.le_trans (flushChunks_length_le bytes d hd) fits
  have start : Collects r (payload List.tail []) := empty
  have bounded : Bounded closesUnit List.tail buffSize
      (payload List.tail ([] : List (List UInt8))).length (flushChunks bytes) := by
    apply bounded_of_total
    rw [flushChunks_payload, payload_nil, List.length_nil]
    omega
  obtain ⟨r', run, after⟩ := receiveAll_datagrams (show (0 : Nat) ≠ 1 by decide)
    (flushChunks bytes) (flushChunks_nonempty bytes) short start bounded
  obtain ⟨hgroups, hleft⟩ := groups_complete closesUnit [] (flushChunks bytes)
    (flushChunks_complete bytes fits remainder)
  refine ⟨r', _, run, ?_, ?_⟩
  · rw [outputs_flatten, hgroups, List.flatten_singleton, List.nil_append, flushChunks_payload]
  · rw [hleft] at after
    exact after

/-- A pass that only collects keeps the two sides synchronised. -/
theorem deliver_collects {st : Stream} {written : List UInt8} {j : Journal}
    (sync : Synchronised st written j) (frame : EncodedFrame)
    (fits : (j.waiting ++ frame.bytes).length + 1 ≤ outBufferSize)
    (small : passFlushes st.video frame.bytes = false) :
    ∃ st', deliverFrame st frame.bytes = some (st', []) ∧
      Synchronised st' (written ++ []) (j.note false frame.bytes) := by
  obtain ⟨video, pass, acc⟩ := fragmentFrame_collects sync.server frame.nonempty fits small
  refine ⟨⟨video, st.sender, st.receiver⟩, ?_, acc, sync.client, sync.playing, ?_⟩
  · simp only [deliverFrame, videoPass_udp_mjpeg, pass, emitAll, receiveAll, List.map_nil,
      Option.bind_eq_bind, Option.bind_some, List.flatten_nil, Option.pure_def]
  · rw [List.append_nil]
    exact sync.written

/-- A flush that leaves a remainder writes out everything that was waiting. -/
theorem deliver_flushes {st : Stream} {written : List UInt8} {j : Journal}
    (sync : Synchronised st written j) (frame : EncodedFrame)
    (fits : (j.waiting ++ frame.bytes).length + 1 ≤ outBufferSize)
    (big : passFlushes st.video frame.bytes = true)
    (remainder : ¬ ExactMultiple ((j.waiting ++ frame.bytes).length + 1)) :
    ∃ st' out, deliverFrame st frame.bytes = some (st', out) ∧
      st'.video.pOutBufferVidSize = 0 ∧
      Synchronised st' (written ++ out) (j.note true frame.bytes) := by
  obtain ⟨video, pass, size⟩ := fragmentFrame_flushes sync.server fits big
  rw [if_neg remainder] at size
  have small : ∀ c ∈ flushChunks (j.waiting ++ frame.bytes), c.length ≤ frameQSize := by
    intro c hc
    have hle := flushChunks_length_le _ c hc
    simp only [outBufferSize, frameQSize] at fits ⊢
    omega
  obtain ⟨sender, sent, state⟩ := emitAll_playing st.sender _ small sync.playing
  obtain ⟨receiver, outs, received, hout, residue⟩ := receive_flush sync.client _ fits remainder
  refine ⟨⟨video, sender, receiver⟩, outs.flatten, ?_, size, accumulates_nil size, residue, state,
    ?_⟩
  · simp only [deliverFrame, videoPass_udp_mjpeg, pass, sent, Option.bind_eq_bind,
      Option.bind_some, List.map_map, Function.comp_def, Sent.bytes, received, Option.pure_def]
  · rw [hout, sync.written]
    rfl

/-- A flush without a remainder leaves the accumulator as it is. -/
theorem deliver_keeps_size {st st' : Stream} {held out : List UInt8} {frame : EncodedFrame}
    (acc : Accumulates st.video held) (fits : (held ++ frame.bytes).length + 1 ≤ outBufferSize)
    (multiple : ExactMultiple ((held ++ frame.bytes).length + 1))
    (big : passFlushes st.video frame.bytes = true)
    (run : deliverFrame st frame.bytes = some (st', out)) :
    st'.video.pOutBufferVidSize ≠ 0 := by
  obtain ⟨video, pass, size⟩ := fragmentFrame_flushes acc fits big
  rw [if_pos multiple] at size
  have same : st'.video = video := by
    simp only [deliverFrame, videoPass_udp_mjpeg, pass, Option.bind_eq_bind,
      Option.bind_some] at run
    obtain ⟨⟨sender, sent⟩, _, run⟩ := Option.bind_eq_some_iff.mp run
    obtain ⟨⟨receiver, outs⟩, _, run⟩ := Option.bind_eq_some_iff.mp run
    exact (congrArg Stream.video (Prod.mk.inj (Option.some.inj run)).1).symm
  rw [same, size]
  exact Nat.succ_ne_zero _

theorem exactMultiple_flushes {vid : VideoBuffer} {frame : List UInt8}
    (multiple : ExactMultiple (accumulatedSize vid.pOutBufferVidSize frame.length)) :
    passFlushes vid frame = true := by
  have below : minFlushBuffSize < maxFlushBuffSize := by decide
  exact (passFlushes_iff vid frame).mpr (Nat.lt_trans below multiple.1)

/-- The size the run has after a pass, while every flush leaves a remainder. -/
theorem Synchronised.sizeAfter_eq {st st' : Stream} {written written' : List UInt8}
    {j : Journal} {frame : EncodedFrame} (sync : Synchronised st written j)
    (sync' : Synchronised st' written' (j.note (passFlushes st.video frame.bytes) frame.bytes)) :
    sizeAfter st.video.pOutBufferVidSize frame.bytes.length = st'.video.pOutBufferVidSize := by
  have after := sync'.server.size
  cases h : passFlushes st.video frame.bytes with
  | true =>
    have big := (passFlushes_iff st.video frame.bytes).mp h
    rw [sizeAfter, if_pos big, after, h]
    rfl
  | false =>
    have small : ¬ minFlushBuffSize <
        accumulatedSize st.video.pOutBufferVidSize frame.bytes.length := by
      rw [← passFlushes_iff, h]
      exact Bool.false_ne_true
    have waits : (j.note false frame.bytes).waiting ≠ [] := by
      simp [Journal.note, frame.nonempty]
    rw [sizeAfter, if_neg small, after, h, if_neg waits, sync.server.accumulatedSize_eq]
    rfl

/-- One step of the simulation, for a pass that is not an exact multiple. -/
theorem deliver_synchronised {st : Stream} {written : List UInt8} {j : Journal}
    (sync : Synchronised st written j) (frame : EncodedFrame)
    (fits : accumulatedSize st.video.pOutBufferVidSize frame.bytes.length ≤ outBufferSize)
    (remainder : ¬ ExactMultiple
      (accumulatedSize st.video.pOutBufferVidSize frame.bytes.length)) :
    ∃ st' out, deliverFrame st frame.bytes = some (st', out) ∧
      Synchronised st' (written ++ out)
        (j.note (passFlushes st.video frame.bytes) frame.bytes) := by
  rw [sync.server.accumulatedSize_eq] at fits remainder
  cases h : passFlushes st.video frame.bytes with
  | false =>
    obtain ⟨st', run, sync'⟩ := deliver_collects sync frame fits h
    exact ⟨st', [], run, sync'⟩
  | true =>
    obtain ⟨st', out, run, _, sync'⟩ := deliver_flushes sync frame fits h remainder
    exact ⟨st', out, run, sync'⟩

theorem faithful_of_remainders {st : Stream} {written : List UInt8} {j : Journal}
    (sync : Synchronised st written j) (frames : List EncodedFrame)
    (fits : Fits st.video.pOutBufferVidSize frames)
    (remainders : LeavesRemainders st.video.pOutBufferVidSize frames) :
    Faithful st written j frames := by
  induction frames generalizing st written j with
  | nil => trivial
  | cons frame frames ih =>
    obtain ⟨st', out, run, sync'⟩ := deliver_synchronised sync frame fits.1 remainders.1
    have size := sync.sizeAfter_eq sync'
    refine ⟨st', out, run, sync'.written, ?_, ?_⟩
    · intro flushes
      refine ⟨?_, sync'.client.size⟩
      have after := sync'.server.size
      simpa [Journal.note, flushes] using after
    · exact ih sync' (size ▸ fits.2) (size ▸ remainders.2)

theorem remainders_of_faithful {st : Stream} {written : List UInt8} {j : Journal}
    (sync : Synchronised st written j) (frames : List EncodedFrame)
    (fits : Fits st.video.pOutBufferVidSize frames) (faithful : Faithful st written j frames) :
    LeavesRemainders st.video.pOutBufferVidSize frames := by
  induction frames generalizing st written j with
  | nil => trivial
  | cons frame frames ih =>
    obtain ⟨st', out, run, _, cleared, rest⟩ := faithful
    have remainder : ¬ ExactMultiple
        (accumulatedSize st.video.pOutBufferVidSize frame.bytes.length) := by
      intro multiple
      have flushes := exactMultiple_flushes multiple
      have hfits := fits.1
      rw [sync.server.accumulatedSize_eq] at multiple hfits
      exact deliver_keeps_size sync.server hfits multiple flushes run (cleared flushes).1
    obtain ⟨st1, out1, run1, sync1⟩ := deliver_synchronised sync frame fits.1 remainder
    have same : (st1, out1) = (st', out) := Option.some.inj (run1.symm.trans run)
    cases same
    have size := sync.sizeAfter_eq sync1
    exact ⟨remainder, size ▸ ih sync1 (size ▸ fits.2) rest⟩

/-- End to end, the client writes exactly the flushed frames and both accumulators
are empty after each flush if and only if no pass accumulates an exact multiple of
`MAX_FLUSH_BUFF_SIZE` above one chunk. -/
theorem faithful_iff_remainders (st : Stream) (fresh : Fresh st) (frames : List EncodedFrame)
    (fits : Fits 0 frames) : Faithful st [] ⟨[], []⟩ frames ↔ LeavesRemainders 0 frames := by
  have sync := fresh.synchronised
  rw [← fresh.server] at fits ⊢
  exact ⟨remainders_of_faithful sync frames fits, faithful_of_remainders sync frames fits⟩

/-- A stream with cleared memory on both sides, told to play. -/
def freshStream : Stream where
  video := .cleared
  sender := .cleared .playing
  receiver := .cleared

theorem freshStream_fresh : Fresh freshStream := ⟨rfl, rfl, rfl⟩

def zeroFrame (length : Nat) (pos : 0 < length) (room : length ≤ outBufferSize) :
    EncodedFrame where
  bytes := List.replicate length 0
  nonempty := by
    intro h
    have len := congrArg List.length h
    rw [List.length_replicate] at len
    exact Nat.ne_of_gt pos len
  room := by
    rw [List.length_replicate]
    exact room

theorem faithful_one_chunk :
    Faithful freshStream [] ⟨[], []⟩ [zeroFrame 1600 (by decide) (by decide)] := by
  have fits : Fits 0 [zeroFrame 1600 (by decide) (by decide)] := by
    refine ⟨?_, trivial⟩
    simp only [zeroFrame, List.length_replicate]
    decide
  refine (faithful_iff_remainders freshStream freshStream_fresh _ fits).mpr ⟨?_, trivial⟩
  simp only [zeroFrame, List.length_replicate]
  decide

/-- A first frame of 39999 bytes fills two chunks exactly: neither is marked, the
client writes nothing and the server keeps the size. -/
theorem exact_multiple_unfaithful :
    Fits 0 [zeroFrame 39999 (by decide) (by decide)] ∧
      ¬ Faithful freshStream [] ⟨[], []⟩ [zeroFrame 39999 (by decide) (by decide)] := by
  have fits : Fits 0 [zeroFrame 39999 (by decide) (by decide)] := by
    refine ⟨?_, trivial⟩
    simp only [zeroFrame, List.length_replicate]
    decide
  refine ⟨fits, fun faithful => ?_⟩
  have remainders := remainders_of_faithful freshStream_fresh.synchronised _ fits faithful
  apply remainders.1
  simp only [zeroFrame, List.length_replicate]
  decide

end FragmentedDelivery
