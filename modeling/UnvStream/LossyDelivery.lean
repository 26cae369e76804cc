import UnvStream.FragmentedDelivery
import Mathlib.Data.List.Perm.Subperm

/-!
# The units a client writes on a network that loses and reorders datagrams

A unit is what the client writes on a datagram whose first byte is 127. The
client concatenates whatever arrived since the previous such datagram; it does
not look at the chunk numbers.
-/

namespace LossyDelivery

open CheckedMemory MarkedFraming Vocabulary FragmentLoop FrameSender ClientReceiver
  FragmentedDelivery

/-- A run of the fragmentation loop from the state `vid`, with the datagrams of each flush. -/
def serverRun : VideoBuffer → List EncodedFrame →
    Option (VideoBuffer × List (List (List UInt8)))
  | vid, [] => some (vid, [])
  | vid, frame :: frames => do
    let (vid', emissions) ← videoPass ⟨.useUDP, .useMJPEG, false⟩ vid frame.bytes
    let (vid'', flushes) ← serverRun vid' frames
    return (vid'', if passFlushes vid frame.bytes then addFrameCalls emissions :: flushes
      else flushes)

/-- What was written on the datagrams whose first byte is 127. -/
def unitsOf (received outs : List (List UInt8)) : List (List UInt8) :=
  ((received.zip outs).filter fun p => closesUnit p.1).map Prod.snd

def flushPayload (flush : List (List UInt8)) : List UInt8 := payload List.tail flush

/-- Every unit the client writes for these datagrams is the payload of a flush. -/
def UnitIntegrity (vid : VideoBuffer) (frames : List EncodedFrame) (r : Receiver)
    (received : List (List UInt8)) : Prop :=
  ∀ vid' flushes, serverRun vid frames = some (vid', flushes) →
    received.Subperm flushes.flatten →
    ∀ r' outs, receiveAll .useUDP .useMJPEG 0 r (received.map .data) = some (r', outs) →
      ∀ u ∈ unitsOf received outs, ∃ f ∈ flushes, u = flushPayload f

/-- The first pass of a run and the run after it. -/
theorem serverRun_cons {vid vid' : VideoBuffer} {frame : EncodedFrame}
    {frames : List EncodedFrame} {flushes : List (List (List UInt8))}
    (run : serverRun vid (frame :: frames) = some (vid', flushes)) :
    ∃ vid1 emissions later,
      fragmentFrame false vid frame.bytes = some (vid1, emissions) ∧
      serverRun vid1 frames = some (vid', later) ∧
      flushes = if passFlushes vid frame.bytes then addFrameCalls emissions :: later
        else later := by
  obtain ⟨⟨vid1, emissions⟩, pass, run⟩ := Option.bind_eq_some_iff.mp run
  obtain ⟨⟨vid2, later⟩, rest, run⟩ := Option.bind_eq_some_iff.mp run
  rw [videoPass_udp_mjpeg] at pass
  obtain ⟨rfl, rfl⟩ := Prod.mk.inj (Option.some.inj run)
  exact ⟨vid1, emissions, later, pass, rest, rfl⟩

/-- Every flush of a run is the chunking of some payload that fits the buffer. -/
theorem serverRun_flushes (frames : List EncodedFrame) {vid vid' : VideoBuffer}
    {flushes : List (List (List UInt8))} (run : serverRun vid frames = some (vid', flushes)) :
    ∀ f ∈ flushes, ∃ bytes, bytes.length + 1 ≤ outBufferSize ∧ f = flushChunks bytes := by
  induction frames generalizing vid vid' flushes with
  | nil =>
    have none : [] = flushes := (Prod.mk.inj (Option.some.inj run)).2
    intro f hf
    rw [← none] at hf
    cases hf
  | cons frame frames ih =>
    obtain ⟨vid1, emissions, later, pass, rest, rfl⟩ := serverRun_cons run
    intro f hf
    cases h : passFlushes vid frame.bytes with
    | false =>
      rw [h] at hf
      exact ih rest f hf
    | true =>
      rw [h] at hf
      rcases List.mem_cons.mp hf with rfl | hf
      · rcases fragmentFrame_emits frame.nonempty pass with ⟨hno, _⟩ | ⟨_, bytes, fits, hout⟩
        · rw [h] at hno
          cases hno
        · refine ⟨bytes, fits, ?_⟩
          rw [hout, addFrameCalls_map]
      · exact ih rest f hf

/-- The chunks of a flush that carry the mark are the last ones. -/
theorem marked_is_last {bytes d : List UInt8} (fits : bytes.length + 1 ≤ outBufferSize)
    (hd : d ∈ flushChunks bytes) (marked : closesUnit d = true) :
    (flushChunks bytes).getLast? = some d := by
  by_cases multiple : ExactMultiple (bytes.length + 1)
  · have hopen := flushChunks_open bytes fits multiple d hd
    rw [hopen] at marked
    cases marked
  · obtain ⟨init, last, hsplit, _, hinit⟩ := flushChunks_complete bytes fits multiple
    rw [hsplit] at hd ⊢
    rcases List.mem_append.mp hd with hd | hd
    · rw [hinit d hd] at marked
      cases marked
    · rw [List.mem_singleton.mp hd, List.getLast?_append, List.getLast?_singleton]
      rfl

theorem flush_fits {bytes : List UInt8} (fits : bytes.length + 1 ≤ outBufferSize) :
    (flushPayload (flushChunks bytes)).length ≤ buffSize := by
  have sizes : outBufferSize = buffSize := rfl
  rw [flushPayload, flushChunks_payload]
  omega

theorem received_datagrams {vid vid' : VideoBuffer} {frames : List EncodedFrame}
    {flushes : List (List (List UInt8))} (run : serverRun vid frames = some (vid', flushes))
    {d : List UInt8} (hd : d ∈ flushes.flatten) : d ≠ [] ∧ d.length ≤ buffSize := by
  obtain ⟨f, hf, hdf⟩ := List.mem_flatten.mp hd
  obtain ⟨bytes, fits, rfl⟩ := serverRun_flushes frames run f hf
  exact ⟨flushChunks_nonempty bytes d hdf, Nat.le_trans (flushChunks_length_le bytes d hdf) fits⟩

/-- Whatever arrives, a unit is what was received since the last marked datagram. -/
theorem units_of_received {vid vid' : VideoBuffer} {frames : List EncodedFrame}
    {flushes : List (List (List UInt8))} (run : serverRun vid frames = some (vid', flushes))
    {r : Receiver} (empty : r.iRTPPacketSizeLocal = 0) {received : List (List UInt8)}
    (arrived : received ⊆ flushes.flatten)
    (room : Bounded closesUnit List.tail buffSize 0 received) :
    ∃ r' outs, receiveAll .useUDP .useMJPEG 0 r (received.map .data) = some (r', outs) ∧
      unitsOf received outs = (groups closesUnit [] received).map flushPayload := by
  have waiting : Collects r (payload List.tail []) := collects_nil empty
  obtain ⟨r', received', _⟩ := receiveAll_datagrams (show (0 : Nat) ≠ 1 by decide) received
    (fun d hd => (received_datagrams run (arrived hd)).1)
    (fun d hd => (received_datagrams run (arrived hd)).2) waiting room
  exact ⟨r', _, received', outputs_at_closing closesUnit List.tail [] received⟩

/-- A unit ends with the last chunk of a flush; the others are not last chunks. -/
theorem group_closed_by_flush {vid vid' : VideoBuffer} {frames : List EncodedFrame}
    {flushes : List (List (List UInt8))} (run : serverRun vid frames = some (vid', flushes))
    {received g : List (List UInt8)} (arrived : received ⊆ flushes.flatten)
    (hg : g ∈ groups closesUnit [] received) :
    ∃ init last, g = init ++ [last] ∧ (∀ d ∈ init, closesUnit d = false) ∧
      ∃ f ∈ flushes, f.getLast? = some last := by
  obtain ⟨init, last, rfl, marked, hinit⟩ :=
    complete_of_mem_groups closesUnit [] received (fun c hc => by cases hc) hg
  have hlast : last ∈ received := by
    have split := groups_flatten_append_leftover closesUnit [] received
    rw [List.nil_append] at split
    rw [← split]
    apply List.mem_append_left
    exact List.mem_flatten.mpr ⟨_, hg, List.mem_append_right init List.mem_cons_self⟩
  obtain ⟨f, hf, hdf⟩ := List.mem_flatten.mp (arrived hlast)
  obtain ⟨bytes, fits, hbytes⟩ := serverRun_flushes frames run f hf
  rw [hbytes] at hdf
  refine ⟨init, last, rfl, hinit, f, hf, ?_⟩
  rw [hbytes]
  exact marked_is_last fits hdf marked

/-- When whole flushes arrive, each is written as a unit of its own. -/
theorem units_of_whole_flushes {vid vid' : VideoBuffer} {frames : List EncodedFrame}
    {flushes : List (List (List UInt8))} (run : serverRun vid frames = some (vid', flushes))
    {r : Receiver} (empty : r.iRTPPacketSizeLocal = 0) {whole : List (List (List UInt8))}
    (arrived : whole ⊆ flushes) (complete : ∀ f ∈ whole, Complete closesUnit f) :
    ∃ r' outs, receiveAll .useUDP .useMJPEG 0 r (whole.flatten.map .data) = some (r', outs) ∧
      unitsOf whole.flatten outs = whole.map flushPayload := by
  have small : ∀ f ∈ whole, (payload List.tail f).length ≤ buffSize := by
    intro f hf
    obtain ⟨bytes, fits, rfl⟩ := serverRun_flushes frames run f (arrived hf)
    exact flush_fits fits
  have inside : whole.flatten ⊆ flushes.flatten := by
    intro d hd
    obtain ⟨f, hf, hdf⟩ := List.mem_flatten.mp hd
    exact List.mem_flatten.mpr ⟨f, arrived hf, hdf⟩
  obtain ⟨r', outs, received, units⟩ := units_of_received run empty inside
    (bounded_flatten closesUnit List.tail whole complete small)
  rw [(groups_flatten closesUnit whole complete).1] at units
  exact ⟨r', outs, received, units⟩

/-- A flush of a single datagram is marked. -/
theorem single_chunk_complete {bytes : List UInt8} (fits : bytes.length + 1 ≤ outBufferSize)
    (single : (flushChunks bytes).length = 1) : Complete closesUnit (flushChunks bytes) := by
  apply flushChunks_complete bytes fits
  rintro ⟨long, exact'⟩
  have two : 2 ≤ (bytes.length + 1) / maxFlushBuffSize := by
    have pos := maxFlushBuffSize_pos
    have whole := Nat.div_add_mod (bytes.length + 1) maxFlushBuffSize
    rw [exact', Nat.add_zero] at whole
    by_contra small
    have le : maxFlushBuffSize * ((bytes.length + 1) / maxFlushBuffSize) ≤
        maxFlushBuffSize * 1 := Nat.mul_le_mul_left _ (by omega)
    omega
  simp only [flushChunks, if_pos long, List.length_append, List.length_cons, List.length_map,
    List.length_range'] at single
  omega

theorem flatten_singletons {A : Type} (gs : List (List A)) (single : ∀ g ∈ gs, g.length = 1) :
    gs = gs.flatten.map fun d => [d] := by
  induction gs with
  | nil => rfl
  | cons g gs ih =>
    obtain ⟨d, rfl⟩ := List.length_eq_one_iff.mp (single g List.mem_cons_self)
    have rest := ih fun g' hg' => single g' (List.mem_cons_of_mem _ hg')
    simpa using rest

/-- Loss and reordering of whole single-datagram flushes cannot break a unit. -/
theorem units_of_single_chunks {vid vid' : VideoBuffer} {frames : List EncodedFrame}
    {flushes : List (List (List UInt8))} (run : serverRun vid frames = some (vid', flushes))
    {r : Receiver} (empty : r.iRTPPacketSizeLocal = 0) (single : ∀ f ∈ flushes, f.length = 1)
    {received : List (List UInt8)} (arrived : received ⊆ flushes.flatten) :
    ∃ r' outs, receiveAll .useUDP .useMJPEG 0 r (received.map .data) = some (r', outs) ∧
      unitsOf received outs = received.map fun d => flushPayload [d] := by
  have inside : received.map (fun d => [d]) ⊆ flushes := by
    intro f hf
    obtain ⟨d, hd, rfl⟩ := List.mem_map.mp hf
    have hmem := arrived hd
    have singles := flatten_singletons flushes single
    rw [singles]
    exact List.mem_map_of_mem hmem
  have complete : ∀ f ∈ received.map (fun d => [d]), Complete closesUnit f := by
    intro f hf
    obtain ⟨bytes, fits, rfl⟩ := serverRun_flushes frames run f (inside hf)
    exact single_chunk_complete fits (single _ (inside hf))
  have flat : (received.map fun d => [d]).flatten = received := by
    rw [← List.flatMap_def, List.flatMap_singleton']
  obtain ⟨r', outs, run', units⟩ := units_of_whole_flushes run empty inside complete
  rw [flat, List.map_map] at units
  rw [flat] at run'
  exact ⟨r', outs, run', units⟩

/-- A flush of a size between one chunk and two. -/
theorem flushChunks_two {bytes : List UInt8} (long : maxFlushBuffSize ≤ bytes.length)
    (short : bytes.length + 1 < 2 * maxFlushBuffSize) :
    flushChunks bytes =
      [0 :: bytes.take (maxFlushBuffSize - 1), 127 :: bytes.drop (maxFlushBuffSize - 1)] := by
  have one : (bytes.length + 1) / maxFlushBuffSize = 1 :=
    Nat.div_eq_of_lt_le (by omega) (by omega)
  have rest : 0 < (bytes.length + 1) % maxFlushBuffSize := by
    have whole := Nat.div_add_mod (bytes.length + 1) maxFlushBuffSize
    rw [one] at whole
    omega
  simp only [flushChunks, if_pos (Nat.lt_succ_of_le long), one, if_pos rest, Nat.sub_self,
    List.range'_zero, List.map_nil, Nat.one_mul, List.cons_append, List.nil_append]

theorem flushChunks_replicate {length : Nat} (long : maxFlushBuffSize ≤ length)
    (short : length + 1 < 2 * maxFlushBuffSize) (byte : UInt8) :
    flushChunks (List.replicate length byte) =
      [0 :: List.replicate (maxFlushBuffSize - 1) byte,
        127 :: List.replicate (length - (maxFlushBuffSize - 1)) byte] := by
  have first : maxFlushBuffSize - 1 ≤ length := Nat.le_trans (Nat.sub_le _ 1) long
  rw [flushChunks_two (by rwa [List.length_replicate]) (by rwa [List.length_replicate]),
    List.take_replicate, List.drop_replicate, Nat.min_eq_left first]

/-- A run over frames each of which is flushed at once. -/
theorem serverRun_each {vid : VideoBuffer} (empty : vid.pOutBufferVidSize = 0)
    (frames : List EncodedFrame)
    (flushed : ∀ frame ∈ frames, minFlushBuffSize < frame.bytes.length + 1 ∧
      frame.bytes.length + 1 ≤ outBufferSize ∧ ¬ ExactMultiple (frame.bytes.length + 1)) :
    ∃ vid', serverRun vid frames =
      some (vid', frames.map fun frame => flushChunks frame.bytes) := by
  induction frames generalizing vid with
  | nil => exact ⟨vid, rfl⟩
  | cons frame frames ih =>
    obtain ⟨big, fits, remainder⟩ := flushed frame List.mem_cons_self
    have flushes : passFlushes vid frame.bytes = true := by
      rw [passFlushes_iff, (accumulates_nil empty).accumulatedSize_eq]
      exact big
    obtain ⟨vid1, pass, left⟩ := fragmentFrame_flushes (accumulates_nil empty) fits flushes
    rw [List.nil_append, if_neg remainder] at left
    obtain ⟨vid', run⟩ := ih left fun later among => flushed later (List.mem_cons_of_mem _ among)
    refine ⟨vid', ?_⟩
    simp only [serverRun, videoPass_udp_mjpeg, pass, run, flushes, List.nil_append,
      addFrameCalls_map, Option.bind_eq_bind, Option.bind_some, if_true, Option.pure_def,
      List.map_cons]

theorem cleared_flushes (length : Nat) (pos : 0 < length)
    (fits : length + 1 ≤ outBufferSize) (big : minFlushBuffSize < length + 1)
    (remainder : ¬ ExactMultiple (length + 1)) :
    ∃ vid', serverRun VideoBuffer.cleared [zeroFrame length pos (Nat.le_of_succ_le fits)] =
      some (vid', [flushChunks (List.replicate length 0)]) := by
  refine @serverRun_each VideoBuffer.cleared rfl _ fun frame among => ?_
  rw [List.mem_singleton.mp among]
  simp only [zeroFrame, List.length_replicate]
  exact ⟨big, fits, remainder⟩

private theorem uniform_frame (length : Nat) (byte : UInt8) (pos : 0 < length)
    (room : length ≤ outBufferSize) :
    ∃ frame : EncodedFrame, frame.bytes = List.replicate length byte := by
  have nonempty : List.replicate length byte ≠ [] :=
    List.length_pos_iff.mp (by rwa [List.length_replicate])
  exact ⟨⟨_, nonempty, by rwa [List.length_replicate]⟩, rfl⟩

/-- Units on a network that loses and reorders datagrams: what was received up to
and with a marked datagram, whichever flushes it came from. Whole flushes stay
units of their own. -/
theorem units_on_lossy_network (vid vid' : VideoBuffer) (frames : List EncodedFrame)
    (flushes : List (List (List UInt8))) (run : serverRun vid frames = some (vid', flushes))
    (r : Receiver) (empty : r.iRTPPacketSizeLocal = 0) :
    (∀ received, received.Subperm flushes.flatten →
      Bounded closesUnit List.tail buffSize 0 received →
      ∃ r' outs, receiveAll .useUDP .useMJPEG 0 r (received.map .data) = some (r', outs) ∧
        unitsOf received outs = (groups closesUnit [] received).map flushPayload ∧
        ∀ g ∈ groups closesUnit [] received, ∃ init last, g = init ++ [last] ∧
          (∀ d ∈ init, closesUnit d = false) ∧ ∃ f ∈ flushes, f.getLast? = some last) ∧
    (∀ whole : List (List (List UInt8)), whole.Subperm flushes →
      (∀ f ∈ whole, Complete closesUnit f) →
      ∃ r' outs, receiveAll .useUDP .useMJPEG 0 r (whole.flatten.map .data) = some (r', outs) ∧
        unitsOf whole.flatten outs = whole.map flushPayload) ∧
    ((∀ f ∈ flushes, f.length = 1) → ∀ received, received.Subperm flushes.flatten →
      ∃ r' outs, receiveAll .useUDP .useMJPEG 0 r (received.map .data) = some (r', outs) ∧
        unitsOf received outs = received.map fun d => flushPayload [d]) := by
  refine ⟨?_, ?_, ?_⟩
  · intro received arrived room
    obtain ⟨r', outs, run', units⟩ := units_of_received run empty arrived.subset room
    exact ⟨r', outs, run', units, fun g hg => group_closed_by_flush run arrived.subset hg⟩
  · intro whole arrived complete
    exact units_of_whole_flushes run empty arrived.subset complete
  · intro single received arrived
    exact units_of_single_chunks run empty single arrived.subset

/-- Two flushes of two chunks: the first chunk of one is lost and the first chunk of the other
overtakes the last one of the lossy flush, so that the unit mixes the two frames. -/
theorem mixed_unit_on_lossy_network : ∃ (vid' : VideoBuffer) (frame frame' : EncodedFrame)
    (received : List (List UInt8)) (r' : Receiver) (outs : List (List UInt8)),
    frame.bytes = List.replicate 20001 1 ∧ frame'.bytes = List.replicate 20002 2 ∧
      serverRun VideoBuffer.cleared [frame, frame'] =
        some (vid', [flushChunks frame.bytes, flushChunks frame'.bytes]) ∧
      received.Subperm [flushChunks frame.bytes, flushChunks frame'.bytes].flatten ∧
      received.length + 1 = [flushChunks frame.bytes, flushChunks frame'.bytes].flatten.length ∧
      receiveAll .useUDP .useMJPEG 0 Receiver.cleared (received.map .data) = some (r', outs) ∧
      unitsOf received outs = [List.replicate 19999 2 ++ [1, 1], [2, 2, 2]] := by
  obtain ⟨frame, content⟩ := uniform_frame 20001 1 (by decide) (by decide)
  obtain ⟨frame', content'⟩ := uniform_frame 20002 2 (by decide) (by decide)
  have flushed : ∀ f ∈ [frame, frame'], minFlushBuffSize < f.bytes.length + 1 ∧
      f.bytes.length + 1 ≤ outBufferSize ∧ ¬ ExactMultiple (f.bytes.length + 1) := by
    simp only [List.forall_mem_cons, content, content', List.length_replicate]
    decide
  obtain ⟨vid', run⟩ := @serverRun_each VideoBuffer.cleared rfl [frame, frame'] flushed
  have chunks : flushChunks frame.bytes = [0 :: List.replicate 19999 1, [127, 1, 1]] := by
    rw [content]
    exact flushChunks_replicate (by decide) (by decide) 1
  have chunks' : flushChunks frame'.bytes = [0 :: List.replicate 19999 2, [127, 2, 2, 2]] := by
    rw [content']
    exact flushChunks_replicate (by decide) (by decide) 2
  generalize 0 :: List.replicate 19999 (1 : UInt8) = c at chunks
  generalize second : 0 :: List.replicate 19999 (2 : UInt8) = c' at chunks'
  rw [List.map_cons, List.map_singleton, chunks, chunks'] at run
  have arrived : [c', [127, 1, 1], [127, 2, 2, 2]].Subperm
      [[c, [127, 1, 1]], [c', [127, 2, 2, 2]]].flatten :=
    ⟨[[127, 1, 1], c', [127, 2, 2, 2]], .swap _ _ _, List.sublist_cons_self _ _⟩
  have room : Bounded closesUnit List.tail buffSize 0 [c', [127, 1, 1], [127, 2, 2, 2]] := by
    apply bounded_of_total
    rw [← second]
    simp only [payload, List.map_cons, List.map_nil, List.tail_cons, List.flatten_cons,
      List.flatten_nil, List.length_append, List.length_replicate, List.length_cons,
      List.length_nil]
    decide
  obtain ⟨r', outs, received, units, _⟩ := (units_on_lossy_network _ vid' _ _ run
    Receiver.cleared rfl).1 _ arrived room
  refine ⟨vid', frame, frame', _, r', outs, content, content', ?_, ?_, ?_, received, ?_⟩
  · rw [chunks, chunks']
    exact run
  · rw [chunks, chunks']
    exact arrived
  · rw [chunks, chunks']
    rfl
  · rw [units, ← second]
    rfl

/-- The first chunk of a flush of 20001 bytes is lost: the last one, two payload
bytes long, is written as a unit. -/
theorem lost_first_chunk :
    ¬ UnitIntegrity VideoBuffer.cleared [zeroFrame 20001 (by decide) (by decide)]
      Receiver.cleared [[127, 0, 0]] := by
  intro integrity
  obtain ⟨vid', run⟩ := cleared_flushes 20001 (by decide) (by decide) (by decide) (by decide)
  have sent : [127, 0, 0] ∈ flushChunks (List.replicate 20001 0) := by
    rw [flushChunks_replicate (by decide) (by decide)]
    exact List.mem_cons_of_mem _ List.mem_cons_self
  have arrived : [[127, 0, 0]].Subperm [flushChunks (List.replicate 20001 0)].flatten := by
    rw [List.flatten_singleton]
    exact List.singleton_subperm_iff.mpr sent
  have waiting : Collects Receiver.cleared (payload List.tail []) := collects_nil rfl
  obtain ⟨r', received, _⟩ := receiveAll_datagrams (show (0 : Nat) ≠ 1 by decide)
    [[127, 0, 0]] (by decide) (by decide) waiting
    (bounded_of_total closesUnit List.tail (by decide))
  obtain ⟨f, hf, hu⟩ := integrity vid' _ run arrived r' _ received [0, 0] (by decide)
  rw [List.mem_singleton.mp hf, flushPayload, flushChunks_payload] at hu
  have len := congrArg List.length hu
  rw [List.length_replicate] at len
  exact absurd len (by decide)

end LossyDelivery
