import UnvStream.FragmentedDelivery

/-!
# One flush of the fragmentation loop

Frames are collected until the size exceeds `MIN_FLUSH_BUFF_SIZE`. The flush that then
happens hands the collected bytes to `addFrame`, cut into chunks of bounded size that are
numbered up to the one with the remainder.
-/

namespace FlushFidelity

open MarkedFraming Vocabulary FragmentLoop FragmentedDelivery

/-- `pOutBufferVid_size` when the frames are collected with no flush in between. -/
def runningSize (size : Nat) (frames : List EncodedFrame) : Nat :=
  frames.foldl (fun size frame => accumulatedSize size frame.bytes.length) size

def bytesOf (frames : List EncodedFrame) : List UInt8 :=
  (frames.map EncodedFrame.bytes).flatten

@[simp] theorem runningSize_cons (size : Nat) (frame : EncodedFrame) (frames : List EncodedFrame) :
    runningSize size (frame :: frames) =
      runningSize (accumulatedSize size frame.bytes.length) frames := rfl

theorem bytesOf_cons (frame : EncodedFrame) (frames : List EncodedFrame) :
    bytesOf (frame :: frames) = frame.bytes ++ bytesOf frames := by
  simp [bytesOf]

/-- The passes up to the first flush emit nothing, and the flush everything they collected. -/
theorem run_to_flush {vid : VideoBuffer} {held : List UInt8} (acc : Accumulates vid held)
    (start : vid.pOutBufferVidSize ≤ minFlushBuffSize) (frames : List EncodedFrame)
    (first : ∀ k < frames.length,
      runningSize vid.pOutBufferVidSize (frames.take k) ≤ minFlushBuffSize)
    (exceeds : minFlushBuffSize < runningSize vid.pOutBufferVidSize frames)
    (fits : runningSize vid.pOutBufferVidSize frames ≤ outBufferSize) :
    ∃ vid', videoRun ⟨.useUDP, .useMJPEG, false⟩ vid frames =
        some (vid', (flushChunks (held ++ bytesOf frames)).map .addFrame) ∧
      (held ++ bytesOf frames).length + 1 = runningSize vid.pOutBufferVidSize frames := by
  induction frames generalizing vid held with
  | nil => exact absurd exceeds (Nat.not_lt.mpr start)
  | cons frame frames ih =>
    have size := acc.accumulatedSize_eq frame.bytes
    have below : minFlushBuffSize ≤ outBufferSize := by decide
    by_cases big : minFlushBuffSize < accumulatedSize vid.pOutBufferVidSize frame.bytes.length
    · cases frames with
      | nil =>
        have fits' : (held ++ frame.bytes).length + 1 ≤ outBufferSize := size ▸ fits
        obtain ⟨vid', pass, _⟩ := fragmentFrame_flushes acc fits'
          ((passFlushes_iff vid frame.bytes).mpr big)
        refine ⟨vid', ?_, ?_⟩
        · simp only [videoRun, videoPass_udp_mjpeg, pass, bytesOf, List.map_cons, List.map_nil,
            List.flatten_singleton, List.append_nil, Option.bind_eq_bind, Option.bind_some,
            Option.pure_def]
        · rw [bytesOf, List.map_singleton, List.flatten_singleton]
          exact size.symm
      | cons next rest =>
        have small := first 1 (by simp)
        exact absurd big (Nat.not_lt.mpr small)
    · have small : passFlushes vid frame.bytes = false := by simp [passFlushes, big]
      obtain ⟨vid1, pass, acc1⟩ := fragmentFrame_collects acc frame.nonempty (by omega) small
      have size1 : vid1.pOutBufferVidSize =
          accumulatedSize vid.pOutBufferVidSize frame.bytes.length := by
        rw [acc1.size, if_neg (by simp [frame.nonempty]), size]
      obtain ⟨vid', run, length⟩ := ih acc1 (by omega)
        (fun k hk => size1 ▸ first (k + 1) (Nat.succ_lt_succ hk)) (size1 ▸ exceeds) (size1 ▸ fits)
      rw [List.append_assoc, ← bytesOf_cons] at run length
      refine ⟨vid', ?_, ?_⟩
      · simp only [videoRun, videoPass_udp_mjpeg, pass, run, Option.bind_eq_bind,
          Option.bind_some, List.nil_append, Option.pure_def]
      · rw [length, size1, runningSize_cons]

/-- A datagram has a header and at least one byte of payload, and at most a whole chunk. -/
theorem flushChunks_sizes {bytes : List UInt8} (hne : bytes ≠ []) :
    ∀ c ∈ flushChunks bytes, 2 ≤ c.length ∧ c.length ≤ maxFlushBuffSize + 1 := by
  have pos := maxFlushBuffSize_pos
  have two : 2 ≤ maxFlushBuffSize := by decide
  have some' := List.length_pos_iff.mpr hne
  intro c hc
  obtain ⟨short, rfl⟩ | ⟨long, chunk⟩ := mem_flushChunks hc
  · rw [List.length_cons]
    omega
  · obtain ⟨hq, hsize⟩ := quotient_fits long
    have lower : maxFlushBuffSize ≤
        (bytes.length + 1) / maxFlushBuffSize * maxFlushBuffSize := Nat.le_mul_of_pos_left _ hq
    obtain rfl | ⟨k, _, hk, rfl⟩ | ⟨rem, rfl⟩ := chunk
    · rw [List.length_cons, List.length_take]
      omega
    · have le : (k + 1) * maxFlushBuffSize ≤
          (bytes.length + 1) / maxFlushBuffSize * maxFlushBuffSize := Nat.mul_le_mul_right _ hk
      rw [Nat.add_mul, Nat.one_mul] at le
      rw [List.length_cons, List.length_take, List.length_drop]
      omega
    · have bound := Nat.mod_lt (bytes.length + 1) pos
      rw [List.length_cons, List.length_drop]
      omega

/-- A flush that is cut numbers its chunks from 0, and marks the remainder only. -/
theorem flushChunks_numbered {bytes : List UInt8} (fits : bytes.length + 1 ≤ outBufferSize)
    (long : maxFlushBuffSize < bytes.length + 1) :
    ∃ numbered remainder, flushChunks bytes = numbered ++ remainder ∧
      numbered.length = (bytes.length + 1) / maxFlushBuffSize ∧
      numbered.map List.head? = (List.range numbered.length).map (fun k => some (UInt8.ofNat k)) ∧
      (∀ c ∈ numbered, c.head? ≠ some 127) ∧
      (remainder = [] ∨ ∃ rest, remainder = [127 :: rest]) := by
  obtain ⟨hq, _⟩ := quotient_fits long
  refine ⟨_, _, by simp only [flushChunks, if_pos long]; rfl, ?_, ?_, ?_, ?_⟩
  · rw [List.length_cons, List.length_map, List.length_range']
    omega
  · rw [List.length_cons, List.length_map, List.length_range', List.range_eq_range',
      List.range'_succ]
    simp
  · intro c hc
    have numbered := numbered_chunks_open bytes fits c hc
    simpa [closesUnit] using numbered
  · by_cases rem : 0 < (bytes.length + 1) % maxFlushBuffSize
    · rw [if_pos rem]
      exact Or.inr ⟨_, rfl⟩
    · rw [if_neg rem]
      exact Or.inl rfl

/-- From an empty accumulator the first flush hands over exactly the collected frames. -/
theorem flush_fidelity (vid : VideoBuffer) (empty : vid.pOutBufferVidSize = 0)
    (frames : List EncodedFrame)
    (first : ∀ k < frames.length, runningSize 0 (frames.take k) ≤ minFlushBuffSize)
    (exceeds : minFlushBuffSize < runningSize 0 frames)
    (fits : runningSize 0 frames ≤ outBufferSize) :
    ∃ vid' chunks, videoRun ⟨.useUDP, .useMJPEG, false⟩ vid frames =
        some (vid', chunks.map .addFrame) ∧
      payload List.tail chunks = bytesOf frames ∧
      (∀ c ∈ chunks, 2 ≤ c.length ∧ c.length ≤ maxFlushBuffSize + 1) ∧
      (maxFlushBuffSize < runningSize 0 frames →
        ∃ numbered remainder, chunks = numbered ++ remainder ∧
          numbered.length = runningSize 0 frames / maxFlushBuffSize ∧
          numbered.map List.head? =
            (List.range numbered.length).map (fun k => some (UInt8.ofNat k)) ∧
          (∀ c ∈ numbered, c.head? ≠ some 127) ∧
          (remainder = [] ∨ ∃ rest, remainder = [127 :: rest])) := by
  have start : vid.pOutBufferVidSize ≤ minFlushBuffSize := by omega
  obtain ⟨vid', run, length⟩ := run_to_flush (accumulates_nil empty) start frames
    (fun k hk => empty ▸ first k hk) (empty ▸ exceeds) (empty ▸ fits)
  rw [List.nil_append] at run length
  rw [empty] at length
  have hne : bytesOf frames ≠ [] := by
    have pos : 0 < minFlushBuffSize := by decide
    apply List.length_pos_iff.mp
    omega
  refine ⟨vid', _, run, flushChunks_payload _, flushChunks_sizes hne, ?_⟩
  rw [← length] at fits ⊢
  exact flushChunks_numbered fits

theorem one_frame_flushed :
    ∃ vid' chunks, videoRun ⟨.useUDP, .useMJPEG, false⟩ .cleared
        [zeroFrame 20001 (by decide) (by decide)] = some (vid', chunks.map .addFrame) ∧
      payload List.tail chunks = List.replicate 20001 0 := by
  have bytes : bytesOf [zeroFrame 20001 (by decide) (by decide)] = List.replicate 20001 0 := by
    rw [bytesOf, List.map_singleton, List.flatten_singleton]
    rfl
  have size : runningSize 0 [zeroFrame 20001 (by decide) (by decide)] = 20002 := by
    simp only [runningSize, List.foldl_cons, List.foldl_nil, zeroFrame, List.length_replicate]
    rfl
  have first : ∀ k < 1, runningSize 0 ([zeroFrame 20001 (by decide) (by decide)].take k) ≤
      minFlushBuffSize := by
    intro k hk
    obtain rfl := Nat.lt_one_iff.mp hk
    exact Nat.zero_le _
  obtain ⟨vid', chunks, run, sent, _⟩ := flush_fidelity .cleared rfl
    [zeroFrame 20001 (by decide) (by decide)] first (by rw [size]; decide) (by rw [size]; decide)
  exact ⟨vid', chunks, run, sent.trans bytes⟩

end FlushFidelity
