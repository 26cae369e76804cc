import UnvStream.AccumulatorBounds

/-!
# The saved video against the transmitted video

The fragmentation loop either sends its chunks or saves them. Two runs over the same
frames keep the same accumulator, so they differ in what they emit only. They disagree
where a flush that is not cut saves `packetBufferVid` and not the collected bytes.
-/

namespace SavedVideo

open MarkedFraming Vocabulary FragmentLoop FragmentedDelivery AccumulatorBounds

/-- The bytes written to `pOutputVideo`. -/
def savedBytes (emissions : List Emission) : List UInt8 :=
  (emissions.filterMap fun
    | .addFrame _ => none
    | .saved data => some data).flatten

/-- The bytes that reach `addFrame`, without the header of each datagram. -/
def sentBytes (emissions : List Emission) : List UInt8 :=
  payload List.tail (addFrameCalls emissions)

/-- Every flush that is not cut carries the bytes of its own frame only: nothing was
collected before it. -/
def FlushesAlone : Nat → List EncodedFrame → Prop
  | _, [] => True
  | size, frame :: frames =>
      (minFlushBuffSize < accumulatedSize size frame.bytes.length →
        accumulatedSize size frame.bytes.length ≤ maxFlushBuffSize → size ≤ 1) ∧
      FlushesAlone (sizeLeft size frame.bytes.length) frames

theorem savedBytes_append (first later : List Emission) :
    savedBytes (first ++ later) = savedBytes first ++ savedBytes later := by
  simp [savedBytes, List.filterMap_append]

theorem sentBytes_append (first later : List Emission) :
    sentBytes (first ++ later) = sentBytes first ++ sentBytes later := by
  simp [sentBytes, addFrameCalls, List.filterMap_append, payload_append]

theorem savedBytes_chunks (chunks : List (List UInt8)) :
    savedBytes (chunks.map (emission true)) = payload List.tail chunks := by
  simp [savedBytes, emission, payload, List.filterMap_map, Function.comp_def]

theorem sentBytes_flush (packet bytes : List UInt8) :
    sentBytes (flushEmissions false packet bytes) = bytes := by
  rw [flushEmissions_sent, sentBytes, addFrameCalls_map, flushChunks_payload]

theorem savedBytes_flush (packet bytes : List UInt8) :
    savedBytes (flushEmissions true packet bytes) =
      if bytes.length + 1 ≤ maxFlushBuffSize then packet else bytes := by
  by_cases short : bytes.length + 1 ≤ maxFlushBuffSize
  · simp [flushEmissions, short, savedBytes]
  · simp only [flushEmissions, short, and_false, if_false]
    rw [savedBytes_chunks, flushChunks_payload]

theorem append_eq_iff {α : Type} {a b c d : List α} (first : a.length ≤ c.length)
    (second : b.length ≤ d.length) : a ++ b = c ++ d ↔ a = c ∧ b = d := by
  constructor
  · intro same
    have lengths := congrArg List.length same
    rw [List.length_append, List.length_append] at lengths
    exact List.append_inj same (by omega)
  · rintro ⟨rfl, rfl⟩
    rfl

/-- One flush saves at most what it sends, and the same exactly when it is cut or its
frame is all it carries. -/
theorem flush_saved_against_sent {size : Nat} {packet bytes : List UInt8} (hne : packet ≠ [])
    (length : bytes.length + 1 = accumulatedSize size packet.length)
    (behind : writeOffset size = 1 → bytes = packet) :
    (savedBytes (flushEmissions true packet bytes)).length ≤
        (sentBytes (flushEmissions false packet bytes)).length ∧
      (savedBytes (flushEmissions true packet bytes) =
          sentBytes (flushEmissions false packet bytes) ↔
        (accumulatedSize size packet.length ≤ maxFlushBuffSize → size ≤ 1)) := by
  have span := writeOffset_add size packet.length
  rw [sentBytes_flush, savedBytes_flush, ← length]
  by_cases short : bytes.length + 1 ≤ maxFlushBuffSize
  · rw [if_pos short]
    by_cases alone : size ≤ 1
    · have offset : writeOffset size = 1 := by
        unfold writeOffset
        split <;> omega
      obtain rfl := behind offset
      exact ⟨Nat.le_refl _, fun _ _ => alone, fun _ => rfl⟩
    · have offset : writeOffset size = size := if_neg (by omega)
      refine ⟨by omega, ?_, fun all => absurd (all short) alone⟩
      intro same
      have lengths := congrArg List.length same
      omega
  · rw [if_neg short]
    exact ⟨Nat.le_refl _, fun _ h => absurd h short, fun _ => rfl⟩

/-- The two runs over the same frames, compared by what they emit. -/
theorem saved_against_sent (vid : VideoBuffer) (frames : List EncodedFrame)
    (fits : FitsBuffer vid.pOutBufferVidSize frames) :
    ∃ vid' sent saved,
      videoRun ⟨.useUDP, .useMJPEG, false⟩ vid frames = some (vid', sent) ∧
      videoRun ⟨.useUDP, .useMJPEG, true⟩ vid frames = some (vid', saved) ∧
      (savedBytes saved).length ≤ (sentBytes sent).length ∧
      (savedBytes saved = sentBytes sent ↔ FlushesAlone vid.pOutBufferVidSize frames) := by
  induction frames generalizing vid with
  | nil => exact ⟨vid, [], [], rfl, rfl, Nat.le_refl _, fun _ => trivial, fun _ => rfl⟩
  | cons frame frames ih =>
    obtain ⟨vid1, bytes, size, length, behind, run⟩ := videoRun_cons vid frame frames fits.1
    obtain ⟨vid', sent, saved, runSent, runSaved, shorter, same⟩ := ih vid1 (size ▸ fits.2)
    rw [size] at same
    refine ⟨vid', _, _, by rw [run false, runSent]; rfl, by rw [run true, runSaved]; rfl, ?_⟩
    rw [savedBytes_append, sentBytes_append, List.length_append, List.length_append]
    cases flushes : passFlushes vid frame.bytes with
    | false =>
      have small : ¬ minFlushBuffSize <
          accumulatedSize vid.pOutBufferVidSize frame.bytes.length := by
        rw [← passFlushes_iff, flushes]
        exact Bool.false_ne_true
      refine ⟨Nat.add_le_add (Nat.le_refl 0) shorter, ?_⟩
      constructor
      · exact fun equal => ⟨fun big => absurd big small, same.mp equal⟩
      · exact fun alone => same.mpr alone.2
    | true =>
      have big := (passFlushes_iff vid frame.bytes).mp flushes
      obtain ⟨shorter1, same1⟩ := flush_saved_against_sent frame.nonempty length behind
      rw [if_pos rfl, if_pos rfl]
      refine ⟨Nat.add_le_add shorter1 shorter, ?_⟩
      rw [append_eq_iff shorter1 shorter, same1, same]
      constructor
      · exact fun both => ⟨fun _ => both.1, both.2⟩
      · exact fun alone => ⟨alone.1 big, alone.2⟩

/-- The saved video is the transmitted video in exactly the runs whose flushes of a single
datagram carry one frame each. -/
theorem saved_iff_flushes_alone (vid : VideoBuffer) (frames : List EncodedFrame)
    (fits : FitsBuffer vid.pOutBufferVidSize frames) :
    ∃ vid' sent saved,
      videoRun ⟨.useUDP, .useMJPEG, false⟩ vid frames = some (vid', sent) ∧
      videoRun ⟨.useUDP, .useMJPEG, true⟩ vid frames = some (vid', saved) ∧
      (savedBytes saved = payload List.tail (addFrameCalls sent) ↔
        FlushesAlone vid.pOutBufferVidSize frames) := by
  obtain ⟨vid', sent, saved, runSent, runSaved, _, same⟩ := saved_against_sent vid frames fits
  exact ⟨vid', sent, saved, runSent, runSaved, same⟩

theorem one_frame_saved :
    ∃ vid' sent saved,
      videoRun ⟨.useUDP, .useMJPEG, false⟩ .cleared [zeroFrame 1600 (by decide) (by decide)] =
        some (vid', sent) ∧
      videoRun ⟨.useUDP, .useMJPEG, true⟩ .cleared [zeroFrame 1600 (by decide) (by decide)] =
        some (vid', saved) ∧
      savedBytes saved = payload List.tail (addFrameCalls sent) := by
  have fits : FitsBuffer 0 [zeroFrame 1600 (by decide) (by decide)] := by
    refine ⟨?_, trivial⟩
    simp only [zeroFrame, List.length_replicate]
    decide
  obtain ⟨vid', sent, saved, runSent, runSaved, same⟩ := saved_iff_flushes_alone .cleared _ fits
  exact ⟨vid', sent, saved, runSent, runSaved, same.mpr ⟨fun _ _ => Nat.zero_le 1, trivial⟩⟩

/-- Two frames of 1000 bytes leave in one datagram; the file gets the second one only. -/
theorem two_frames_not_saved :
    FitsBuffer 0 [zeroFrame 1000 (by decide) (by decide), zeroFrame 1000 (by decide) (by decide)] ∧
    ∃ vid' sent saved,
      videoRun ⟨.useUDP, .useMJPEG, false⟩ .cleared
        [zeroFrame 1000 (by decide) (by decide), zeroFrame 1000 (by decide) (by decide)] =
        some (vid', sent) ∧
      videoRun ⟨.useUDP, .useMJPEG, true⟩ .cleared
        [zeroFrame 1000 (by decide) (by decide), zeroFrame 1000 (by decide) (by decide)] =
        some (vid', saved) ∧
      savedBytes saved ≠ payload List.tail (addFrameCalls sent) := by
  have fits : FitsBuffer 0
      [zeroFrame 1000 (by decide) (by decide), zeroFrame 1000 (by decide) (by decide)] := by
    refine ⟨?_, ?_, trivial⟩
    · simp only [zeroFrame, List.length_replicate]
      decide
    · simp only [zeroFrame, List.length_replicate]
      decide
  obtain ⟨vid', sent, saved, runSent, runSaved, _, same⟩ := saved_against_sent .cleared _ fits
  refine ⟨fits, vid', sent, saved, runSent, runSaved, fun equal => ?_⟩
  have second := (same.mp equal).2.1
  simp only [zeroFrame, List.length_replicate] at second
  exact absurd (second (by decide) (by decide)) (by decide)

end SavedVideo
