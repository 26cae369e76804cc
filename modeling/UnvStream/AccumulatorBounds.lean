import UnvStream.FragmentedDelivery

/-!
# Bounds of the server's accumulator

The copy loop writes behind the bytes earlier passes left in `pOutBufferVid`, so the
lengths of the frames alone decide whether a run stays inside the buffer.
-/

namespace AccumulatorBounds

open Vocabulary FragmentLoop FragmentedDelivery

/-- Every pass finds room for its frame, starting from `size` bytes. -/
def FitsBuffer : Nat → List EncodedFrame → Prop
  | _, [] => True
  | size, frame :: frames => accumulatedSize size frame.bytes.length ≤ outBufferSize ∧
      FitsBuffer (sizeLeft size frame.bytes.length) frames

/-- A run is a first pass that finds room and a run from the state it leaves, which is the
same whether the video is sent or saved. -/
theorem videoRun_cons (vid : VideoBuffer) (frame : EncodedFrame) (frames : List EncodedFrame)
    (fits : accumulatedSize vid.pOutBufferVidSize frame.bytes.length ≤ outBufferSize) :
    ∃ vid' bytes, vid'.pOutBufferVidSize = sizeLeft vid.pOutBufferVidSize frame.bytes.length ∧
      bytes.length + 1 = accumulatedSize vid.pOutBufferVidSize frame.bytes.length ∧
      (writeOffset vid.pOutBufferVidSize = 1 → bytes = frame.bytes) ∧
      ∀ savevideo, videoRun ⟨.useUDP, .useMJPEG, savevideo⟩ vid (frame :: frames) =
        (videoRun ⟨.useUDP, .useMJPEG, savevideo⟩ vid' frames).map fun later =>
          (later.1, (if passFlushes vid frame.bytes then
            flushEmissions savevideo frame.bytes bytes else []) ++ later.2) := by
  obtain ⟨buf, bytes, length, behind, pass⟩ := fragmentFrame_spec vid frame.nonempty fits
  refine ⟨⟨buf, sizeLeft vid.pOutBufferVidSize frame.bytes.length⟩, bytes, rfl, length, behind,
    fun savevideo => ?_⟩
  rw [videoRun, videoPass_udp_mjpeg, pass savevideo, Option.map_eq_bind]
  rfl

theorem videoRun_overruns (savevideo : Bool) (vid : VideoBuffer) (frame : EncodedFrame)
    (frames : List EncodedFrame)
    (overrun : ¬ accumulatedSize vid.pOutBufferVidSize frame.bytes.length ≤ outBufferSize) :
    videoRun ⟨.useUDP, .useMJPEG, savevideo⟩ vid (frame :: frames) = none := by
  have fails : fragmentFrame savevideo vid frame.bytes = none :=
    Option.not_isSome_iff_eq_none.mp fun ran => overrun (fragmentFrame_fits frame.nonempty ran)
  rw [videoRun, videoPass_udp_mjpeg, fails]
  rfl

/-- The accumulator and the ranges handed over stay inside the buffer in exactly the runs
whose passes all find room, whether the video is sent or saved. -/
theorem in_bounds_iff_fits (savevideo : Bool) (vid : VideoBuffer) (frames : List EncodedFrame) :
    (videoRun ⟨.useUDP, .useMJPEG, savevideo⟩ vid frames).isSome ↔
      FitsBuffer vid.pOutBufferVidSize frames := by
  induction frames generalizing vid with
  | nil => exact ⟨fun _ => trivial, fun _ => rfl⟩
  | cons frame frames ih =>
    by_cases fits : accumulatedSize vid.pOutBufferVidSize frame.bytes.length ≤ outBufferSize
    · obtain ⟨vid', bytes, size, _, _, run⟩ := videoRun_cons vid frame frames fits
      have rest := ih vid'
      rw [size] at rest
      rw [run savevideo, Option.isSome_map, rest]
      exact ⟨fun later => ⟨fits, later⟩, fun all => all.2⟩
    · rw [videoRun_overruns savevideo vid frame frames fits]
      constructor
      · rintro ⟨⟩
      · exact fun all => absurd all.1 fits

/-- The encoder may fill all the room it is given; the header byte then pushes the last
byte of the frame out of the buffer. -/
theorem full_frame_overruns :
    videoRun ⟨.useUDP, .useMJPEG, false⟩ .cleared
      [zeroFrame 100000 (by decide) (by decide)] = none := by
  apply videoRun_overruns
  simp only [zeroFrame, List.length_replicate]
  decide

end AccumulatorBounds
