import UnvStream.VideoLoop
import UnvStream.FlushInterleaving
import UnvStream.WholeFrameDelivery
import Mathlib.Data.List.Flatten
import Mathlib.Data.List.Nodup

/-!
# What a run of the video loop leaves behind

The outputs of a finished run, from the frames it has encoded: which bytes are in `test.264`, in
the output file and on their way to the client, which pictures are on the disk, and what
`stats.csv` says.
-/

namespace VideoOutputs

open FragmentLoop FragmentedDelivery AccumulatorBounds FrameSender ClientReceiver SavedFrames
open SavedVideo NumberTable Vocabulary WholeFrameDelivery VideoLoop

variable {opts : Options} {video : Video} {ps : List Packet} {l : Loop}

/-- The bytes of the frames that a run encodes. -/
def encodedBytes (opts : Options) (video : Video) (ps : List Packet) : List (List UInt8) :=
  (encodedFrames (encodes opts video.iVideoStream ps)).map EncodedFrame.bytes

/-- The frames are cut into chunks and collected. -/
def Fragmented (opts : Options) : Prop := opts.transport = .useUDP ∧ opts.vcodec = .useMJPEG

/-- A run that ends has written what each loop writes on its own. -/
theorem run_outputs (run : runVideoLoop opts video .start ps = some l) :
    pictures opts video 0 (encodes opts video.iVideoStream ps) = some l.out.files ∧
      networkRun opts .cleared (encodedFrames (encodes opts video.iVideoStream ps)) =
        some (l.out.vid, l.out.emissions) ∧
      l.out.test = testBytes opts (encodedFrames (encodes opts video.iVideoStream ps)) ∧
      l.out.statistics = printTable [] (rows 0 (encodes opts video.iVideoStream ps)) := by
  have whole := run_separately opts video ps
  rw [run, Option.map_some] at whole
  obtain ⟨files, saved, rest⟩ := Option.bind_eq_some_iff.mp whole.symm
  obtain ⟨⟨vid, emissions⟩, networked, out⟩ := Option.bind_eq_some_iff.mp rest
  rw [← Option.some.inj out]
  exact ⟨saved, networked, rfl, rfl⟩

/-- A flush goes to the file as a whole or to `addFrame` as a whole. -/
theorem flushEmissions_kind (savevideo : Bool) (packet bytes : List UInt8) :
    (savevideo = true → addFrameCalls (flushEmissions savevideo packet bytes) = []) ∧
      (savevideo = false → savedBytes (flushEmissions savevideo packet bytes) = []) := by
  constructor
  · rintro rfl
    unfold flushEmissions
    split
    · rfl
    · simp [addFrameCalls, emission, List.filterMap_map, Function.comp_def]
  · rintro rfl
    rw [flushEmissions_sent]
    simp [savedBytes, List.filterMap_map]

theorem addFrameCalls_append (first later : List Emission) :
    addFrameCalls (first ++ later) = addFrameCalls first ++ addFrameCalls later :=
  List.filterMap_append

/-- The fragmentation loop either saves all it emits or sends all of it. -/
theorem videoRun_kind {savevideo : Bool} {vid vid' : VideoBuffer} {frames : List EncodedFrame}
    {emissions : List Emission}
    (run : videoRun ⟨.useUDP, .useMJPEG, savevideo⟩ vid frames = some (vid', emissions)) :
    (savevideo = true → addFrameCalls emissions = []) ∧
      (savevideo = false → savedBytes emissions = []) := by
  induction frames generalizing vid emissions with
  | nil =>
    obtain rfl := (Prod.mk.inj (Option.some.inj run)).2
    exact ⟨fun _ => rfl, fun _ => rfl⟩
  | cons frame frames ih =>
    by_cases fits : accumulatedSize vid.pOutBufferVidSize frame.bytes.length ≤ outBufferSize
    · obtain ⟨vid1, bytes, _, _, _, whole⟩ := videoRun_cons vid frame frames fits
      rw [whole savevideo] at run
      obtain ⟨⟨vid2, later⟩, rest, same⟩ := Option.map_eq_some_iff.mp run
      obtain ⟨rfl, rfl⟩ := Prod.mk.inj same
      obtain ⟨sent, saved⟩ := ih rest
      obtain ⟨sentHere, savedHere⟩ := flushEmissions_kind savevideo frame.bytes bytes
      constructor
      · intro saving
        rw [addFrameCalls_append, sent saving]
        split
        · rw [sentHere saving, List.append_nil]
        · rfl
      · intro sending
        rw [savedBytes_append, saved sending]
        split
        · rw [savedHere sending, List.append_nil]
        · rfl
    · rw [videoRun_overruns savevideo vid frame frames fits] at run
      cases run

theorem networkRun_whole (whole : ¬ Fragmented opts) (vid : VideoBuffer)
    (frames : List EncodedFrame) : networkRun opts vid frames =
      some (vid, ((if 0 < opts.networkport then frames else []).map EncodedFrame.bytes).map
        .addFrame) := by
  have mode : ¬ (opts.cliOpts.transport = .useUDP ∧ opts.cliOpts.vcodec = .useMJPEG) := whole
  by_cases connected : 0 < opts.networkport
  · rw [networkRun, if_pos connected, if_pos connected, videoRun_unfragmented mode]
  · rw [networkRun, if_neg connected, if_neg connected]
    rfl

private def shownPacket : Packet :=
  ⟨false, 0, true, ⟨8, #v[1, 2, 3, 0, 0, 4, 5, 6], 5⟩, Vector.replicate 32 ' ',
    .frame ⟨[7, 8, 9], by decide, by decide⟩, 40⟩

private def recordingOptions : Options := ⟨8000, .useTCP, .useH264, true, 1, 0⟩

private theorem recording_run :
    ∃ l, runVideoLoop recordingOptions ⟨0, 1, 2⟩ .start [shownPacket] = some l := ⟨_, rfl⟩

theorem test_of_run (run : runVideoLoop opts video .start ps = some l) :
    l.out.test = if opts.savevideo then (encodedBytes opts video ps).flatten else [] := by
  rw [(run_outputs run).2.2.1, testBytes, encodedBytes, List.flatMap_def]

theorem fragmented_emissions (run : runVideoLoop opts video .start ps = some l)
    (fragmented : Fragmented opts) :
    (opts.savevideo = true → addFrameCalls l.out.emissions = []) ∧
      (opts.savevideo = false → savedBytes l.out.emissions = []) := by
  have mode : opts.cliOpts = ⟨.useUDP, .useMJPEG, opts.savevideo⟩ := by
    rw [Options.cliOpts, fragmented.1, fragmented.2]
  have networked := (run_outputs run).2.1
  rw [networkRun, mode] at networked
  split at networked
  · exact videoRun_kind networked
  · rw [← (Prod.mk.inj (Option.some.inj networked)).2]
    exact ⟨fun _ => rfl, fun _ => rfl⟩

theorem whole_emissions (run : runVideoLoop opts video .start ps = some l)
    (whole : ¬ Fragmented opts) :
    savedBytes l.out.emissions = [] ∧ addFrameCalls l.out.emissions =
      if 0 < opts.networkport then encodedBytes opts video ps else [] := by
  have networked := (run_outputs run).2.1
  rw [networkRun_whole whole] at networked
  rw [← (Prod.mk.inj (Option.some.inj networked)).2]
  constructor
  · simp [savedBytes, List.filterMap_map, Function.comp_def]
  · rw [addFrameCalls_map, encodedBytes]
    split <;> rfl

/-- The buffer keeps bytes for its next flush, too few for one. -/
structure Waits (vid : VideoBuffer) (waiting : List UInt8) : Prop where
  held : Accumulates vid waiting
  short : vid.pOutBufferVidSize ≤ minFlushBuffSize

theorem Waits.length_lt {vid : VideoBuffer} {waiting : List UInt8} (waits : Waits vid waiting) :
    waiting.length < minFlushBuffSize := by
  have size := waits.held.size
  have short := waits.short
  split at size
  · rename_i empty
    rw [empty]
    decide
  · omega

theorem waits_nil {vid : VideoBuffer} (cleared : vid.pOutBufferVidSize = 0) : Waits vid [] :=
  ⟨accumulates_nil cleared, cleared ▸ Nat.zero_le _⟩

/-- What a pass sends of the bytes that have waited and those of its frame. -/
inductive Passed (bytes : List UInt8) (vid' : VideoBuffer) : List Emission → Prop where
  | keeps : Waits vid' bytes → Passed bytes vid' []
  | flushes : bytes.length + 1 ≤ outBufferSize → ¬ ExactMultiple (bytes.length + 1) →
      Waits vid' [] → Passed bytes vid' ((flushChunks bytes).map .addFrame)

theorem pass_waits {vid vid' : VideoBuffer} {waiting : List UInt8} (waits : Waits vid waiting)
    (frame : EncodedFrame) {emissions : List Emission}
    (remainder : ¬ ExactMultiple (accumulatedSize vid.pOutBufferVidSize frame.bytes.length))
    (pass : fragmentFrame false vid frame.bytes = some (vid', emissions)) :
    Passed (waiting ++ frame.bytes) vid' emissions ∧
      vid'.pOutBufferVidSize = sizeAfter vid.pOutBufferVidSize frame.bytes.length := by
  have fits := fragmentFrame_fits frame.nonempty (Option.isSome_iff_exists.mpr ⟨_, pass⟩)
  have size := waits.held.accumulatedSize_eq frame.bytes
  rw [size] at fits remainder
  by_cases big : minFlushBuffSize < (waiting ++ frame.bytes).length + 1
  · have flushes : passFlushes vid frame.bytes = true :=
      (passFlushes_iff vid frame.bytes).mpr (size ▸ big)
    obtain ⟨vid1, pass', cleared⟩ := fragmentFrame_flushes waits.held fits flushes
    obtain ⟨rfl, rfl⟩ := Prod.mk.inj (Option.some.inj (pass.symm.trans pass'))
    rw [if_neg remainder] at cleared
    refine ⟨.flushes fits remainder (waits_nil cleared), ?_⟩
    rw [cleared, sizeAfter, if_pos (size ▸ big)]
  · have small : passFlushes vid frame.bytes = false := by
      rw [← Bool.not_eq_true, passFlushes_iff, size]
      exact big
    obtain ⟨vid1, pass', held⟩ :=
      fragmentFrame_collects waits.held frame.nonempty fits small
    obtain ⟨rfl, rfl⟩ := Prod.mk.inj (Option.some.inj (pass.symm.trans pass'))
    have kept := held.size
    rw [if_neg (by simp [frame.nonempty])] at kept
    refine ⟨.keeps ⟨held, ?_⟩, ?_⟩
    · rw [kept]
      exact Nat.le_of_not_lt big
    · rw [kept, sizeAfter, if_neg (size ▸ big), size]

/-- What goes into the fragmentation loop is sent or waits. -/
theorem videoRun_sends {vid vid' : VideoBuffer} {waiting : List UInt8} (waits : Waits vid waiting)
    (frames : List EncodedFrame) {emissions : List Emission}
    (remainders : LeavesRemainders vid.pOutBufferVidSize frames)
    (run : videoRun ⟨.useUDP, .useMJPEG, false⟩ vid frames = some (vid', emissions)) :
    ∃ waiting', waiting ++ (frames.map EncodedFrame.bytes).flatten =
      sentBytes emissions ++ waiting' ∧ Waits vid' waiting' := by
  induction frames generalizing vid waiting emissions with
  | nil =>
    obtain ⟨rfl, rfl⟩ := Prod.mk.inj (Option.some.inj run)
    exact ⟨waiting, List.append_nil _, waits⟩
  | cons frame frames ih =>
    obtain ⟨⟨vid1, first⟩, pass, rest⟩ := Option.bind_eq_some_iff.mp run
    obtain ⟨⟨vid2, later⟩, run', same⟩ := Option.bind_eq_some_iff.mp rest
    obtain ⟨rfl, rfl⟩ := Prod.mk.inj (Option.some.inj same)
    rw [videoPass_udp_mjpeg] at pass
    obtain ⟨passed, size⟩ := pass_waits waits frame remainders.1 pass
    rw [List.map_cons, List.flatten_cons, ← List.append_assoc, sentBytes_append]
    cases passed with
    | keeps waits1 => exact ih waits1 (size ▸ remainders.2) run'
    | flushes _ _ waits1 =>
      obtain ⟨waiting', parts, waits2⟩ := ih waits1 (size ▸ remainders.2) run'
      have flushed : sentBytes ((flushChunks (waiting ++ frame.bytes)).map .addFrame) =
          waiting ++ frame.bytes := by
        rw [sentBytes, addFrameCalls_map, flushChunks_payload]
      refine ⟨waiting', ?_, waits2⟩
      rw [flushed, List.append_assoc (waiting ++ frame.bytes), ← parts, List.nil_append]

/-- Without `savevideo`, the fragments carry the encoded bytes up to the last flush. -/
theorem fragments_carry (run : runVideoLoop opts video .start ps = some l)
    (fragmented : Fragmented opts) (sending : opts.savevideo = false)
    (networked : 0 < opts.networkport)
    (remainders : LeavesRemainders 0 (encodedFrames (encodes opts video.iVideoStream ps))) :
    ∃ waiting, (encodedBytes opts video ps).flatten = sentBytes l.out.emissions ++ waiting ∧
      waiting.length < minFlushBuffSize := by
  have mode : opts.cliOpts = ⟨.useUDP, .useMJPEG, false⟩ := by
    rw [Options.cliOpts, fragmented.1, fragmented.2, sending]
  have loopRun := (run_outputs run).2.1
  rw [networkRun, if_pos networked, mode] at loopRun
  obtain ⟨waiting, parts, waits⟩ := videoRun_sends (waits_nil rfl) _ remainders loopRun
  exact ⟨waiting, parts, waits.length_lt⟩

theorem offline_emissions (run : runVideoLoop opts video .start ps = some l)
    (offline : ¬ 0 < opts.networkport) : l.out.emissions = [] := by
  have loopRun := (run_outputs run).2.1
  rw [networkRun, if_neg offline] at loopRun
  exact (Prod.mk.inj (Option.some.inj loopRun)).2.symm

/-- Where the bytes of a finished run have gone. With `savevideo`, all of them are in `test.264`.
With it no fragment goes to the network, and without it none to the output file: the fragments
then carry all bytes but the few that wait for a flush. Whole frames never go to the output
file, and without a network nothing goes anywhere else. -/
theorem destinations (run : runVideoLoop opts video .start ps = some l) :
    l.out.test = (if opts.savevideo then (encodedBytes opts video ps).flatten else []) ∧
    (Fragmented opts → opts.savevideo = true → addFrameCalls l.out.emissions = []) ∧
    (Fragmented opts → opts.savevideo = false → savedBytes l.out.emissions = [] ∧
      (0 < opts.networkport →
        LeavesRemainders 0 (encodedFrames (encodes opts video.iVideoStream ps)) →
        ∃ waiting, (encodedBytes opts video ps).flatten = sentBytes l.out.emissions ++ waiting ∧
          waiting.length < minFlushBuffSize)) ∧
    (¬ Fragmented opts → savedBytes l.out.emissions = [] ∧ addFrameCalls l.out.emissions =
      if 0 < opts.networkport then encodedBytes opts video ps else []) ∧
    (¬ 0 < opts.networkport → l.out.emissions = []) := by
  refine ⟨test_of_run run, ?_, ?_, whole_emissions run, offline_emissions run⟩
  · exact fun fragmented => (fragmented_emissions run fragmented).1
  · exact fun fragmented sending =>
      ⟨(fragmented_emissions run fragmented).2 sending, fragments_carry run fragmented sending⟩

theorem recording_destinations :
    ∃ l, runVideoLoop recordingOptions ⟨0, 1, 2⟩ .start [shownPacket] = some l ∧
      l.out.test = [7, 8, 9] ∧ addFrameCalls l.out.emissions = [[7, 8, 9]] := by
  obtain ⟨l, run⟩ := recording_run
  obtain ⟨test, _, _, sent, _⟩ := destinations run
  refine ⟨l, run, test, (sent ?_).2⟩
  rintro ⟨⟨⟩, _⟩

/-- The frames with bytes, by number and length, for frames numbered from `n` on. -/
def numbered (n : Nat) (frames : List Packet) : List (Nat × Nat) :=
  (frames.zipIdx n).filterMap fun q => q.1.encoded.frame?.map fun frame =>
    (q.2, frame.bytes.length)

theorem numbered_cons (n : Nat) (p : Packet) (frames : List Packet) :
    numbered n (p :: frames) =
      (p.encoded.frame?.toList.map fun frame => (n, frame.bytes.length)) ++
        numbered (n + 1) frames := by
  rw [numbered, List.zipIdx_cons]
  cases encoded : p.encoded.frame? <;> simp [numbered, encoded]

theorem rows_numbered (n : Nat) (frames : List Packet) :
    rows n frames = (numbered n frames).map fun row => [(row.1 : Int), (row.2 : Int)] := by
  induction frames generalizing n with
  | nil => rfl
  | cons p frames ih =>
    rw [numbered_cons, rows, List.map_append, ih]
    cases p.encoded.frame? <;> rfl

theorem numbered_lengths (n : Nat) (frames : List Packet) :
    (numbered n frames).map Prod.snd =
      (encodedFrames frames).map fun frame => frame.bytes.length := by
  induction frames generalizing n with
  | nil => rfl
  | cons p frames ih =>
    rw [numbered_cons, encodedFrames_cons, List.map_append, List.map_append, ih]
    cases encoded : p.encoded.frame? <;> simp [encodedFrames, encoded]

/-- A row belongs to the frame of its number. -/
theorem mem_numbered {n : Nat} {frames : List Packet} {row : Nat × Nat}
    (among : row ∈ numbered n frames) : n ≤ row.1 ∧
      ∃ p, frames[row.1 - n]? = some p ∧ p.encoded.iEncodedBytes = row.2 := by
  obtain ⟨⟨p, i⟩, there, kept⟩ := List.mem_filterMap.mp among
  obtain ⟨frame, encoded, rfl⟩ := Option.map_eq_some_iff.mp kept
  obtain ⟨above, inside⟩ := List.mk_mem_zipIdx_iff_le_and_getElem?_sub.mp there
  simp only at encoded ⊢
  refine ⟨above, p, inside, ?_⟩
  cases answer : p.encoded with
  | frame f =>
    rw [answer] at encoded
    obtain rfl := Option.some.inj encoded
    rfl
  | buffered =>
    rw [answer] at encoded
    cases encoded
  | fault code =>
    rw [answer] at encoded
    cases encoded

theorem numbered_increasing (n : Nat) (frames : List Packet) :
    ((numbered n frames).map Prod.fst).Pairwise (· < ·) := by
  induction frames generalizing n with
  | nil => exact List.Pairwise.nil
  | cons p frames ih =>
    rw [numbered_cons]
    cases p.encoded.frame? with
    | none => exact ih (n + 1)
    | some frame =>
      refine List.pairwise_cons.mpr ⟨?_, ih (n + 1)⟩
      intro later among
      obtain ⟨row, there, rfl⟩ := List.mem_map.mp among
      exact (mem_numbered there).1

/-- `stats.csv` is read back as one row for each frame with bytes: its number, which is that of
the frame among the encoded ones, and its length. The lengths add up to the encoded bytes. -/
theorem statistics_read_back (run : runVideoLoop opts video .start ps = some l) :
    ∃ stats : List (Nat × Nat),
      readTable l.out.statistics = stats.map (fun row => [(row.1 : Int), (row.2 : Int)]) ∧
      (stats.map Prod.fst).Pairwise (· < ·) ∧
      (∀ row ∈ stats, ∃ p, (encodes opts video.iVideoStream ps)[row.1]? = some p ∧
        p.encoded.iEncodedBytes = row.2) ∧
      stats.map Prod.snd = (encodedBytes opts video ps).map List.length ∧
      (stats.map Prod.snd).sum = (encodedBytes opts video ps).flatten.length := by
  obtain ⟨_, _, _, text⟩ := run_outputs run
  have lengths : (numbered 0 (encodes opts video.iVideoStream ps)).map Prod.snd =
      (encodedBytes opts video ps).map List.length := by
    rw [numbered_lengths, encodedBytes, List.map_map]
    rfl
  refine ⟨numbered 0 (encodes opts video.iVideoStream ps), ?_, numbered_increasing _ _, ?_,
    lengths, ?_⟩
  · rw [text, rows_numbered]
    apply readTable_printTable gap_nil
    intro row among
    obtain ⟨_, _, rfl⟩ := List.mem_map.mp among
    exact List.cons_ne_nil _ _
  · intro row among
    exact (mem_numbered among).2
  · rw [lengths, List.length_flatten]

theorem recording_statistics :
    ∃ l, ∃ stats : List (Nat × Nat),
      runVideoLoop recordingOptions ⟨0, 1, 2⟩ .start [shownPacket] = some l ∧
      readTable l.out.statistics = stats.map (fun row => [(row.1 : Int), (row.2 : Int)]) ∧
      stats.map Prod.snd = [3] := by
  obtain ⟨l, run⟩ := recording_run
  obtain ⟨stats, read, _, _, lengths, _⟩ := statistics_read_back run
  exact ⟨l, stats, run, read, lengths⟩

/-- The picture in a file shows a frame. -/
def Shows (bytes : List UInt8) (video : Video) (p : Packet) : Prop :=
  ∃ image, PixmapFormat.readPixmap bytes = some image ∧
    (image.width : Int) = video.width.toInt ∧ (image.height : Int) = video.height.toInt ∧
    image.raster = pixelsFrom p.pFrameRGB video.width 0 video.height.toInt.toNat

/-- The frame has the size of the video, and the offset of its last row is an `int`. -/
structure Picturable (video : Video) (p : Packet) : Prop where
  holds : Holds p.pFrameRGB video.width video.height
  small : (video.height.toInt - 1) * p.pFrameRGB.linesize.toInt < 2 ^ 31

theorem Picturable.of_allocated {p : Packet} (holds : Holds p.pFrameRGB video.width video.height)
    (allocated : p.pFrameRGB.size < 2 ^ 31) : Picturable video p :=
  ⟨holds, small_of_allocated holds allocated⟩

def pictureName (n : Nat) : List Char := filename (Int32.ofInt n)

theorem count_toInt {n : Nat} (small : n < 2 ^ 31) : (Int32.ofInt n).toInt = n :=
  Int32.toInt_ofInt_of_le (by omega) (by omega)

theorem filename_no_nul {iFrame : Int32} (nonneg : 0 ≤ iFrame.toInt) :
    ∀ c ∈ filename iFrame, c ≠ '\x00' := by
  have before : "frames/frame".toList.all (· ≠ '\x00') = true := rfl
  have behind : "B.ppm".toList.all (· ≠ '\x00') = true := rfl
  simp only [List.all_eq_true, decide_eq_true_eq] at before behind
  intro c among
  rcases List.mem_append.mp among with front | back
  · rcases List.mem_append.mp front with text | number
    · exact before c text
    · rw [DecimalText.printPadded_of_nonneg 4 nonneg] at number
      rcases List.mem_append.mp number with zero | digit
      · obtain rfl := List.eq_of_mem_replicate zero
        decide
      · rintro rfl
        exact absurd (DecimalText.isDigit_of_mem_printNat digit) (by decide)
  · exact behind c back

/-- A string in an array ends at its first 0. -/
theorem takeWhile_string {n : Nat} {array : Vector Char n} {text : List Char}
    (held : CheckedMemory.region array 0 (text.length + 1) = text ++ ['\x00'])
    (clean : ∀ c ∈ text, c ≠ '\x00') : array.toList.takeWhile (· ≠ '\x00') = text := by
  have split := List.take_append_drop (text.length + 1) array.toList
  rw [CheckedMemory.region, List.drop_zero] at held
  rw [held, List.append_assoc] at split
  rw [← split, List.takeWhile_append_of_pos fun c among => decide_eq_true (clean c among)]
  simp

/-- The name is what stands in the array up to the end of the string. -/
theorem picture_spec {p : Packet} (picturable : Picturable video p) {n : Nat}
    (small : n < 2 ^ 31) :
    ∃ bytes, picture video n p = some (pictureName n, bytes) ∧ Shows bytes video p := by
  have nonneg : 0 ≤ (Int32.ofInt n).toInt := by
    rw [count_toInt small]
    exact Int.natCast_nonneg n
  obtain ⟨szFilename, bytes, image, saved, name, shown⟩ :=
    faithful_of_small picturable.holds picturable.small nonneg p.szFilename
  refine ⟨bytes, ?_, image, shown⟩
  simp only [picture, saved, Option.bind_eq_bind, Option.bind_some, Option.pure_def,
    takeWhile_string name (filename_no_nul nonneg), pictureName]

theorem wanted_iff {saveframes : Int} (saving : 0 < saveframes) (n : Nat) :
    wanted saveframes n = true ↔ (n : Int) % saveframes = 0 := by
  rw [wanted, Int.tmod_eq_emod_of_nonneg (Int.natCast_nonneg n)]
  simp [saving]

/-- The pictures of the wanted frames, each under its own name. -/
theorem pictures_spec {n : Nat} {frames : List Packet} (short : n + frames.length ≤ 2 ^ 31)
    (picturable : ∀ p ∈ frames, Picturable video p) :
    ∃ files, pictures opts video n frames = some files ∧
      files.map Prod.fst =
        ((List.range' n frames.length).filter fun k : Nat => wanted opts.saveframes k).map pictureName ∧
      ∀ (k : Nat) (p : Packet), frames[k]? = some p → wanted opts.saveframes (n + k : Nat) = true →
        ∃ bytes, (pictureName (n + k), bytes) ∈ files ∧ Shows bytes video p := by
  induction frames generalizing n with
  | nil => exact ⟨[], rfl, rfl, nofun⟩
  | cons p frames ih =>
    rw [List.length_cons] at short
    obtain ⟨later, saved, names, shown⟩ :=
      @ih (n + 1) (by omega) fun q among => picturable q (List.mem_cons_of_mem p among)
    have shown' : ∀ (k : Nat) (q : Packet), frames[k]? = some q →
        wanted opts.saveframes (n + (k + 1) : Nat) = true →
        ∃ bytes, (pictureName (n + (k + 1)), bytes) ∈ later ∧ Shows bytes video q := by
      intro k q there isWanted
      have place : n + (k + 1) = n + 1 + k := by omega
      rw [place] at isWanted ⊢
      exact shown k q there isWanted
    rw [pictures, pictureOf, List.length_cons, List.range'_succ]
    by_cases isWanted : wanted opts.saveframes n = true
    · obtain ⟨bytes, taken, shows_p⟩ := picture_spec (picturable p List.mem_cons_self)
        (show n < 2 ^ 31 by omega)
      refine ⟨(pictureName n, bytes) :: later, ?_, ?_, ?_⟩
      · rw [if_pos isWanted, taken, saved]
        rfl
      · simp only [List.filter_cons, isWanted, if_true, List.map_cons, names]
      · intro k q there wantedHere
        cases k with
        | zero =>
          obtain rfl := Option.some.inj there
          exact ⟨bytes, List.mem_cons_self, shows_p⟩
        | succ k =>
          obtain ⟨b, among, shows_q⟩ := shown' k q there wantedHere
          exact ⟨b, List.mem_cons_of_mem _ among, shows_q⟩
    · refine ⟨later, ?_, ?_, ?_⟩
      · rw [if_neg isWanted, saved]
        rfl
      · simp only [List.filter_cons, isWanted, names]
        rfl
      · intro k q there wantedHere
        cases k with
        | zero => exact absurd wantedHere isWanted
        | succ k => exact shown' k q there wantedHere

theorem pictureName_inj {m n : Nat} (small : m < 2 ^ 31) (small' : n < 2 ^ 31)
    (same : pictureName m = pictureName n) : m = n := by
  have first := count_toInt small
  have second := count_toInt small'
  have numbers := filename_inj (by omega) (by omega) same
  rw [numbers, second] at first
  exact (Int.ofNat.inj first).symm

/-- Every frame whose number is a multiple of `saveframes` is on the disk under the name of that
number, no two pictures have one name, and there are no other pictures. -/
theorem pictures_kept (run : runVideoLoop opts video .start ps = some l)
    (saving : 0 < opts.saveframes)
    (short : (encodes opts video.iVideoStream ps).length ≤ 2 ^ 31)
    (picturable : ∀ p ∈ encodes opts video.iVideoStream ps, Picturable video p) :
    (l.out.files.map Prod.fst).Nodup ∧
    (∀ name ∈ l.out.files.map Prod.fst, ∃ k : Nat, name = pictureName k ∧
      k < (encodes opts video.iVideoStream ps).length ∧ (k : Int) % opts.saveframes = 0) ∧
    ∀ (k : Nat) (p : Packet), (encodes opts video.iVideoStream ps)[k]? = some p →
      (k : Int) % opts.saveframes = 0 →
      ∃ bytes, (pictureName k, bytes) ∈ l.out.files ∧ Shows bytes video p := by
  obtain ⟨files, saved, names, shown⟩ :=
    @pictures_spec opts video 0 _ (by omega) picturable
  obtain rfl := Option.some.inj (saved.symm.trans (run_outputs run).1)
  rw [names]
  refine ⟨?_, ?_, ?_⟩
  · refine List.Nodup.map_on ?_ (List.Nodup.filter _ List.nodup_range')
    intro i amongI j amongJ same
    have insideI := (List.mem_range'_1.mp (List.mem_filter.mp amongI).1).2
    have insideJ := (List.mem_range'_1.mp (List.mem_filter.mp amongJ).1).2
    exact pictureName_inj (by omega) (by omega) same
  · intro name among
    obtain ⟨k, kept, rfl⟩ := List.mem_map.mp among
    obtain ⟨inside, isWanted⟩ := List.mem_filter.mp kept
    exact ⟨k, rfl, by simpa using (List.mem_range'_1.mp inside).2, (wanted_iff saving k).mp isWanted⟩
  · intro k p there multiple
    have found := shown k p there
    rw [Nat.zero_add] at found
    exact found ((wanted_iff saving k).mpr multiple)

theorem recording_pictures :
    ∃ l bytes, runVideoLoop recordingOptions ⟨0, 1, 2⟩ .start [shownPacket] = some l ∧
      (pictureName 0, bytes) ∈ l.out.files ∧ Shows bytes ⟨0, 1, 2⟩ shownPacket := by
  obtain ⟨l, run⟩ := recording_run
  have picturable : ∀ p ∈ encodes recordingOptions 0 [shownPacket], Picturable ⟨0, 1, 2⟩ p := by
    intro p among
    obtain rfl := List.mem_singleton.mp among
    exact .of_allocated ⟨by decide, by decide, by decide, by decide⟩ (by decide)
  obtain ⟨_, _, kept⟩ := pictures_kept run (by decide) (by decide) picturable
  obtain ⟨bytes, among, shown⟩ := kept 0 shownPacket rfl (by decide)
  exact ⟨l, bytes, run, among, shown⟩

/-- What remains of nonempty pieces is all of them if it joins to the same bytes. -/
theorem sublist_eq_of_flatten {α : Type} {pieces whole : List (List α)}
    (sub : pieces.Sublist whole) (nonempty : ∀ x ∈ whole, x ≠ [])
    (same : pieces.flatten = whole.flatten) : pieces = whole := by
  induction sub with
  | slnil => rfl
  | @cons pieces whole x sub ih =>
    have shorter : pieces.flatten.length ≤ whole.flatten.length := sub.flatten.length_le
    have lengths := congrArg List.length same
    have positive := List.length_pos_iff.mpr (nonempty x List.mem_cons_self)
    rw [List.flatten_cons, List.length_append] at lengths
    omega
  | @cons_cons pieces whole x sub ih =>
    rw [List.flatten_cons, List.flatten_cons] at same
    have rest := List.append_cancel_left same
    rw [ih (fun y among => nonempty y (List.mem_cons_of_mem x among)) rest]

/-- Over TCP the client writes what is in `test.264` exactly when every call of `addFrame` found
the session playing, however the stream is cut. -/
theorem received_is_test_iff (run : runVideoLoop opts video .start ps = some l)
    (connected : 0 < opts.networkport) (tcp : opts.transport = .useTCP)
    (saving : opts.savevideo = true) {sender : Sender} {actions : List Action} {t : VideoThread}
    (thread : threadRun .useTCP (.start sender (addFrameCalls l.out.emissions)) actions = some t)
    (finished : t.Finished) {results : List RecvResult}
    (cut : Segmentation (wireBytes t.wire) results) (iPortNum : Nat) (r : Receiver) :
    ∃ r' outs, receiveAll .useTCP opts.vcodec iPortNum r results = some (r', outs) ∧
      (outs.flatten = l.out.test ↔ ∀ state ∈ t.tests, state = .playing) := by
  have whole : ¬ Fragmented opts := by
    rintro ⟨udp, _⟩
    rw [tcp] at udp
    cases udp
  have test := test_of_run run
  have calls := (whole_emissions run whole).2
  rw [if_pos saving] at test
  rw [if_pos connected] at calls
  rw [calls] at thread
  have fits : ∀ f ∈ encodedBytes opts video ps, f.length ≤ frameQSize := encoded_fits _
  obtain ⟨t', ran, inv⟩ := threadRun_inv fits (start_inv .useTCP sender _) actions
  obtain rfl := Option.some.inj (ran.symm.trans thread)
  obtain ⟨wire, made⟩ := threadRun_wire inv finished
  rw [wire, wireBytes_wrap] at cut
  obtain ⟨r', outs, received, written⟩ := receive_segmentation iPortNum r cut
  refine ⟨r', outs, received, ?_⟩
  rw [written, test, ← FlushInterleaving.observed_eq_self_iff made.symm]
  constructor
  · intro same
    refine sublist_eq_of_flatten (FlushInterleaving.observed_sublist _ _) ?_ same
    intro bytes among
    obtain ⟨frame, _, rfl⟩ := List.mem_map.mp among
    exact frame.nonempty
  · intro same
    rw [same]

theorem recording_received :
    ∃ l t, runVideoLoop recordingOptions ⟨0, 1, 2⟩ .start [shownPacket] = some l ∧
      threadRun .useTCP (.start (.cleared .playing) (addFrameCalls l.out.emissions))
        [.video, .video] = some t ∧
      ∃ r' outs, receiveAll .useTCP .useH264 0 .cleared [.data [7], .error, .data [8, 9]] =
        some (r', outs) ∧ (outs.flatten = l.out.test ↔ ∀ state ∈ t.tests, state = .playing) := by
  obtain ⟨l, run⟩ := recording_run
  have calls : addFrameCalls l.out.emissions = [[7, 8, 9]] :=
    (whole_emissions run (by rintro ⟨⟨⟩, _⟩)).2
  have fits : ∀ f ∈ ([[7, 8, 9]] : List (List UInt8)), f.length ≤ frameQSize := by decide
  obtain ⟨t, thread, inv⟩ :=
    threadRun_inv fits (start_inv .useTCP (.cleared .playing) _) [.video, .video]
  obtain ⟨t', ran, finished, tests⟩ : ∃ t', threadRun .useTCP
      (.start (.cleared .playing) [[7, 8, 9]]) [.video, .video] = some t' ∧ t'.Finished ∧
      t'.tests = [.playing] := ⟨_, rfl, ⟨rfl, rfl⟩, rfl⟩
  obtain rfl := Option.some.inj (thread.symm.trans ran)
  have wire := (threadRun_wire inv finished).1
  rw [tests] at wire
  have cut : Segmentation (wireBytes t.wire) [.data [7], .error, .data [8, 9]] := by
    rw [wire]
    exact ⟨by decide, rfl⟩
  rw [← calls] at ran
  exact ⟨l, t, run, ran, received_is_test_iff run (by decide) rfl rfl ran finished cut 0 .cleared⟩

end VideoOutputs
