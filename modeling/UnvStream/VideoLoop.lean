import UnvStream.AverageDelay
import UnvStream.FrameLimit
import UnvStream.NumberTable
import UnvStream.SavedFrames
import UnvStream.SavedVideo

/-!
# The video loop with everything it writes

A frame that the decoder has finished goes to the disk as a picture, to the network or to the
output file, to `test.264` and into the statistics, in one pass of the loop. The passes share
these outputs and the count of frames only, so the loop is the same as one loop for each output
over the frames it encodes. The wait on `slp` in the middle of a pass is left to `VideoGate`: here
`slp` is cleared.
-/

namespace VideoLoop

open FragmentLoop FrameLimit SavedFrames NumberTable Vocabulary

/-- The options of `cliOpts` that the loop reads. -/
structure Options where
  networkport : Int
  transport : Transport
  vcodec : VideoCodec
  savevideo : Bool
  saveframes : Int
  maxframes : Int

def Options.cliOpts (opts : Options) : CliOpts := ⟨opts.transport, opts.vcodec, opts.savevideo⟩

def Options.limits (opts : Options) : FrameLimit.Options :=
  ⟨opts.transport, opts.vcodec, opts.maxframes, opts.saveframes⟩

/-- The stream that is decoded, and the size in `pCodecCtxVidDec`. -/
structure Video where
  iVideoStream : Int
  width : Int32
  height : Int32

/-- What `avcodec_encode_video` returns: a negative code, 0, or the number of the bytes it
leaves in `packetBufferVid`. -/
inductive Encoded where
  | fault (code : Nat)
  | buffered
  | frame (frame : EncodedFrame)

def Encoded.iEncodedBytes : Encoded → Int
  | .fault code => -(code + 1)
  | .buffered => 0
  | .frame f => f.bytes.length

def Encoded.frame? : Encoded → Option EncodedFrame
  | .frame f => some f
  | _ => none

/-- A packet of `av_read_frame`, with `StopExecution` once it is read, what becomes of it in the
decoder, the converter and the encoder, the array of `SaveFrame` before it is written, and
`stop-start`. -/
structure Packet where
  stopExecution : Bool
  streamIndex : Int
  iFrameFinished : Bool
  pFrameRGB : AVFrame
  szFilename : Vector Char 32
  encoded : Encoded
  dt : ℚ

def Packet.complete (iVideoStream : Int) (p : Packet) : Bool :=
  p.streamIndex == iVideoStream && p.iFrameFinished

/-- A file with its name. -/
abbrev File := List Char × List UInt8

/-- What the loop has written: the pictures, what the network part did with its buffer, the bytes
of `test.264`, the text of `stats.csv`, and the averages it printed. -/
structure Outputs where
  files : List File
  vid : VideoBuffer
  emissions : List Emission
  test : List UInt8
  statistics : List Char
  delays : AverageDelay.Delays
  averages : List (Option ℚ)

def Outputs.start : Outputs := ⟨[], .cleared, [], [], [], .start, []⟩

structure Loop where
  iFramesDecoded : Int
  frameId : Int
  out : Outputs

def Loop.start : Loop := ⟨0, 0, .start⟩

/-- How a pass of the loop ends. -/
inductive Flow where
  | next (l : Loop)
  | left (l : Loop)

/-- The statements about frame dropping, with the stream index they leave in the packet. -/
def dropFrame (opts : Options) (l : Loop) (p : Packet) : Loop × Int :=
  let (frameId, streamIndex) := dropPacket opts.limits l.frameId p.streamIndex
  ({ l with frameId := frameId }, streamIndex)

/-- The frames that are saved as pictures. -/
def wanted (saveframes iFramesDecoded : Int) : Bool :=
  0 < saveframes && iFramesDecoded.tmod saveframes == 0

/-- `SaveFrame`, with the name up to the end of the string. -/
def picture (video : Video) (iFramesDecoded : Int) (p : Packet) : Option File := do
  let (szFilename, bytes) ← saveFrame p.szFilename p.pFrameRGB video.width video.height
    (Int32.ofInt iFramesDecoded)
  return (szFilename.toList.takeWhile (· ≠ '\x00'), bytes)

def savePicture (opts : Options) (video : Video) (iFramesDecoded : Int) (o : Outputs)
    (p : Packet) : Option Outputs :=
  if wanted opts.saveframes iFramesDecoded then do
    let file ← picture video iFramesDecoded p
    return { o with files := o.files ++ [file] }
  else some o

/-- The statements for a network: the delay, and the frame on its way to `addFrame` or to
`pOutputVideo`. -/
def network (opts : Options) (o : Outputs) (dt : ℚ) (packet : List UInt8) : Option Outputs :=
  if 0 < opts.networkport then do
    let (delays, average) := AverageDelay.addDelay o.delays dt
    let (vid, emissions) ← videoPass opts.cliOpts o.vid packet
    return { o with
      delays := delays
      averages := o.averages ++ [average]
      vid := vid
      emissions := o.emissions ++ emissions }
  else some o

/-- What follows the encoder. A fault of the encoder is printed and does not end the program. -/
def encodeFrame (opts : Options) (iFramesDecoded : Int) (o : Outputs) (p : Packet) :
    Option Outputs :=
  match p.encoded with
  | .frame frame => do
    let o ← network opts o p.dt frame.bytes
    return { o with
      test := if opts.savevideo then o.test ++ frame.bytes else o.test
      statistics := o.statistics ++ printRow [] [iFramesDecoded, frame.bytes.length] }
  | _ => some o

def processFrame (opts : Options) (video : Video) (iFramesDecoded : Int) (o : Outputs)
    (p : Packet) : Option Outputs := do
  let o ← savePicture opts video iFramesDecoded o p
  encodeFrame opts iFramesDecoded o p

/-- The test of the limit, then the count. -/
def countFrame (opts : Options) (l : Loop) : Flow :=
  if 0 < opts.maxframes ∧ opts.maxframes ≤ l.iFramesDecoded then .left l
  else .next { l with iFramesDecoded := l.iFramesDecoded + 1 }

/-- The body of the loop. -/
def pass (opts : Options) (video : Video) (l : Loop) (p : Packet) : Option Flow :=
  if p.stopExecution then some (.left l)
  else
    let (l, streamIndex) := dropFrame opts l p
    if streamIndex = video.iVideoStream then
      if p.iFrameFinished then do
        let o ← processFrame opts video l.iFramesDecoded l.out p
        return countFrame opts { l with out := o }
      else some (.next l)
    else some (.next l)

/-- `runVideoLoop` on the packets that can be read. -/
def runVideoLoop (opts : Options) (video : Video) : Loop → List Packet → Option Loop
  | l, [] => some l
  | l, p :: ps => do
    match ← pass opts video l p with
    | .next l => runVideoLoop opts video l ps
    | .left l => return l

/-- The complete video frames that are read before the loop is told to stop. -/
def available (iVideoStream : Int) (ps : List Packet) : List Packet :=
  untilStop Packet.stopExecution (Packet.complete iVideoStream) ps

/-- The frames that a count of `count` leaves room for: the one that reaches the limit is still
encoded. -/
def upToLimit (maxframes : Int) (count : Nat) (frames : List Packet) : List Packet :=
  if 0 < maxframes then frames.take (maxframes + 1 - count).toNat else frames

/-- The frames that a run encodes. -/
def encodes (opts : Options) (iVideoStream : Int) (ps : List Packet) : List Packet :=
  upToLimit opts.maxframes 0 (available iVideoStream ps)

/-- The picture of one frame, if it is wanted. -/
def pictureOf (opts : Options) (video : Video) (n : Nat) (p : Packet) : Option (List File) :=
  if wanted opts.saveframes n then (picture video n p).map fun file => [file] else some []

/-- The pictures of the frames, numbered from `n` on. -/
def pictures (opts : Options) (video : Video) : Nat → List Packet → Option (List File)
  | _, [] => some []
  | n, p :: ps => do
    let first ← pictureOf opts video n p
    let later ← pictures opts video (n + 1) ps
    return first ++ later

def encodedFrames (frames : List Packet) : List EncodedFrame :=
  frames.filterMap fun p => p.encoded.frame?

/-- The network part of the loop, if there is a network. -/
def networkRun (opts : Options) (vid : VideoBuffer) (frames : List EncodedFrame) :
    Option (VideoBuffer × List Emission) :=
  if 0 < opts.networkport then videoRun opts.cliOpts vid frames else some (vid, [])

def testBytes (opts : Options) (frames : List EncodedFrame) : List UInt8 :=
  if opts.savevideo then frames.flatMap EncodedFrame.bytes else []

/-- The rows of the statistics, for frames numbered from `n` on. -/
def rows : Nat → List Packet → List (List Int)
  | _, [] => []
  | n, p :: ps => (p.encoded.frame?.toList.map fun frame => [(n : Int), frame.bytes.length]) ++
      rows (n + 1) ps

def delayed (frames : List Packet) : List AverageDelay.Frame :=
  frames.map fun p => ⟨p.encoded.iEncodedBytes, p.dt⟩

/-- One loop for each output, over frames numbered from `n` on. -/
def separately (opts : Options) (video : Video) (n : Nat) (o : Outputs) (frames : List Packet) :
    Option Outputs := do
  let files ← pictures opts video n frames
  let (vid, emissions) ← networkRun opts o.vid (encodedFrames frames)
  return {
    files := o.files ++ files
    vid := vid
    emissions := o.emissions ++ emissions
    test := o.test ++ testBytes opts (encodedFrames frames)
    statistics := o.statistics ++ printTable [] (rows n frames)
    delays := AverageDelay.after o.delays (AverageDelay.delays opts.networkport (delayed frames))
    averages := o.averages ++ AverageDelay.averages opts.networkport o.delays (delayed frames) }

/-- The frames in turn, all their outputs at once. -/
def processAll (opts : Options) (video : Video) : Nat → Outputs → List Packet → Option Outputs
  | _, o, [] => some o
  | n, o, p :: ps => (processFrame opts video n o p).bind fun o => processAll opts video (n + 1) o ps

theorem dropFrame_spec (opts : Options) (l : Loop) (p : Packet) :
    ∃ frameId, dropFrame opts l p = ({ l with frameId := frameId }, p.streamIndex) := by
  obtain ⟨frameId, kept⟩ := dropPacket_keeps opts.limits l.frameId p.streamIndex
  exact ⟨frameId, by simp only [dropFrame, kept]⟩

theorem pass_stop {p : Packet} (stopped : p.stopExecution = true) (opts : Options)
    (video : Video) (l : Loop) : pass opts video l p = some (.left l) := by
  simp [pass, stopped]

theorem pass_skip {video : Video} {p : Packet} (going : p.stopExecution = false)
    (incomplete : p.complete video.iVideoStream = false) (opts : Options) (l : Loop) :
    ∃ frameId, pass opts video l p = some (.next { l with frameId := frameId }) := by
  obtain ⟨frameId, dropped⟩ := dropFrame_spec opts l p
  refine ⟨frameId, ?_⟩
  simp only [pass, going, dropped, Bool.false_eq_true, if_false]
  exact tests_fail incomplete _ _

theorem pass_frame {video : Video} {p : Packet} (going : p.stopExecution = false)
    (complete : p.complete video.iVideoStream = true) (opts : Options) (l : Loop) :
    ∃ frameId, pass opts video l p =
      (processFrame opts video l.iFramesDecoded l.out p).map fun o =>
        countFrame opts ⟨l.iFramesDecoded, frameId, o⟩ := by
  obtain ⟨frameId, dropped⟩ := dropFrame_spec opts l p
  obtain ⟨onVideo, finished⟩ : p.streamIndex = video.iVideoStream ∧ p.iFrameFinished = true := by
    simpa [Packet.complete] using complete
  refine ⟨frameId, ?_⟩
  simp only [pass, going, dropped, onVideo, finished, if_true, Bool.false_eq_true, if_false,
    Option.map_eq_bind]
  rfl

theorem upToLimit_nil (maxframes : Int) (count : Nat) : upToLimit maxframes count [] = [] := by
  unfold upToLimit
  split
  · exact List.take_nil
  · rfl

/-- A count that has not passed the limit leaves room for one more frame. -/
theorem upToLimit_cons {maxframes : Int} {count : Nat}
    (below : 0 < maxframes → (count : Int) ≤ maxframes) (p : Packet) (frames : List Packet) :
    upToLimit maxframes count (p :: frames) = p :: upToLimit maxframes (count + 1) frames := by
  by_cases limited : 0 < maxframes
  · have room : (maxframes + 1 - count).toNat = (maxframes + 1 - (count + 1 : Nat)).toNat + 1 := by
      have := below limited
      omega
    rw [upToLimit, upToLimit, if_pos limited, if_pos limited, room, List.take_succ_cons]
  · rw [upToLimit, upToLimit, if_neg limited, if_neg limited]

theorem upToLimit_full {maxframes : Int} {count : Nat} (limited : 0 < maxframes)
    (full : maxframes ≤ count) (frames : List Packet) :
    upToLimit maxframes (count + 1) frames = [] := by
  have room : (maxframes + 1 - (count + 1 : Nat)).toNat = 0 := by omega
  rw [upToLimit, if_pos limited, room, List.take_zero]

/-- The loop processes the frames it finds up to the limit. -/
theorem run_processes {opts : Options} {video : Video} (ps : List Packet) {l : Loop} {count : Nat}
    (counted : l.iFramesDecoded = count)
    (below : 0 < opts.maxframes → (count : Int) ≤ opts.maxframes) :
    (runVideoLoop opts video l ps).map Loop.out = processAll opts video count l.out
      (upToLimit opts.maxframes count (available video.iVideoStream ps)) := by
  induction ps generalizing l count with
  | nil =>
    have nothing : available video.iVideoStream [] = [] := rfl
    rw [nothing, upToLimit_nil]
    rfl
  | cons p ps ih =>
    cases stopped : p.stopExecution with
    | true =>
      rw [available, untilStop_stop stopped, upToLimit_nil]
      simp only [runVideoLoop, pass_stop stopped, Option.bind_eq_bind, Option.bind_some]
      rfl
    | false =>
      cases complete : p.complete video.iVideoStream with
      | false =>
        obtain ⟨frameId, skipped⟩ := pass_skip stopped complete opts l
        rw [available, untilStop_skip stopped complete]
        simp only [runVideoLoop, skipped, Option.bind_eq_bind, Option.bind_some]
        exact ih counted below
      | true =>
        obtain ⟨frameId, framed⟩ := pass_frame stopped complete opts l
        rw [available, untilStop_wanted stopped complete, upToLimit_cons below, processAll]
        simp only [runVideoLoop, framed, counted, Option.bind_eq_bind]
        cases processFrame opts video count l.out p with
        | none => rfl
        | some o =>
          simp only [Option.map_some, Option.bind_some, countFrame]
          by_cases full : 0 < opts.maxframes ∧ opts.maxframes ≤ count
          · rw [if_pos full, upToLimit_full full.1 full.2]
            rfl
          · rw [if_neg full]
            exact ih rfl fun limited => by omega

/-- The packet as the loop of `FrameLimit` sees it. -/
def Packet.counted (p : Packet) : FrameLimit.Packet :=
  ⟨p.stopExecution, p.streamIndex, p.iFrameFinished, p.encoded.iEncodedBytes⟩

/-- The loop of `FrameLimit` has the same variables and the rows of the statistics. -/
structure Counts (l : Loop) (m : FrameLimit.Loop) : Prop where
  iFramesDecoded : m.iFramesDecoded = l.iFramesDecoded
  frameId : m.frameId = l.frameId
  statistics : l.out.statistics = printTable [] (m.statistics.map fun row => [row.1, row.2])

/-- Two ways in which a pass has ended alike. -/
inductive Alike : Flow → FrameLimit.Flow → Prop where
  | next {l : Loop} {m : FrameLimit.Loop} (counts : Counts l m) : Alike (.next l) (.next m)
  | left {l : Loop} {m : FrameLimit.Loop} (counts : Counts l m) : Alike (.left l) (.left m)

theorem countFrame_alike (opts : Options) {l : Loop} {m : FrameLimit.Loop}
    (counts : Counts l m) : Alike (countFrame opts l) (FrameLimit.countFrame opts.limits m) := by
  have limit : opts.limits.maxframes = opts.maxframes := rfl
  rw [countFrame, FrameLimit.countFrame, limit, counts.iFramesDecoded]
  split
  · exact .left counts
  · exact .next ⟨rfl, counts.frameId, counts.statistics⟩

theorem savePicture_statistics {opts : Options} {video : Video} {iFramesDecoded : Int}
    {o o' : Outputs} {p : Packet} (saved : savePicture opts video iFramesDecoded o p = some o') :
    o'.statistics = o.statistics := by
  unfold savePicture at saved
  split at saved
  · obtain ⟨file, _, same⟩ := Option.bind_eq_some_iff.mp saved
    obtain rfl := Option.some.inj same
    rfl
  · obtain rfl := Option.some.inj saved
    rfl

theorem network_statistics {opts : Options} {o o' : Outputs} {dt : ℚ} {packet : List UInt8}
    (networked : network opts o dt packet = some o') : o'.statistics = o.statistics := by
  unfold network at networked
  split at networked
  · obtain ⟨run, _, same⟩ := Option.bind_eq_some_iff.mp networked
    obtain rfl := Option.some.inj same
    rfl
  · obtain rfl := Option.some.inj networked
    rfl

/-- A frame adds a row exactly if it has bytes. -/
theorem processFrame_statistics {opts : Options} {video : Video} {iFramesDecoded : Int}
    {o o' : Outputs} {p : Packet}
    (processed : processFrame opts video iFramesDecoded o p = some o') :
    o'.statistics = o.statistics ++ printTable []
      (if 0 < p.encoded.iEncodedBytes then [[iFramesDecoded, p.encoded.iEncodedBytes]] else []) := by
  obtain ⟨o1, saved, rest⟩ := Option.bind_eq_some_iff.mp processed
  rw [← savePicture_statistics saved]
  cases encoded : p.encoded with
  | frame frame =>
    have bytes : 0 < frame.bytes.length := List.length_pos_iff.mpr frame.nonempty
    simp only [encodeFrame, encoded] at rest
    obtain ⟨o2, networked, same⟩ := Option.bind_eq_some_iff.mp rest
    rw [← Option.some.inj same]
    simp [network_statistics networked, Encoded.iEncodedBytes, bytes, printTable]
  | buffered =>
    simp only [encodeFrame, encoded] at rest
    obtain rfl := Option.some.inj rest
    exact (List.append_nil _).symm
  | fault code =>
    simp only [encodeFrame, encoded] at rest
    obtain rfl := Option.some.inj rest
    have negative : ¬ (0 : Int) < -(code + 1) := by omega
    rw [Encoded.iEncodedBytes, if_neg negative]
    exact (List.append_nil _).symm

theorem limit_processFrame (limits : FrameLimit.Options) (m : FrameLimit.Loop)
    (p : FrameLimit.Packet) :
    (FrameLimit.processFrame limits m p).iFramesDecoded = m.iFramesDecoded ∧
    (FrameLimit.processFrame limits m p).frameId = m.frameId ∧
    (FrameLimit.processFrame limits m p).statistics = m.statistics ++
      if 0 < p.iEncodedBytes then [(m.iFramesDecoded, p.iEncodedBytes)] else [] := by
  unfold FrameLimit.processFrame
  by_cases bytes : 0 < p.iEncodedBytes
  · simp only [if_pos bytes]
    split <;> exact ⟨rfl, rfl, rfl⟩
  · simp only [if_neg bytes, List.append_nil]
    split <;> exact ⟨rfl, rfl, rfl⟩

theorem processFrame_counts {opts : Options} {video : Video} {l : Loop} {m : FrameLimit.Loop}
    {p : Packet} {o : Outputs} (counts : Counts l m)
    (processed : processFrame opts video l.iFramesDecoded l.out p = some o) :
    Counts { l with out := o } (FrameLimit.processFrame opts.limits m p.counted) := by
  obtain ⟨count, frameId, rows⟩ := limit_processFrame opts.limits m p.counted
  have bytes : p.counted.iEncodedBytes = p.encoded.iEncodedBytes := rfl
  refine ⟨count.trans counts.iFramesDecoded, frameId.trans counts.frameId, ?_⟩
  rw [processFrame_statistics processed, counts.statistics, ← printTable_append, rows, bytes,
    counts.iFramesDecoded, List.map_append]
  split <;> rfl

theorem dropFrame_counts (opts : Options) {l : Loop} {m : FrameLimit.Loop} (p : Packet)
    (counts : Counts l m) :
    Counts (dropFrame opts l p).1 (FrameLimit.dropFrame opts.limits m p.counted).1 ∧
      (FrameLimit.dropFrame opts.limits m p.counted).2 = (dropFrame opts l p).2 := by
  rw [dropFrame, FrameLimit.dropFrame, counts.frameId]
  exact ⟨⟨counts.iFramesDecoded, rfl, counts.statistics⟩, rfl⟩

theorem pass_alike {opts : Options} {video : Video} {l : Loop} {m : FrameLimit.Loop} {p : Packet}
    {flow : Flow} (counts : Counts l m) (passed : pass opts video l p = some flow) :
    Alike flow (FrameLimit.pass opts.limits video.iVideoStream m p.counted) := by
  obtain ⟨counts', stream⟩ := dropFrame_counts opts p counts
  have stopped : p.counted.stopExecution = p.stopExecution := rfl
  have finished : p.counted.iFrameFinished = p.iFrameFinished := rfl
  unfold pass at passed
  rw [FrameLimit.pass, stopped, finished]
  split at passed
  · rename_i stop
    rw [if_pos stop]
    obtain rfl := Option.some.inj passed
    exact .left counts
  · rename_i going
    rw [if_neg going]
    simp only [stream] at passed ⊢
    split at passed
    · split at passed
      · obtain ⟨o, processed, same⟩ := Option.bind_eq_some_iff.mp passed
        obtain rfl := Option.some.inj same
        simp only [*, if_true]
        exact countFrame_alike opts (processFrame_counts counts' processed)
      · obtain rfl := Option.some.inj passed
        simp only [*, if_true]
        exact .next counts'
    · obtain rfl := Option.some.inj passed
      simp only [*, if_false]
      exact .next counts'

/-- The loop of `FrameLimit` is this one without its files. -/
theorem run_counts {opts : Options} {video : Video} {ps : List Packet} {l l' : Loop}
    {m : FrameLimit.Loop} (counts : Counts l m)
    (run : runVideoLoop opts video l ps = some l') :
    Counts l' (FrameLimit.runVideoLoop opts.limits video.iVideoStream m
      (ps.map Packet.counted)) := by
  induction ps generalizing l m with
  | nil =>
    obtain rfl := Option.some.inj run
    exact counts
  | cons p ps ih =>
    obtain ⟨flow, passed, rest⟩ := Option.bind_eq_some_iff.mp run
    have alike := pass_alike counts passed
    rw [List.map_cons, FrameLimit.runVideoLoop]
    generalize FrameLimit.pass opts.limits video.iVideoStream m p.counted = flow' at alike
    cases alike with
    | next counts' => exact ih counts' rest
    | left counts' =>
      obtain rfl := Option.some.inj rest
      exact counts'

theorem savePicture_eq (opts : Options) (video : Video) (n : Nat) (o : Outputs) (p : Packet) :
    savePicture opts video n o p =
      (pictureOf opts video n p).map fun files => { o with files := o.files ++ files } := by
  by_cases saved : wanted opts.saveframes n = true
  · rw [savePicture, pictureOf, if_pos saved, if_pos saved]
    cases picture video n p <;> rfl
  · rw [savePicture, pictureOf, if_neg saved, if_neg saved, Option.map_some, List.append_nil]

/-- The network part of one frame is a run over that frame. -/
theorem network_eq (opts : Options) (o : Outputs) (dt : ℚ) (frame : EncodedFrame) :
    network opts o dt frame.bytes = (networkRun opts o.vid [frame]).map fun run =>
      { o with
        delays := AverageDelay.after o.delays
          (AverageDelay.delays opts.networkport [⟨frame.bytes.length, dt⟩])
        averages := o.averages ++
          AverageDelay.averages opts.networkport o.delays [⟨frame.bytes.length, dt⟩]
        vid := run.1
        emissions := o.emissions ++ run.2 } := by
  have bytes : (0 : Int) < frame.bytes.length :=
    Int.natCast_pos.mpr (List.length_pos_iff.mpr frame.nonempty)
  by_cases connected : 0 < opts.networkport
  · simp only [network, networkRun, videoRun, AverageDelay.averages,
      AverageDelay.delays, AverageDelay.reaches, bytes, decide_true, connected, Bool.and_self,
      if_true, List.filter_cons_of_pos, List.filter_nil, List.map_cons, List.map_nil,
      AverageDelay.after]
    cases videoPass opts.cliOpts o.vid frame.bytes with
    | none => rfl
    | some run => simp
  · simp [network, networkRun, connected, AverageDelay.averages, AverageDelay.delays,
      AverageDelay.reaches, AverageDelay.after]

theorem delays_cons (networkport : Int) (f : AverageDelay.Frame) (fs : List AverageDelay.Frame) :
    AverageDelay.delays networkport (f :: fs) =
      AverageDelay.delays networkport [f] ++ AverageDelay.delays networkport fs := by
  rw [AverageDelay.delays, AverageDelay.delays, AverageDelay.delays, ← List.map_append,
    ← List.filter_append, List.singleton_append]

theorem after_append (d : AverageDelay.Delays) (dts later : List ℚ) :
    AverageDelay.after d (dts ++ later) = AverageDelay.after (AverageDelay.after d dts) later := by
  induction dts generalizing d with
  | nil => rfl
  | cons dt dts ih => exact ih _

theorem averages_cons (networkport : Int) (d : AverageDelay.Delays) (f : AverageDelay.Frame)
    (fs : List AverageDelay.Frame) :
    AverageDelay.averages networkport d (f :: fs) = AverageDelay.averages networkport d [f] ++
      AverageDelay.averages networkport
        (AverageDelay.after d (AverageDelay.delays networkport [f])) fs := by
  by_cases reached : AverageDelay.reaches networkport f = true
  · simp [AverageDelay.averages, AverageDelay.delays, AverageDelay.after, reached]
  · simp [AverageDelay.averages, AverageDelay.delays, AverageDelay.after, reached]

theorem videoRun_append (opts : CliOpts) (vid : VideoBuffer) (frames later : List EncodedFrame) :
    videoRun opts vid (frames ++ later) = (videoRun opts vid frames).bind fun first =>
      (videoRun opts first.1 later).map fun rest => (rest.1, first.2 ++ rest.2) := by
  induction frames generalizing vid with
  | nil => simp [videoRun]
  | cons frame frames ih =>
    simp only [List.cons_append, videoRun]
    cases videoPass opts vid frame.bytes with
    | none => rfl
    | some first =>
      simp only [Option.bind_eq_bind, Option.bind_some, ih]
      cases videoRun opts first.1 frames with
      | none => rfl
      | some second =>
        simp only [Option.bind_some, Option.pure_def]
        cases videoRun opts second.1 later with
        | none => rfl
        | some third => simp

theorem networkRun_append (opts : Options) (vid : VideoBuffer)
    (frames later : List EncodedFrame) :
    networkRun opts vid (frames ++ later) = (networkRun opts vid frames).bind fun first =>
      (networkRun opts first.1 later).map fun rest => (rest.1, first.2 ++ rest.2) := by
  by_cases connected : 0 < opts.networkport
  · simp only [networkRun, if_pos connected, videoRun_append]
  · simp [networkRun, connected]

theorem testBytes_append (opts : Options) (frames later : List EncodedFrame) :
    testBytes opts (frames ++ later) = testBytes opts frames ++ testBytes opts later := by
  unfold testBytes
  split
  · exact List.flatMap_append
  · rfl

theorem pictures_singleton (opts : Options) (video : Video) (n : Nat) (p : Packet) :
    pictures opts video n [p] = pictureOf opts video n p := by
  simp only [pictures, Option.bind_eq_bind, Option.bind_some, List.append_nil, Option.pure_def]
  exact Option.bind_fun_some _

theorem networkRun_nil (opts : Options) (vid : VideoBuffer) :
    networkRun opts vid [] = some (vid, []) := by
  unfold networkRun
  split <;> rfl

/-- A frame that the encoder returns nothing for leaves a picture at most. -/
theorem separately_silent {opts : Options} {p : Packet} (silent : p.encoded.frame? = none)
    (video : Video) (n : Nat) (o : Outputs) : separately opts video n o [p] =
      (pictureOf opts video n p).map fun files => { o with files := o.files ++ files } := by
  have none_left : encodedFrames [p] = [] := by simp [encodedFrames, silent]
  have none_reaches : AverageDelay.reaches opts.networkport ⟨p.encoded.iEncodedBytes, p.dt⟩ =
      false := by
    cases encoded : p.encoded with
    | frame frame =>
      rw [encoded] at silent
      cases silent
    | buffered => rfl
    | fault code => simp [AverageDelay.reaches, Encoded.iEncodedBytes]
  rw [separately, pictures_singleton, none_left]
  cases pictureOf opts video n p with
  | none => rfl
  | some files =>
    simp [networkRun_nil, testBytes, rows, silent, printTable, delayed, AverageDelay.averages,
      AverageDelay.delays, AverageDelay.after, none_reaches]

/-- One frame is a run of each loop over that frame. -/
theorem processFrame_eq (opts : Options) (video : Video) (n : Nat) (o : Outputs) (p : Packet) :
    processFrame opts video n o p = separately opts video n o [p] := by
  cases encoded : p.encoded with
  | frame frame =>
    have alone : encodedFrames [p] = [frame] := by
      simp [encodedFrames, encoded, Encoded.frame?]
    rw [separately, pictures_singleton, processFrame, savePicture_eq]
    cases pictureOf opts video n p with
    | none => rfl
    | some files =>
      simp only [Option.map_some, Option.bind_eq_bind, Option.bind_some, encodeFrame, encoded,
        alone, network_eq]
      cases networkRun opts o.vid [frame] with
      | none => rfl
      | some run =>
        cases saved : opts.savevideo <;>
          simp [testBytes, saved, rows, encoded, Encoded.frame?, printTable, delayed,
            Encoded.iEncodedBytes]
  | buffered =>
    rw [separately_silent (by rw [encoded]; rfl), processFrame, savePicture_eq]
    simp only [encodeFrame, encoded]
    exact Option.bind_fun_some _
  | fault code =>
    rw [separately_silent (by rw [encoded]; rfl), processFrame, savePicture_eq]
    simp only [encodeFrame, encoded]
    exact Option.bind_fun_some _

theorem encodedFrames_cons (p : Packet) (ps : List Packet) :
    encodedFrames (p :: ps) = encodedFrames [p] ++ encodedFrames ps := by
  rw [encodedFrames, encodedFrames, encodedFrames, ← List.filterMap_append, List.singleton_append]

theorem rows_cons (n : Nat) (p : Packet) (ps : List Packet) :
    rows n (p :: ps) = rows n [p] ++ rows (n + 1) ps := by
  rw [rows, rows, rows, List.append_nil]

theorem delayed_cons (p : Packet) (ps : List Packet) :
    delayed (p :: ps) = ⟨p.encoded.iEncodedBytes, p.dt⟩ :: delayed ps := rfl

/-- The first frame goes through all loops before the others do. -/
theorem separately_cons (opts : Options) (video : Video) (n : Nat) (o : Outputs) (p : Packet)
    (ps : List Packet) : separately opts video n o (p :: ps) =
      (separately opts video n o [p]).bind fun o => separately opts video (n + 1) o ps := by
  simp only [separately, pictures_singleton, encodedFrames_cons p ps, networkRun_append,
    testBytes_append, rows_cons n p ps, delayed_cons p ps, delays_cons _ _ (delayed ps),
    averages_cons _ _ _ (delayed ps), after_append, printTable_append]
  rw [pictures]
  cases pictureOf opts video n p with
  | none => rfl
  | some first =>
    cases networkRun opts o.vid (encodedFrames [p]) with
    | none => cases pictures opts video (n + 1) ps <;> rfl
    | some run =>
      simp only [Option.bind_eq_bind, Option.bind_some, Option.pure_def]
      cases pictures opts video (n + 1) ps with
      | none => rfl
      | some later =>
        cases networkRun opts run.1 (encodedFrames ps) with
        | none => rfl
        | some rest => simp [delayed]

theorem processAll_eq (opts : Options) (video : Video) (n : Nat) (o : Outputs)
    (frames : List Packet) :
    processAll opts video n o frames = separately opts video n o frames := by
  induction frames generalizing n o with
  | nil => simp [processAll, separately, pictures, encodedFrames, networkRun_nil, testBytes, rows,
      printTable, delayed, AverageDelay.averages, AverageDelay.delays, AverageDelay.after]
  | cons p ps ih =>
    rw [processAll, separately_cons, processFrame_eq]
    exact congrArg (Option.bind _) (funext fun o => ih (n + 1) o)

/-- The loop is one loop for each output over the frames it encodes. -/
theorem run_separately (opts : Options) (video : Video) (ps : List Packet) :
    (runVideoLoop opts video .start ps).map Loop.out =
      separately opts video 0 .start (encodes opts video.iVideoStream ps) := by
  have processed := @run_processes opts video ps .start 0 rfl Int.le_of_lt
  rw [processed, processAll_eq]
  rfl

/-- The loop ends with these outputs exactly where the pictures can be saved and the network part
stays in its buffer, and then each output is that of its own loop over the encoded frames. -/
theorem loop_fission (opts : Options) (video : Video) (ps : List Packet) (o : Outputs) :
    (∃ l, runVideoLoop opts video .start ps = some l ∧ l.out = o) ↔
      pictures opts video 0 (encodes opts video.iVideoStream ps) = some o.files ∧
      networkRun opts .cleared (encodedFrames (encodes opts video.iVideoStream ps)) =
        some (o.vid, o.emissions) ∧
      o.test = testBytes opts (encodedFrames (encodes opts video.iVideoStream ps)) ∧
      o.statistics = printTable [] (rows 0 (encodes opts video.iVideoStream ps)) ∧
      o.delays = AverageDelay.after .start
        (AverageDelay.delays opts.networkport (delayed (encodes opts video.iVideoStream ps))) ∧
      o.averages = AverageDelay.averages opts.networkport .start
        (delayed (encodes opts video.iVideoStream ps)) := by
  have whole := run_separately opts video ps
  rw [← Option.map_eq_some_iff, whole]
  constructor
  · intro ended
    obtain ⟨files, saved, rest⟩ := Option.bind_eq_some_iff.mp ended
    obtain ⟨⟨vid, emissions⟩, networked, out⟩ := Option.bind_eq_some_iff.mp rest
    obtain rfl := Option.some.inj out
    exact ⟨saved, networked, rfl, rfl, rfl, rfl⟩
  · rintro ⟨saved, networked, test, statistics, delays, averages⟩
    have start : (Outputs.start).vid = .cleared := rfl
    simp only [separately, saved, start, networked, Option.bind_eq_bind, Option.bind_some]
    cases o
    simp_all [Outputs.start]

end VideoLoop
