import UnvStream.Vocabulary

/-!
# The frame limit of the video loop

The loop counts frames in a local variable, which it compares with the limit after a frame
is encoded and before it is counted. The report of `main` reads the global variable of the
same name.
-/

namespace FrameLimit

open Vocabulary

/-- The options of `cliOpts` that decide what becomes of a packet. -/
structure Options where
  transport : Transport
  vcodec : VideoCodec
  maxframes : Int
  saveframes : Int

/-- A packet of `av_read_frame`, with `StopExecution` once it is read and what the decoder
and the encoder answer. -/
structure Packet where
  stopExecution : Bool
  streamIndex : Int
  iFrameFinished : Bool
  iEncodedBytes : Int

/-- `iFramesDecoded` of Server.h, which starts as 0. -/
structure Globals where
  iFramesDecoded : Int

/-- The variables of the loop, what the encoder has returned, the numbers of the saved frames
and the rows of the statistics file. -/
structure Loop where
  globals : Globals
  iFramesDecoded : Int
  frameId : Int
  encoded : List Int
  savedFrames : List Int
  statistics : List (Int × Int)

def Loop.start : Loop := ⟨⟨0⟩, 0, 0, [], [], []⟩

/-- How a pass of the loop ends. -/
inductive Flow where
  | next (l : Loop)
  | left (l : Loop)

def framerateDrop : Int := 1

/-- Only TCP with H264 counts packets. -/
def dropsFrames (opts : Options) : Prop := opts.transport = .useTCP ∧ opts.vcodec = .useH264

instance (opts : Options) : Decidable (dropsFrames opts) :=
  inferInstanceAs (Decidable (_ ∧ _))

def nextFrameId (frameId : Int) : Int :=
  if 204800000 < frameId + 1 then 0 else frameId + 1

/-- The statements about frame dropping, on `frame_id` and the stream index of the packet. -/
def dropPacket (opts : Options) (frameId streamIndex : Int) : Int × Int :=
  if dropsFrames opts then
    let frameId := nextFrameId frameId
    (frameId, if frameId.tmod framerateDrop ≠ 0 then -1 else streamIndex)
  else (frameId, streamIndex)

def dropFrame (opts : Options) (l : Loop) (p : Packet) : Loop × Int :=
  let (frameId, streamIndex) := dropPacket opts l.frameId p.streamIndex
  ({ l with frameId := frameId }, streamIndex)

/-- What a finished frame goes through up to the encoder and the statistics. -/
def processFrame (opts : Options) (l : Loop) (p : Packet) : Loop :=
  let l := if 0 < opts.saveframes ∧ l.iFramesDecoded.tmod opts.saveframes = 0
    then { l with savedFrames := l.savedFrames ++ [l.iFramesDecoded] } else l
  let l := { l with encoded := l.encoded ++ [p.iEncodedBytes] }
  if 0 < p.iEncodedBytes
    then { l with statistics := l.statistics ++ [(l.iFramesDecoded, p.iEncodedBytes)] } else l

/-- The test of the limit, then the count. -/
def countFrame (opts : Options) (l : Loop) : Flow :=
  if 0 < opts.maxframes ∧ opts.maxframes ≤ l.iFramesDecoded then .left l
  else .next { l with iFramesDecoded := l.iFramesDecoded + 1 }

/-- The body of the loop. -/
def pass (opts : Options) (iVideoStream : Int) (l : Loop) (p : Packet) : Flow :=
  if p.stopExecution then .left l
  else
    let (l, streamIndex) := dropFrame opts l p
    if streamIndex = iVideoStream then
      if p.iFrameFinished then countFrame opts (processFrame opts l p) else .next l
    else .next l

/-- `runVideoLoop` on the packets that can be read. -/
def runVideoLoop (opts : Options) (iVideoStream : Int) : Loop → List Packet → Loop
  | l, [] => l
  | l, p :: ps =>
    match pass opts iVideoStream l p with
    | .next l => runVideoLoop opts iVideoStream l ps
    | .left l => l

/-- The number that `main` prints as frames parsed. -/
def framesParsed (l : Loop) : Int := l.globals.iFramesDecoded

def Packet.complete (iVideoStream : Int) (p : Packet) : Bool :=
  p.streamIndex == iVideoStream && p.iFrameFinished

/-- What is wanted of a list up to the first element that stops. -/
def untilStop {α : Type} (stops wanted : α → Bool) (xs : List α) : List α :=
  (xs.takeWhile fun x => !stops x).filter wanted

/-- The complete video frames that are read before the loop is told to stop. -/
def available (iVideoStream : Int) (ps : List Packet) : List Packet :=
  untilStop Packet.stopExecution (Packet.complete iVideoStream) ps

/-- The loop processes the available frames up to the limit, and their number is reported. -/
structure Limited (opts : Options) (iVideoStream : Int) (ps : List Packet) : Prop where
  processed : ((runVideoLoop opts iVideoStream Loop.start ps).encoded.length : Int) =
    min opts.maxframes (available iVideoStream ps).length
  reported : framesParsed (runVideoLoop opts iVideoStream Loop.start ps) =
    (runVideoLoop opts iVideoStream Loop.start ps).encoded.length

section
variable {α : Type} {stops wanted : α → Bool} {x : α}

theorem untilStop_stop (stopped : stops x = true) (xs : List α) :
    untilStop stops wanted (x :: xs) = [] := by
  simp [untilStop, stopped]

theorem untilStop_wanted (going : stops x = false) (isWanted : wanted x = true) (xs : List α) :
    untilStop stops wanted (x :: xs) = x :: untilStop stops wanted xs := by
  simp [untilStop, going, isWanted]

theorem untilStop_skip (going : stops x = false) (unwanted : wanted x = false) (xs : List α) :
    untilStop stops wanted (x :: xs) = untilStop stops wanted xs := by
  simp [untilStop, going, unwanted]

/-- The tests of the stream and of the decoder fail for an incomplete packet. -/
theorem tests_fail {streamIndex iVideoStream : Int} {finished : Bool}
    (incomplete : (streamIndex == iVideoStream && finished) = false) (frame other : α) :
    (if streamIndex = iVideoStream then if finished then frame else other else other) = other := by
  by_cases onVideo : streamIndex = iVideoStream
  · have unfinished : finished = false := by simpa [onVideo] using incomplete
    rw [unfinished]
    simp
  · rw [if_neg onVideo]

end

/-- Dropping one frame of one keeps every frame. -/
theorem dropPacket_keeps (opts : Options) (frameId streamIndex : Int) :
    ∃ frameId', dropPacket opts frameId streamIndex = (frameId', streamIndex) := by
  by_cases drops : dropsFrames opts
  · exact ⟨nextFrameId frameId, by simp [dropPacket, drops, framerateDrop, Int.tmod_one]⟩
  · exact ⟨frameId, by simp [dropPacket, drops]⟩

theorem dropFrame_spec (opts : Options) (l : Loop) (p : Packet) :
    ∃ frameId, dropFrame opts l p = ({ l with frameId := frameId }, p.streamIndex) := by
  obtain ⟨frameId, kept⟩ := dropPacket_keeps opts l.frameId p.streamIndex
  exact ⟨frameId, by simp only [dropFrame, kept]⟩

theorem processFrame_spec (opts : Options) (l : Loop) (p : Packet) :
    ∃ savedFrames statistics, processFrame opts l p =
      { l with encoded := l.encoded ++ [p.iEncodedBytes], savedFrames := savedFrames,
               statistics := statistics } := by
  unfold processFrame
  split <;> split <;> exact ⟨_, _, rfl⟩

theorem pass_stop {p : Packet} (stopped : p.stopExecution = true) (opts : Options)
    (iVideoStream : Int) (l : Loop) : pass opts iVideoStream l p = .left l := by
  simp [pass, stopped]

theorem pass_skip {iVideoStream : Int} {p : Packet} (going : p.stopExecution = false)
    (incomplete : p.complete iVideoStream = false) (opts : Options) (l : Loop) :
    ∃ frameId, pass opts iVideoStream l p = .next { l with frameId := frameId } := by
  obtain ⟨frameId, dropped⟩ := dropFrame_spec opts l p
  refine ⟨frameId, ?_⟩
  simp only [pass, going, dropped, Bool.false_eq_true, if_false]
  exact tests_fail incomplete _ _

theorem pass_frame {iVideoStream : Int} {p : Packet} (going : p.stopExecution = false)
    (complete : p.complete iVideoStream = true) (opts : Options) (l : Loop) :
    ∃ frameId savedFrames statistics, pass opts iVideoStream l p = countFrame opts
      { l with frameId := frameId, encoded := l.encoded ++ [p.iEncodedBytes],
               savedFrames := savedFrames, statistics := statistics } := by
  obtain ⟨frameId, dropped⟩ := dropFrame_spec opts l p
  obtain ⟨savedFrames, statistics, processed⟩ :=
    processFrame_spec opts { l with frameId := frameId } p
  obtain ⟨video, finished⟩ : p.streamIndex = iVideoStream ∧ p.iFrameFinished = true := by
    simpa [Packet.complete] using complete
  refine ⟨frameId, savedFrames, statistics, ?_⟩
  simp [pass, going, dropped, video, finished, processed]

/-- Between two passes the local count is the number of processed frames, which has not passed
the limit, and the global count is still 0. -/
structure Counted (opts : Options) (l : Loop) : Prop where
  count : l.iFramesDecoded = l.encoded.length
  below : l.iFramesDecoded ≤ opts.maxframes
  untouched : l.globals.iFramesDecoded = 0

theorem Counted.next {opts : Options} {l : Loop} {frameId bytes : Int} {savedFrames : List Int}
    {statistics : List (Int × Int)} (counted : Counted opts l)
    (room : l.iFramesDecoded < opts.maxframes) :
    Counted opts ⟨l.globals, l.iFramesDecoded + 1, frameId, l.encoded ++ [bytes], savedFrames,
      statistics⟩ where
  count := by
    rw [List.length_append, Int.natCast_add, counted.count]
    rfl
  below := room
  untouched := counted.untouched

/-- A run that ends here has not processed the frame beyond the limit. -/
theorem Counted.ends {opts : Options} {l : Loop} (counted : Counted opts l) :
    (l.encoded.length : Int) = min (opts.maxframes + 1) (l.encoded.length + (0 : Nat)) ∧
      framesParsed l = 0 := by
  have below := counted.below
  rw [counted.count] at below
  constructor
  · omega
  · exact counted.untouched

/-- The frame that finds the count at the limit is still processed. -/
theorem run_spec {opts : Options} (limited : 0 < opts.maxframes) (iVideoStream : Int)
    (ps : List Packet) {l : Loop} (counted : Counted opts l) :
    ((runVideoLoop opts iVideoStream l ps).encoded.length : Int) =
        min (opts.maxframes + 1) (l.encoded.length + (available iVideoStream ps).length) ∧
      framesParsed (runVideoLoop opts iVideoStream l ps) = 0 := by
  induction ps generalizing l with
  | nil => exact counted.ends
  | cons p ps ih =>
    cases stopped : p.stopExecution with
    | true =>
      simp only [runVideoLoop, pass_stop stopped, available, untilStop_stop stopped,
        List.length_nil]
      exact counted.ends
    | false =>
      cases complete : p.complete iVideoStream with
      | false =>
        obtain ⟨frameId, skipped⟩ := pass_skip stopped complete opts l
        simp only [runVideoLoop, skipped, available, untilStop_skip stopped complete]
        exact ih ⟨counted.count, counted.below, counted.untouched⟩
      | true =>
        obtain ⟨frameId, savedFrames, statistics, framed⟩ := pass_frame stopped complete opts l
        have found : available iVideoStream (p :: ps) = p :: available iVideoStream ps :=
          untilStop_wanted stopped complete ps
        simp only [runVideoLoop, framed, countFrame, found, List.length_cons]
        by_cases full : opts.maxframes ≤ l.iFramesDecoded
        · have count := counted.count
          have below := counted.below
          simp only [if_pos (And.intro limited full), List.length_append, List.length_singleton]
          exact ⟨by omega, counted.untouched⟩
        · simp only [if_neg fun both : 0 < opts.maxframes ∧ _ => full both.2]
          obtain ⟨processed, reported⟩ := ih (counted.next (Int.not_le.mp full))
          refine ⟨processed.trans ?_, reported⟩
          simp only [List.length_append, List.length_singleton]
          omega

theorem counted_start {opts : Options} (limited : 0 < opts.maxframes) :
    Counted opts Loop.start :=
  ⟨rfl, Int.le_of_lt limited, rfl⟩

theorem processed_eq {opts : Options} (limited : 0 < opts.maxframes) (iVideoStream : Int)
    (ps : List Packet) : ((runVideoLoop opts iVideoStream Loop.start ps).encoded.length : Int) =
      min (opts.maxframes + 1) (available iVideoStream ps).length := by
  have processed := (run_spec limited iVideoStream ps (counted_start limited)).1
  simpa only [Loop.start, List.length_nil, Int.natCast_zero, Int.zero_add] using processed

/-- Nothing is ever reported. -/
theorem framesParsed_eq {opts : Options} (limited : 0 < opts.maxframes) (iVideoStream : Int)
    (ps : List Packet) : framesParsed (runVideoLoop opts iVideoStream Loop.start ps) = 0 :=
  (run_spec limited iVideoStream ps (counted_start limited)).2

/-- The limit is met exactly where it does not cut the stream. -/
theorem limit_met_iff {opts : Options} (limited : 0 < opts.maxframes) (iVideoStream : Int)
    (ps : List Packet) :
    ((runVideoLoop opts iVideoStream Loop.start ps).encoded.length : Int) =
        min opts.maxframes (available iVideoStream ps).length ↔
      ((available iVideoStream ps).length : Int) ≤ opts.maxframes := by
  rw [processed_eq limited]
  omega

theorem report_met_iff {opts : Options} (limited : 0 < opts.maxframes) (iVideoStream : Int)
    (ps : List Packet) :
    framesParsed (runVideoLoop opts iVideoStream Loop.start ps) =
        (runVideoLoop opts iVideoStream Loop.start ps).encoded.length ↔
      available iVideoStream ps = [] := by
  rw [framesParsed_eq limited, processed_eq limited, ← List.length_eq_zero_iff]
  omega

/-- With a limit, limit and report are right exactly where no complete frame is available. -/
theorem limited_iff_none_available (opts : Options) (limited : 0 < opts.maxframes)
    (iVideoStream : Int) (ps : List Packet) :
    Limited opts iVideoStream ps ↔ available iVideoStream ps = [] := by
  constructor
  · rintro ⟨_, reported⟩
    exact (report_met_iff limited iVideoStream ps).mp reported
  · intro none_available
    refine ⟨(limit_met_iff limited iVideoStream ps).mpr ?_,
      (report_met_iff limited iVideoStream ps).mpr none_available⟩
    rw [none_available]
    exact Int.le_of_lt limited

/-- A stream of one packet that the decoder has not finished a frame from. -/
theorem unfinished_frame_limited :
    Limited ⟨.useUDP, .useMJPEG, 1, 0⟩ 0 [⟨false, 0, false, 0⟩] :=
  (limited_iff_none_available _ (by decide) _ _).mpr rfl

/-- With a limit of one frame, two frames are processed and none is reported. -/
theorem two_frames_not_limited :
    ¬ Limited ⟨.useUDP, .useMJPEG, 1, 0⟩ 0 [⟨false, 0, true, 10⟩, ⟨false, 0, true, 20⟩] := by
  rintro ⟨processed, _⟩
  exact absurd processed (by decide)

end FrameLimit
