import UnvStream.GetoptLong
import UnvStream.ModeSelection
import UnvStream.RtspMessages
import Mathlib.Data.List.Induction

/-!
# The options of the server

`get_options` takes the results of `getopt_long` one after the other, and `main` starts only if it
has got every option it needs. A missing token of a resolution is a null pointer.
-/

namespace ServerOptions

open Vocabulary DelimitedText RtspMessages ModeSelection GetoptLong

/-- The cases of `get_options`; "-?" and a refused word are handled as "-h". -/
inductive Opt where
  | verbose
  | formats
  | save
  | maxframes
  | resolution
  | mode
  | device
  | video
  | audio
  | port
  | vcodec
  | transport
  | help
  | version
  | default
  deriving DecidableEq

/-- The string "vfs:z:r:m:d:o:a:p:c:t:h?". -/
def optString : Char → Option (Bool × Opt)
  | 'v' => some (false, .verbose)
  | 'f' => some (false, .formats)
  | 's' => some (true, .save)
  | 'z' => some (true, .maxframes)
  | 'r' => some (true, .resolution)
  | 'm' => some (true, .mode)
  | 'd' => some (true, .device)
  | 'o' => some (true, .video)
  | 'a' => some (true, .audio)
  | 'p' => some (true, .port)
  | 'c' => some (true, .vcodec)
  | 't' => some (true, .transport)
  | 'h' => some (false, .help)
  | '?' => some (false, .help)
  | _ => none

def longOpts : List (LongOption Opt) := [
  ⟨"verbose".toList, false, .verbose⟩,
  ⟨"formats".toList, false, .formats⟩,
  ⟨"save".toList, true, .save⟩,
  ⟨"maxframes".toList, true, .maxframes⟩,
  ⟨"resolution".toList, true, .resolution⟩,
  ⟨"mode".toList, true, .mode⟩,
  ⟨"device".toList, true, .device⟩,
  ⟨"video".toList, true, .video⟩,
  ⟨"transport".toList, true, .transport⟩,
  ⟨"vcodec".toList, true, .vcodec⟩,
  ⟨"audio".toList, true, .audio⟩,
  ⟨"port".toList, true, .port⟩,
  ⟨"help".toList, false, .help⟩,
  ⟨"version".toList, false, .version⟩,
  ⟨"DEFAULT".toList, false, .default⟩]

def options : OptionTable Opt where
  short := optString
  long := longOpts
  dash := rfl
  named := by decide
  distinct := by decide

/-- The options but for `verbose`, on which only messages depend. `transport` and `vcodec` are 4
until they are set. -/
structure CliOpts where
  version : Bool
  formats : Bool
  saveframes : Int32
  maxframes : Int32
  width : Int32
  height : Int32
  networkport : Int32
  transport : Option Transport
  vcodec : Option VideoCodec
  devicepath : Option Word
  mode : Option Block
  videopath : Option Word
  savevideo : Bool
  audiopath : Option Word
  saveaudio : Bool

structure Parsing where
  cliOpts : CliOpts
  error : Bool

def start : Parsing where
  error := false
  cliOpts := {
    version := false
    formats := false
    saveframes := 0
    maxframes := 0
    width := 640
    height := 480
    networkport := 0
    transport := none
    vcodec := none
    devicepath := none
    mode := none
    videopath := none
    savevideo := false
    audiopath := none
    saveaudio := false }

/-- How the process ends before it opens the device. -/
inductive Exit where
  | usage
  | nullPointer
  | notUnderstood
  | mandatoryMissing
  | showsVersion
  | showsFormats
  | notInitialised
  deriving DecidableEq

def pointer {α : Type} : Option α → Except Exit α
  | some a => .ok a
  | none => .error .nullPointer

/-- The next token, and what `strtok` keeps for the call after this. -/
def strtok (delim : Char) (text : List Char) : Option (List Char × List Char) :=
  getline delim (text.dropWhile (· = delim))

def getResolution (optarg : Word) : Option (Int32 × Int32) := do
  let (width, rest) ← strtok 'x' optarg
  let (height, _) ← strtok 'x' rest
  return (atoi width, atoi height)

def getTransport (optarg : Word) : Transport :=
  if optarg = "UDP".toList ∨ optarg = "udp".toList then .useUDP else .useTCP

def getCodec (optarg : Word) : VideoCodec :=
  if optarg = "MJPEG".toList ∨ optarg = "mjpeg".toList then .useMJPEG else .useH264

/-- An argument as the string functions see it. -/
def cArgument (optarg : Word) : Argument where
  chars := optarg.takeWhile (· ≠ '\x00')
  noNul := by
    intro among
    have differs := List.mem_takeWhile_imp among
    exact absurd rfl (of_decide_eq_true differs)

/-- The option "DEFAULT". -/
def developmentDefaults (o : CliOpts) : CliOpts :=
  { o with
    saveframes := 10
    maxframes := 100
    mode := some ⟨4, #v['V', '4', 'L', '\x00']⟩
    devicepath := some "/dev/video0".toList
    videopath := some "test_out.mpg".toList
    audiopath := some "audio.mp3".toList
    savevideo := true
    saveaudio := true
    width := 640
    height := 480
    networkport := 5000 }

/-- A case that begins with the test of the length of its argument. -/
def unlessEmpty (st : Parsing) (optarg : Option Word)
    (assign : Word → Except Exit CliOpts) : Except Exit Parsing := do
  let text ← pointer optarg
  if (cArgument text).strlen ≤ 0 then return { st with error := true }
  let cliOpts ← assign text
  return { st with cliOpts := cliOpts }

/-- A case that sets options and goes on. -/
def assigned (st : Parsing) (cliOpts : CliOpts) : Except Exit Parsing :=
  .ok { st with cliOpts := cliOpts }

/-- The body of the loop of `get_options`, with what `malloc` finds in the memory it returns. -/
def getOption (malloc : (n : Nat) → Vector Char n) (st : Parsing) :
    Result Opt → Except Exit Parsing
  | .refused => .error .usage
  | .option value optarg =>
    let o := st.cliOpts
    match value with
    | .verbose => assigned st o
    | .save => do assigned st { o with saveframes := atoi (← pointer optarg) }
    | .maxframes => do assigned st { o with maxframes := atoi (← pointer optarg) }
    | .formats => assigned st { o with formats := true }
    | .resolution => unlessEmpty st optarg fun text => do
      let (width, height) ← pointer (getResolution text)
      return { o with width := width, height := height }
    | .mode => unlessEmpty st optarg fun text => do
      let stored ← pointer (getMode malloc ⟨o.mode, st.error⟩ (cArgument text))
      return { o with mode := stored.mode }
    | .transport => unlessEmpty st optarg fun text =>
      .ok { o with transport := some (getTransport text) }
    | .vcodec => unlessEmpty st optarg fun text => .ok { o with vcodec := some (getCodec text) }
    | .port => unlessEmpty st optarg fun text => .ok { o with networkport := atoi text }
    | .device => unlessEmpty st optarg fun text => .ok { o with devicepath := some text }
    | .video => unlessEmpty st optarg fun text =>
      .ok { o with videopath := some text, savevideo := true }
    | .audio => unlessEmpty st optarg fun text =>
      .ok { o with audiopath := some text, saveaudio := true }
    | .help => .error .usage
    | .version => assigned st { o with version := true }
    | .default => assigned st (developmentDefaults o)

def getOptions (malloc : (n : Nat) → Vector Char n) (argv : List Word) : Except Exit Parsing :=
  (getoptLong options argv).foldlM (getOption malloc) start

def mandatory (o : CliOpts) : Bool :=
  o.mode.isSome && o.devicepath.isSome && o.networkport != 0 && o.transport.isSome &&
    o.vcodec.isSome

def exitIf (test : Bool) (e : Exit) : Except Exit Unit := if test then .error e else .ok ()

/-- `main` up to the first call for the device, for the words behind the name of the program. -/
def main (malloc : (n : Nat) → Vector Char n) (argv : List Word) : Except Exit CliOpts := do
  exitIf argv.isEmpty .notUnderstood
  let st ← getOptions malloc argv
  exitIf st.error .notUnderstood
  exitIf (!mandatory st.cliOpts) .mandatoryMissing
  exitIf st.cliOpts.version .showsVersion
  exitIf st.cliOpts.formats .showsFormats
  exitIf (st.cliOpts.devicepath.isNone || st.cliOpts.mode.isNone) .notInitialised
  return st.cliOpts

/-- The last value that is written, if one is. -/
def lastOf {β : Type} (write : Result Opt → Option β) (rs : List (Result Opt)) : Option β :=
  (rs.filterMap write).getLast?

def versionOf : Result Opt → Option Unit
  | .option .version _ => some ()
  | _ => none

def formatsOf : Result Opt → Option Unit
  | .option .formats _ => some ()
  | _ => none

def saveOf : Result Opt → Option Int32
  | .option .save optarg => optarg.map atoi
  | .option .default _ => some 10
  | _ => none

def maxframesOf : Result Opt → Option Int32
  | .option .maxframes optarg => optarg.map atoi
  | .option .default _ => some 100
  | _ => none

def resolutionOf : Result Opt → Option (Int32 × Int32)
  | .option .resolution optarg => optarg.bind getResolution
  | .option .default _ => some (640, 480)
  | _ => none

def portOf : Result Opt → Option Int32
  | .option .port optarg => optarg.map atoi
  | .option .default _ => some 5000
  | _ => none

def transportOf : Result Opt → Option Transport
  | .option .transport optarg => optarg.map getTransport
  | _ => none

def codecOf : Result Opt → Option VideoCodec
  | .option .vcodec optarg => optarg.map getCodec
  | _ => none

def deviceOf : Result Opt → Option Word
  | .option .device optarg => optarg
  | .option .default _ => some "/dev/video0".toList
  | _ => none

def videoOf : Result Opt → Option Word
  | .option .video optarg => optarg
  | .option .default _ => some "test_out.mpg".toList
  | _ => none

def audioOf : Result Opt → Option Word
  | .option .audio optarg => optarg
  | .option .default _ => some "audio.mp3".toList
  | _ => none

def modeOf (malloc : (n : Nat) → Vector Char n) : Result Opt → Option Block
  | .option .mode (some text) =>
    (getMode malloc Options.start (cArgument text)).bind Options.mode
  | .option .default _ => some ⟨4, #v['V', '4', 'L', '\x00']⟩
  | _ => none

/-- The options of a command line: of each kind the last counts. -/
def meant (malloc : (n : Nat) → Vector Char n) (rs : List (Result Opt)) : CliOpts where
  version := (lastOf versionOf rs).isSome
  formats := (lastOf formatsOf rs).isSome
  saveframes := (lastOf saveOf rs).getD 0
  maxframes := (lastOf maxframesOf rs).getD 0
  width := ((lastOf resolutionOf rs).getD (640, 480)).1
  height := ((lastOf resolutionOf rs).getD (640, 480)).2
  networkport := (lastOf portOf rs).getD 0
  transport := lastOf transportOf rs
  vcodec := lastOf codecOf rs
  devicepath := lastOf deviceOf rs
  mode := lastOf (modeOf malloc) rs
  videopath := lastOf videoOf rs
  savevideo := (lastOf videoOf rs).isSome
  audiopath := lastOf audioOf rs
  saveaudio := (lastOf audioOf rs).isSome

/-- Every short option that takes an argument has a long name. -/
theorem optString_named {c : Char} {value : Opt} (takes : optString c = some (true, value)) :
    ∃ o ∈ longOpts, o.argument = true ∧ o.value = value := by
  have all : ∀ v : Opt, v ∈ [.save, .maxframes, .resolution, .mode, .device, .video, .audio, .port,
      .vcodec, .transport] → ∃ o ∈ longOpts, o.argument = true ∧ o.value = v := by
    decide
  refine all value ?_
  unfold optString at takes
  split at takes <;> cases takes <;> decide

/-- Every short option with an argument has a long name, and wherever it stands in a command line,
but as the argument of another option, the server does the same for all of its spellings, also
behind words that it does not understand. -/
theorem main_spellings {c : Char} {value : Opt} (takes : optString c = some (true, value))
    (malloc : (n : Nat) → Vector Char n) : ∃ o ∈ longOpts, o.value = value ∧
      ∀ before, awaits options before = false → ∀ optarg, ∀ spelling ∈ spellings c o.name optarg,
        ∀ spelling' ∈ spellings c o.name optarg, ∀ words,
          main malloc (before ++ (spelling ++ words)) =
            main malloc (before ++ (spelling' ++ words)) := by
  obtain ⟨o, listed, argument, rfl⟩ := optString_named takes
  refine ⟨o, listed, rfl, ?_⟩
  intro before settled optarg spelling among spelling' among' words
  have here := spelled_of_spelling (t := options) takes listed argument among
  have here' := spelled_of_spelling (t := options) takes listed argument among'
  have same := getoptLong_behind settled
    ((getoptLong_spelled here words).trans (getoptLong_spelled here' words).symm)
  have given : ∀ text, text ≠ [] → (before ++ (text ++ words)).isEmpty = false := by
    intro text nonempty
    exact List.isEmpty_eq_false_iff.mpr (by simp [nonempty])
  simp only [main, getOptions, same, given spelling (spelled_nonempty here),
    given spelling' (spelled_nonempty here')]

/-- "-p5000" is "--port=5000" behind "-v". -/
theorem port_spellings : ∃ o ∈ longOpts, o.value = .port ∧
    main (Vector.replicate · '\x00') ["-v".toList, "-p5000".toList] =
      main (Vector.replicate · '\x00') ["-v".toList, '-' :: '-' :: (o.name ++ "=5000".toList)] := by
  obtain ⟨o, listed, value, same⟩ := @main_spellings 'p' .port rfl (Vector.replicate · '\x00')
  have verbose : awaits options ["-v".toList] = false := rfl
  refine ⟨o, listed, value, same _ verbose "5000".toList ["-p5000".toList] ?_
    ['-' :: '-' :: (o.name ++ "=5000".toList)] ?_ []⟩
  · exact List.mem_append_right _ (List.mem_singleton_self _)
  · exact List.mem_append_left _ (.tail _ (.tail _ (.head _)))

end ServerOptions
