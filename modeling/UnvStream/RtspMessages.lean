import UnvStream.Vocabulary
import UnvStream.DelimitedText
import UnvStream.DecimalText
import Mathlib.Algebra.Ring.Int.Defs

/-!
# The RTSP messages of both sides

A `std::string` is a list of characters and an `int` is an `Int32`, whose addition
wraps around. Indexing a vector past its end gives `none`. Both parsers print the
lines they read; the printing is left out.
-/

namespace RtspMessages

open Vocabulary DelimitedText DecimalText

structure ClientSession where
  udpPort : Int32
  rtspId : Int32
  rtspSeqNb : Int32
  deriving DecidableEq

structure ServerSession where
  rtspId : Int32
  rtspSeqNb : Int32
  deriving DecidableEq

def longMin : Int := -2 ^ 63
def longMax : Int := 2 ^ 63 - 1

/-- `strtol` saturates at the range of `long` and `atoi` keeps the low 32 bits. -/
def atoi (text : List Char) : Int32 := Int32.ofInt (max longMin (min longMax (parseInt text)))

/-- `split` has the same body in rtspServer.h and in netClient.cpp. -/
def split (text : List Char) (delim : Char) (elems : List (List Char)) : List (List Char) :=
  elems ++ items delim text

/-- What is appended has no delimiter in it and joins to the text, and a join is cut into what
was joined. -/
structure SplitInverse (split : List Char → Char → List (List Char) → List (List Char)) :
    Prop where
  cut : ∀ text delim elems, ∃ pieces, split text delim elems = elems ++ pieces ∧
    (∀ p ∈ pieces, delim ∉ p) ∧ [delim].intercalate pieces = withoutLast delim text ∧
    (text = [] → pieces = [])
  joined : ∀ delim pieces elems, pieces ≠ [] → (∀ p ∈ pieces, delim ∉ p) →
    pieces.getLast? ≠ some [] →
    split ([delim].intercalate pieces) delim elems = elems ++ pieces

def printed (x : Int32) : List Char := printInt x.toInt

/-- What a stream holds after a label and a number. -/
def field (label : String) (x : Int32) : List Char := label.toList ++ printed x

def prepareRTSPRequest (c : ClientSession) (requestType : List Char) :
    ClientSession × List Char :=
  let c := { c with rtspSeqNb := c.rtspSeqNb + 1 }
  (c, requestType ++ " RTSP/1.0".toList ++ ['\r', '\n'] ++
    (field "CSeq: " c.rtspSeqNb ++ ['\r', '\n']) ++
    if requestType = "SETUP".toList then
      field "Transport: RTP/UDP; client_port= " c.udpPort ++ ['\r', '\n']
    else field "Session: " c.rtspId ++ ['\n'])

def prepareRTSPResponse (s : ServerSession) : ServerSession × List Char :=
  let s := { s with rtspSeqNb := s.rtspSeqNb + 1 }
  (s, "RTSP/1.0 200 OK".toList ++ ['\r', '\n'] ++
    (field "CSeq: " s.rtspSeqNb ++ ['\r', '\n']) ++
    (field "Session: " s.rtspId ++ ['\r', '\n']))

def requestTypeOf (text : List Char) : RequestType :=
  if text = "SETUP".toList then .setup
  else if text = "PLAY".toList then .play
  else if text = "PAUSE".toList then .pause
  else if text = "TEARDOWN".toList then .teardown
  else .unrecognised

/-- The sequence number is read from the second token of the request line; the
tokens of the CSeq line are not used. -/
def parseRTSPRequest (s : ServerSession) (request : List Char) :
    Option (ServerSession × RequestType) := do
  let lines := split request '\n' []
  let requestLine ← lines[0]?
  let tokens := split requestLine ' ' []
  let requestTypeString ← tokens[0]?
  if requestTypeOf requestTypeString = .unrecognised then return (s, .unrecognised)
  else
    let _seqNumLine ← lines[1]?
    let seqToken ← tokens[1]?
    let _lastLine ← lines[2]?
    return ({ s with rtspSeqNb := atoi seqToken }, requestTypeOf requestTypeString)

/-- Here too the sequence number is read from the second token of the first line. -/
def parseServerResponse (c : ClientSession) (response : List Char) :
    Option (ClientSession × Int32) := do
  let lines := split response '\n' []
  let statusLine ← lines[0]?
  let tokens := split statusLine ' ' []
  let codeToken ← tokens[1]?
  if atoi codeToken = 200 then
    let _seqNumLine ← lines[1]?
    let sessionLine ← lines[2]?
    let sessionTokens := split sessionLine ' ' []
    let idToken ← sessionTokens[1]?
    return ({ c with rtspSeqNb := atoi codeToken, rtspId := atoi idToken }, atoi codeToken)
  else return (c, atoi codeToken)

/-- Splitting and joining are inverse, up to a delimiter at the end. -/
theorem split_inverse : SplitInverse split := by
  constructor
  · intro text delim elems
    refine ⟨items delim text, rfl, items_clean delim text, intercalate_items delim text, ?_⟩
    rintro rfl
    exact items_nil delim
  · intro delim pieces elems some_piece clean last
    rw [split, items_intercalate delim some_piece clean last]

example : split ",a,,b,".toList ',' [] = ["".toList, "a".toList, "".toList, "b".toList] := by
  decide

theorem not_mem_printed {c : Char} (noDigit : c.isDigit = false) (noMinus : c ≠ '-')
    (x : Int32) : c ∉ printed x := by
  intro h
  rcases mem_printInt h with digit | minus
  · rw [noDigit] at digit
    cases digit
  · exact noMinus minus

/-- Every `int` survives printing and `atoi`, whatever follows the number. -/
theorem atoi_printed (x : Int32) {rest : List Char} (stops : Stops rest) :
    atoi (printed x ++ rest) = x := by
  have low := x.le_toInt
  have high := x.toInt_lt
  have inside : max longMin (min longMax x.toInt) = x.toInt := by
    simp only [longMin, longMax]
    omega
  rw [atoi, printed, parseInt_printInt _ stops, inside, Int32.ofInt_toInt]

/-- The three lines a message consists of. -/
structure Message (text : List Char) (first second third : List Char) : Prop where
  lines : text = [first, second, third].flatMap fun l => l ++ ['\n']
  clean : ∀ l ∈ [first, second, third], '\n' ∉ l

theorem Message.split_lines {text first second third : List Char}
    (m : Message text first second third) : split text '\n' [] = [first, second, third] := by
  rw [split, List.nil_append, m.lines]
  exact items_lines '\n' _ m.clean

/-- A line of two words. -/
theorem split_words {first second : List Char} (clean1 : ' ' ∉ first) (clean2 : ' ' ∉ second)
    (nonempty : second ≠ []) : split (first ++ ' ' :: second) ' ' [] = [first, second] := by
  rw [split, List.nil_append, items_delimited ' ' clean1, items_last ' ' clean2 nonempty]

/-- A recognised name is one of the four texts. -/
theorem recognised_cases {name : List Char} (known : requestTypeOf name ≠ .unrecognised) :
    name = "SETUP".toList ∨ name = "PLAY".toList ∨ name = "PAUSE".toList ∨
      name = "TEARDOWN".toList := by
  unfold requestTypeOf at known
  by_cases setup : name = "SETUP".toList
  · exact Or.inl setup
  · by_cases play : name = "PLAY".toList
    · exact Or.inr (Or.inl play)
    · by_cases pause : name = "PAUSE".toList
      · exact Or.inr (Or.inr (Or.inl pause))
      · by_cases teardown : name = "TEARDOWN".toList
        · exact Or.inr (Or.inr (Or.inr teardown))
        · rw [if_neg setup, if_neg play, if_neg pause, if_neg teardown] at known
          exact absurd rfl known

theorem recognised_clean {name : List Char} (known : requestTypeOf name ≠ .unrecognised) :
    '\n' ∉ name ∧ ' ' ∉ name := by
  rcases recognised_cases known with rfl | rfl | rfl | rfl <;> constructor <;> decide +kernel

theorem not_mem_field {c : Char} (noDigit : c.isDigit = false) (noMinus : c ≠ '-')
    {label : String} (clean : c ∉ label.toList) (x : Int32) : c ∉ field label x :=
  List.not_mem_append clean (not_mem_printed noDigit noMinus x)

theorem newline_not_mem_field {label : String} (clean : '\n' ∉ label.toList) (x : Int32) :
    '\n' ∉ field label x := not_mem_field (by decide) (by decide) clean x

/-- Appending the `\r` that stays on a line. -/
theorem newline_not_mem_return {line : List Char} (clean : '\n' ∉ line) :
    '\n' ∉ line ++ ['\r'] := List.not_mem_append clean (by decide)

def requestLastLine (c : ClientSession) (name : List Char) : List Char :=
  if name = "SETUP".toList then field "Transport: RTP/UDP; client_port= " c.udpPort ++ ['\r']
  else field "Session: " c.rtspId

theorem requestLastLine_clean (c : ClientSession) (name : List Char) :
    '\n' ∉ requestLastLine c name := by
  unfold requestLastLine
  by_cases setup : name = "SETUP".toList
  · rw [if_pos setup]
    exact newline_not_mem_return (newline_not_mem_field (by decide +kernel) _)
  · rw [if_neg setup]
    exact newline_not_mem_field (by decide +kernel) _

theorem request_message (c : ClientSession) {name : List Char} (clean : '\n' ∉ name) :
    Message (prepareRTSPRequest c name).2 (name ++ " RTSP/1.0".toList ++ ['\r'])
      (field "CSeq: " (c.rtspSeqNb + 1) ++ ['\r']) (requestLastLine c name) where
  lines := by
    by_cases setup : name = "SETUP".toList
    · simp only [prepareRTSPRequest, requestLastLine, if_pos setup, List.flatMap_cons,
        List.flatMap_nil, List.append_assoc, List.append_nil, List.cons_append, List.nil_append]
    · simp only [prepareRTSPRequest, requestLastLine, if_neg setup, List.flatMap_cons,
        List.flatMap_nil, List.append_assoc, List.append_nil, List.cons_append, List.nil_append]
  clean := by
    have version : '\n' ∉ " RTSP/1.0".toList := by decide +kernel
    have first : '\n' ∉ name ++ " RTSP/1.0".toList := List.not_mem_append clean version
    intro l hl
    simp only [List.mem_cons, List.not_mem_nil, or_false] at hl
    rcases hl with rfl | rfl | rfl
    · exact newline_not_mem_return first
    · exact newline_not_mem_return (newline_not_mem_field (by decide +kernel) _)
    · exact requestLastLine_clean c name

theorem response_message (s : ServerSession) :
    Message (prepareRTSPResponse s).2 ("RTSP/1.0 200 OK".toList ++ ['\r'])
      (field "CSeq: " (s.rtspSeqNb + 1) ++ ['\r']) (field "Session: " s.rtspId ++ ['\r']) where
  lines := by
    simp only [prepareRTSPResponse, List.flatMap_cons, List.flatMap_nil, List.append_assoc,
      List.append_nil, List.cons_append, List.nil_append]
  clean := by
    intro l hl
    simp only [List.mem_cons, List.not_mem_nil, or_false] at hl
    rcases hl with rfl | rfl | rfl
    · exact newline_not_mem_return (by decide +kernel)
    · exact newline_not_mem_return (newline_not_mem_field (by decide +kernel) _)
    · exact newline_not_mem_return (newline_not_mem_field (by decide +kernel) _)

theorem nul_not_mem_line (label : String) (clean : '\x00' ∉ label.toList) (x : Int32)
    {ending : List Char} (hending : '\x00' ∉ ending) : '\x00' ∉ field label x ++ ending :=
  List.not_mem_append (not_mem_field (by decide) (by decide) clean x) hending

/-- A prepared request holds no NUL, so nothing of it is cut off. -/
theorem nul_not_mem_request (c : ClientSession) {name : List Char}
    (known : requestTypeOf name ≠ .unrecognised) : '\x00' ∉ (prepareRTSPRequest c name).2 := by
  have clean : '\x00' ∉ name := by
    rcases recognised_cases known with rfl | rfl | rfl | rfl <;> decide +kernel
  have version : '\x00' ∉ " RTSP/1.0".toList := by decide +kernel
  have ending : '\x00' ∉ ['\r', '\n'] := by decide
  have first := List.not_mem_append (List.not_mem_append clean version) ending
  have second := nul_not_mem_line "CSeq: " (by decide +kernel) (c.rtspSeqNb + 1) ending
  refine List.not_mem_append (List.not_mem_append first second) ?_
  by_cases setup : name = "SETUP".toList
  · rw [if_pos setup]
    exact nul_not_mem_line "Transport: RTP/UDP; client_port= " (by decide +kernel) _ ending
  · rw [if_neg setup]
    exact nul_not_mem_line "Session: " (by decide +kernel) _ (by decide)

theorem nul_not_mem_response (s : ServerSession) : '\x00' ∉ (prepareRTSPResponse s).2 := by
  have version : '\x00' ∉ "RTSP/1.0 200 OK".toList := by decide +kernel
  have ending : '\x00' ∉ ['\r', '\n'] := by decide
  have second := nul_not_mem_line "CSeq: " (by decide +kernel) (s.rtspSeqNb + 1) ending
  have third := nul_not_mem_line "Session: " (by decide +kernel) s.rtspId ending
  have first := List.not_mem_append version ending
  exact List.not_mem_append (List.not_mem_append first second) third

/-- The server reads a prepared request as its method, and takes `RTSP/1.0` for the
sequence number. -/
theorem parse_prepared_request (c : ClientSession) (s : ServerSession) {name : List Char}
    (known : requestTypeOf name ≠ .unrecognised) :
    parseRTSPRequest s (prepareRTSPRequest c name).2 =
      some ({ s with rtspSeqNb := 0 }, requestTypeOf name) := by
  obtain ⟨newline, space⟩ := recognised_clean known
  have lines := (request_message c newline).split_lines
  have version : " RTSP/1.0".toList ++ ['\r'] = ' ' :: "RTSP/1.0\r".toList := by decide +kernel
  have words : split (name ++ " RTSP/1.0".toList ++ ['\r']) ' ' [] =
      [name, "RTSP/1.0\r".toList] := by
    rw [List.append_assoc, version]
    exact split_words space (by decide +kernel) (by decide +kernel)
  have number : atoi "RTSP/1.0\r".toList = 0 := by decide +kernel
  simp only [parseRTSPRequest, lines, List.getElem?_cons_zero, List.getElem?_cons_succ,
    Option.bind_eq_bind, Option.bind_some, words, if_neg known, number, Option.pure_def]

/-- The words of a labelled line. -/
theorem split_field {label : String} {word : List Char}
    (text : label.toList = word ++ [' ']) (clean : ' ' ∉ word) (x : Int32) :
    split (field label x ++ ['\r']) ' ' [] = [word, printed x ++ ['\r']] := by
  have line : field label x ++ ['\r'] = word ++ ' ' :: (printed x ++ ['\r']) := by
    rw [field, text, List.append_assoc, List.append_assoc, List.singleton_append]
  have number : ' ' ∉ printed x ++ ['\r'] :=
    List.not_mem_append (not_mem_printed (by decide) (by decide) x) (by decide)
  rw [line]
  exact split_words clean number (by simp)

/-- The client reads a prepared response as 200, learns the session identifier and
takes 200 for the sequence number. -/
theorem parse_prepared_response (c : ClientSession) (s : ServerSession) :
    parseServerResponse c (prepareRTSPResponse s).2 =
      some ({ c with rtspSeqNb := 200, rtspId := s.rtspId }, 200) := by
  have lines := (response_message s).split_lines
  have words : split ("RTSP/1.0 200 OK".toList ++ ['\r']) ' ' [] =
      ["RTSP/1.0".toList, "200".toList, "OK\r".toList] := by decide +kernel
  have code : atoi "200".toList = 200 := by decide +kernel
  have session : split (field "Session: " s.rtspId ++ ['\r']) ' ' [] =
      ["Session:".toList, printed s.rtspId ++ ['\r']] :=
    split_field (by decide +kernel) (by decide +kernel) _
  have id : atoi (printed s.rtspId ++ ['\r']) = s.rtspId :=
    atoi_printed s.rtspId (stops_cons (by decide) [])
  simp only [parseServerResponse, lines, List.getElem?_cons_zero, List.getElem?_cons_succ,
    Option.bind_eq_bind, Option.bind_some, words, code, if_true, session, id,
    Option.pure_def]

/-- Both directions, for every value of the counters, the port and the identifiers. -/
theorem messages_round_trip (c : ClientSession) (s : ServerSession) :
    (∃ s', parseRTSPRequest s (prepareRTSPRequest c "SETUP".toList).2 = some (s', .setup)) ∧
    (∃ s', parseRTSPRequest s (prepareRTSPRequest c "PLAY".toList).2 = some (s', .play)) ∧
    (∃ s', parseRTSPRequest s (prepareRTSPRequest c "PAUSE".toList).2 = some (s', .pause)) ∧
    (∃ s', parseRTSPRequest s (prepareRTSPRequest c "TEARDOWN".toList).2 =
      some (s', .teardown)) ∧
    ∃ c', parseServerResponse c (prepareRTSPResponse s).2 = some (c', 200) ∧
      c'.rtspId = s.rtspId := by
  have setup : requestTypeOf "SETUP".toList = .setup := by decide +kernel
  have play : requestTypeOf "PLAY".toList = .play := by decide +kernel
  have pause : requestTypeOf "PAUSE".toList = .pause := by decide +kernel
  have teardown : requestTypeOf "TEARDOWN".toList = .teardown := by decide +kernel
  have read {name : List Char} {type : RequestType} (known : requestTypeOf name = type)
      (method : type ≠ .unrecognised) :
      ∃ s', parseRTSPRequest s (prepareRTSPRequest c name).2 = some (s', type) := by
    subst known
    exact ⟨_, parse_prepared_request c s method⟩
  exact ⟨read setup (by decide), read play (by decide), read pause (by decide),
    read teardown (by decide), _, parse_prepared_response c s, rfl⟩

end RtspMessages
