import UnvStream.RtspServer

/-!
# The RTSP parsers on arbitrary input

`recv` may deliver any text without a NUL. Both parsers index the pieces `getline` cuts
from it without asking how many there are; a text with fewer pieces is read past the end
of a vector.
-/

namespace ParserSafety

open Vocabulary DelimitedText RtspMessages RtspServer

def firstLine (text : List Char) : List Char := firstItem '\n' text
def thirdLine (text : List Char) : List Char :=
  firstItem '\n' (afterItem '\n' (afterItem '\n' text))

/-- The tokens of the first line. -/
def firstToken (text : List Char) : List Char := firstItem ' ' (firstLine text)
def secondToken (text : List Char) : List Char := firstItem ' ' (afterItem ' ' (firstLine text))

def methods : List (List Char) :=
  ["SETUP".toList, "PLAY".toList, "PAUSE".toList, "TEARDOWN".toList]

/-- A request line with one of the four methods and a second token, and two more lines. -/
structure WellFormedRequest (text : List Char) : Prop where
  method : firstToken text ∈ methods
  token : afterItem ' ' (firstLine text) ≠ []
  second : afterItem '\n' text ≠ []
  third : afterItem '\n' (afterItem '\n' text) ≠ []

/-- The first line is not empty, and a request that starts like one of the four is not cut
short. -/
structure ReadableRequest (text : List Char) : Prop where
  line : firstLine text ≠ []
  complete : firstToken text ∈ methods → afterItem ' ' (firstLine text) ≠ [] ∧
    afterItem '\n' text ≠ [] ∧ afterItem '\n' (afterItem '\n' text) ≠ []

/-- The status line has a code, and a response with code 200 is not cut short. -/
structure ReadableResponse (text : List Char) : Prop where
  code : afterItem ' ' (firstLine text) ≠ []
  complete : atoi (secondToken text) = 200 →
    afterItem '\n' (afterItem '\n' text) ≠ [] ∧ afterItem ' ' (thirdLine text) ≠ []

theorem method_iff (name : List Char) : name ∈ methods ↔ requestTypeOf name ≠ .unrecognised := by
  constructor
  · intro known
    simp only [methods, List.mem_cons, List.not_mem_nil, or_false] at known
    rcases known with rfl | rfl | rfl | rfl <;> decide +kernel
  · intro known
    simpa only [methods, List.mem_cons, List.not_mem_nil, or_false] using recognised_cases known

theorem text_of_firstLine {text : List Char} (line : firstLine text ≠ []) : text ≠ [] := by
  rintro rfl
  exact line rfl

/-- Without a first line, or without a token on it, the first access is out of range. -/
theorem parseRTSPRequest_blank (s : ServerSession) {text : List Char}
    (blank : firstLine text = []) : parseRTSPRequest s text = none := by
  by_cases empty : text = []
  · rw [empty]
    rfl
  · have line : (items '\n' text)[0]? = some [] :=
      (items_zero '\n' empty).trans (congrArg some blank)
    simp only [parseRTSPRequest, split, List.nil_append, line, Option.bind_eq_bind,
      Option.bind_some]
    rfl

/-- The request line decides whether the other lines are read at all. -/
theorem parseRTSPRequest_line (s : ServerSession) {text : List Char} (line : firstLine text ≠ []) :
    parseRTSPRequest s text =
      if requestTypeOf (firstToken text) = .unrecognised then some (s, .unrecognised)
      else do
        let _seqNumLine ← (items '\n' text)[1]?
        let seqToken ← (items ' ' (firstLine text))[1]?
        let _lastLine ← (items '\n' text)[2]?
        return ({ s with rtspSeqNb := atoi seqToken }, requestTypeOf (firstToken text)) := by
  have first : (items '\n' text)[0]? = some (firstLine text) :=
    items_zero '\n' (text_of_firstLine line)
  have token : (items ' ' (firstLine text))[0]? = some (firstToken text) := items_zero ' ' line
  simp only [parseRTSPRequest, split, List.nil_append, first, token, Option.bind_eq_bind,
    Option.bind_some, Option.pure_def]

theorem parseRTSPRequest_complete (s : ServerSession) {text : List Char}
    (request : WellFormedRequest text) : parseRTSPRequest s text =
      some ({ s with rtspSeqNb := atoi (secondToken text) }, requestTypeOf (firstToken text)) := by
  have line := ne_nil_of_afterItem ' ' request.token
  have method := (method_iff _).mp request.method
  have second := (items_one_eq_some '\n').mpr ⟨request.second, rfl⟩
  have token := (items_one_eq_some ' ').mpr ⟨request.token, rfl⟩
  have third := (items_two_eq_some '\n').mpr ⟨request.third, rfl⟩
  rw [parseRTSPRequest_line s line, if_neg method, second, token, third]
  rfl

/-- A request that starts like one of the four is only read when it is whole. -/
theorem wellFormed_of_method {s : ServerSession} {text : List Char} (line : firstLine text ≠ [])
    (method : firstToken text ∈ methods) (read : (parseRTSPRequest s text).isSome) :
    WellFormedRequest text := by
  rw [parseRTSPRequest_line s line, if_neg ((method_iff _).mp method)] at read
  obtain ⟨_, parsed⟩ := Option.isSome_iff_exists.mp read
  obtain ⟨second, hsecond, parsed⟩ := Option.bind_eq_some_iff.mp parsed
  obtain ⟨token, htoken, parsed⟩ := Option.bind_eq_some_iff.mp parsed
  obtain ⟨third, hthird, _⟩ := Option.bind_eq_some_iff.mp parsed
  exact {
    method := method
    token := ((items_one_eq_some ' ').mp htoken).1
    second := ((items_one_eq_some '\n').mp hsecond).1
    third := ((items_two_eq_some '\n').mp hthird).1 }

/-- The request parser stays in range and is strict on exactly the readable texts. -/
theorem request_safe_iff (s : ServerSession) (text : List Char) :
    (∃ s' request, parseRTSPRequest s text = some (s', request) ∧
      (request ≠ .unrecognised ↔ WellFormedRequest text)) ↔ ReadableRequest text := by
  constructor
  · rintro ⟨s', request, parsed, _⟩
    have line : firstLine text ≠ [] := by
      intro blank
      rw [parseRTSPRequest_blank s blank] at parsed
      cases parsed
    refine ⟨line, fun method => ?_⟩
    have whole := wellFormed_of_method line method (Option.isSome_iff_exists.mpr ⟨_, parsed⟩)
    exact ⟨whole.token, whole.second, whole.third⟩
  · rintro ⟨line, complete⟩
    by_cases method : firstToken text ∈ methods
    · obtain ⟨token, second, third⟩ := complete method
      have whole : WellFormedRequest text := ⟨method, token, second, third⟩
      exact ⟨_, _, parseRTSPRequest_complete s whole, fun _ => whole,
        fun _ => (method_iff _).mp method⟩
    · have signal : requestTypeOf (firstToken text) = .unrecognised :=
        Decidable.of_not_not fun known => method ((method_iff _).mpr known)
      refine ⟨s, .unrecognised, ?_, fun known => absurd rfl known, fun whole => ?_⟩
      · rw [parseRTSPRequest_line s line, if_pos signal]
      · exact absurd whole.method method

/-- The response parser stays in range on exactly the readable texts. -/
theorem response_safe_iff (c : ClientSession) (text : List Char) :
    (parseServerResponse c text).isSome ↔ ReadableResponse text := by
  constructor
  · intro read
    obtain ⟨_, parsed⟩ := Option.isSome_iff_exists.mp read
    obtain ⟨line, hline, parsed⟩ := Option.bind_eq_some_iff.mp parsed
    obtain ⟨token, htoken, parsed⟩ := Option.bind_eq_some_iff.mp parsed
    obtain ⟨_, rfl⟩ := (items_zero_eq_some '\n').mp hline
    obtain ⟨code, rfl⟩ := (items_one_eq_some ' ').mp htoken
    refine ⟨code, fun ok => ?_⟩
    rw [secondToken, firstLine] at ok
    rw [if_pos ok] at parsed
    obtain ⟨_, _, parsed⟩ := Option.bind_eq_some_iff.mp parsed
    obtain ⟨third, hthird, parsed⟩ := Option.bind_eq_some_iff.mp parsed
    obtain ⟨id, hid, _⟩ := Option.bind_eq_some_iff.mp parsed
    obtain ⟨more, rfl⟩ := (items_two_eq_some '\n').mp hthird
    exact ⟨more, ((items_one_eq_some ' ').mp hid).1⟩
  · rintro ⟨code, complete⟩
    have line : firstLine text ≠ [] := ne_nil_of_afterItem ' ' code
    have first : (items '\n' text)[0]? = some (firstLine text) :=
      items_zero '\n' (text_of_firstLine line)
    have token : (items ' ' (firstLine text))[1]? = some (secondToken text) :=
      (items_one_eq_some ' ').mpr ⟨code, rfl⟩
    simp only [parseServerResponse, split, List.nil_append, first, token, Option.bind_eq_bind,
      Option.bind_some]
    by_cases ok : atoi (secondToken text) = 200
    · obtain ⟨more, id⟩ := complete ok
      have second := (items_one_eq_some '\n').mpr ⟨ne_nil_of_afterItem '\n' more, rfl⟩
      have third : (items '\n' text)[2]? = some (thirdLine text) :=
        (items_two_eq_some '\n').mpr ⟨more, rfl⟩
      have session := (items_one_eq_some ' ').mpr ⟨id, rfl⟩
      rw [if_pos ok, second, Option.bind_some, third, Option.bind_some, session]
      rfl
    · rw [if_neg ok]
      rfl

/-- For every text `recv` can deliver: the request parser returns the code of a well-formed
request and -1 for anything else, and both parsers stay in range, exactly when the text is
readable. -/
theorem parsers_safe_iff (s : ServerSession) (c : ClientSession) (data : List Char) :
    ((∃ s' request, parseRTSPRequest s (cString data) = some (s', request) ∧
        (request ≠ .unrecognised ↔ WellFormedRequest (cString data))) ↔
      ReadableRequest (cString data)) ∧
    ((parseServerResponse c (cString data)).isSome ↔ ReadableResponse (cString data)) :=
  ⟨request_safe_iff s (cString data), response_safe_iff c (cString data)⟩

/-- A first byte NUL makes the text empty, and neither parser has a first line to read. -/
theorem nul_first_unsafe :
    parseRTSPRequest ⟨123456, 0⟩ (cString ['\x00']) = none ∧
      parseServerResponse ⟨1500, 0, 0⟩ (cString ['\x00']) = none :=
  ⟨rfl, rfl⟩

end ParserSafety
