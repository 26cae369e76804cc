import UnvStream.RtspMessages

/-!
# Sequence numbers over a run of exchanges

Both sides overwrite `RTSPSeqNb` with a number they parse from the other's message.
The parsers take that number from the second token of the first line, so it is the
version on the server and the status code on the client, whatever the CSeq line says.
-/

namespace RtspSequence

open Vocabulary DelimitedText DecimalText RtspMessages

/-- The number printed on the CSeq line of a message. -/
def printedSeq (message : List Char) : Option Int32 := do
  let seqNumLine ← (split message '\n' [])[1]?
  let seqToken ← (split seqNumLine ' ' [])[1]?
  return atoi seqToken

/-- The numbers of one exchange: on the request, in the server after parsing it, on
the response, and in the client after parsing that. -/
structure Exchange where
  requestSeq : Int32
  serverSeq : Int32
  responseSeq : Int32
  clientSeq : Int32
  deriving DecidableEq

def exchange (c : ClientSession) (s : ServerSession) (name : List Char) :
    Option (ClientSession × ServerSession × Exchange) := do
  let (c, request) := prepareRTSPRequest c name
  let requestSeq ← printedSeq request
  let (s, _) ← parseRTSPRequest s request
  let serverSeq := s.rtspSeqNb
  let (s, response) := prepareRTSPResponse s
  let responseSeq ← printedSeq response
  let (c, _) ← parseServerResponse c response
  return (c, s, ⟨requestSeq, serverSeq, responseSeq, c.rtspSeqNb⟩)

def exchanges : ClientSession → ServerSession → List (List Char) → Option (List Exchange)
  | _, _, [] => some []
  | c, s, name :: names => do
    let (c, s, e) ← exchange c s name
    let es ← exchanges c s names
    return e :: es

/-- Each side holds the number of the message it parsed last, and the numbers of
successive requests increase. -/
structure Tracked (es : List Exchange) : Prop where
  server : ∀ e ∈ es, e.serverSeq = e.requestSeq
  client : ∀ e ∈ es, e.clientSeq = e.responseSeq
  increasing : es.Pairwise fun e e' => e.requestSeq < e'.requestSeq

def Tracks (c : ClientSession) (s : ServerSession) (names : List (List Char)) : Prop :=
  ∃ es, exchanges c s names = some es ∧ Tracked es

theorem printedSeq_message {text first third : List Char} {x : Int32}
    (m : Message text first (field "CSeq: " x ++ ['\r']) third) : printedSeq text = some x := by
  have words : split (field "CSeq: " x ++ ['\r']) ' ' [] =
      ["CSeq:".toList, printed x ++ ['\r']] :=
    split_field (by decide +kernel) (by decide +kernel) _
  have number : atoi (printed x ++ ['\r']) = x := atoi_printed x (stops_cons (by decide) [])
  simp only [printedSeq, m.split_lines, List.getElem?_cons_zero, List.getElem?_cons_succ,
    Option.bind_eq_bind, Option.bind_some, words, number, Option.pure_def]

/-- The outcome of an exchange does not depend on the server's counter: the client
ends with 200 and the response carries 1. -/
theorem exchange_eq (c : ClientSession) (s : ServerSession) {name : List Char}
    (known : requestTypeOf name ≠ .unrecognised) :
    exchange c s name = some ({ c with rtspSeqNb := 200, rtspId := s.rtspId },
      { s with rtspSeqNb := 1 }, ⟨c.rtspSeqNb + 1, 0, 1, 200⟩) := by
  have request := printedSeq_message (request_message c (recognised_clean known).1)
  have response := printedSeq_message (response_message { s with rtspSeqNb := 0 })
  have parsed := parse_prepared_request c s known
  have answered := parse_prepared_response (prepareRTSPRequest c name).1
    { s with rtspSeqNb := 0 }
  simp only [exchange, request, parsed, response, answered, Option.bind_eq_bind,
    Option.bind_some, Option.pure_def]
  rfl

/-- The numbers of a whole run: from the second request on they stay at 201. -/
theorem exchanges_eq (c : ClientSession) (s : ServerSession) (name : List Char)
    (names : List (List Char))
    (known : ∀ n ∈ name :: names, requestTypeOf n ≠ .unrecognised) :
    exchanges c s (name :: names) =
      some (⟨c.rtspSeqNb + 1, 0, 1, 200⟩ :: List.replicate names.length ⟨201, 0, 1, 200⟩) := by
  induction names generalizing c s name with
  | nil =>
    have first := exchange_eq c s (known name List.mem_cons_self)
    simp only [exchanges, first, Option.bind_eq_bind, Option.bind_some, Option.pure_def,
      List.length_nil, List.replicate_zero]
  | cons next names ih =>
    have first := exchange_eq c s (known name List.mem_cons_self)
    have rest := ih { c with rtspSeqNb := 200, rtspId := s.rtspId } { s with rtspSeqNb := 1 } next
      (fun n hn => known n (List.mem_cons_of_mem name hn))
    have second : (200 : Int32) + 1 = 201 := by decide
    rw [exchanges, first]
    simp only [Option.bind_eq_bind, Option.bind_some, rest, second, List.length_cons,
      List.replicate_succ, Option.pure_def]

/-- The numbers are tracked by no run with an exchange. -/
theorem tracks_iff_no_exchange (c : ClientSession) (s : ServerSession)
    (names : List (List Char)) (known : ∀ n ∈ names, requestTypeOf n ≠ .unrecognised) :
    Tracks c s names ↔ names = [] := by
  constructor
  · rintro ⟨es, run, tracked⟩
    cases names with
    | nil => rfl
    | cons name names =>
      rw [exchanges_eq c s name names known] at run
      cases run
      have client : (200 : Int32) = 1 := tracked.client _ List.mem_cons_self
      exact absurd client (by decide)
  · rintro rfl
    exact ⟨[], rfl, List.forall_mem_nil _, List.forall_mem_nil _, List.Pairwise.nil⟩

theorem two_setups_not_tracked :
    ¬ Tracks ⟨25000, 123456, 0⟩ ⟨123456, 0⟩ ["SETUP".toList, "SETUP".toList] := by
  have known : ∀ n ∈ ["SETUP".toList, "SETUP".toList], requestTypeOf n ≠ .unrecognised := by
    decide +kernel
  intro tracks
  have none := (tracks_iff_no_exchange _ _ _ known).mp tracks
  cases none

/-- After the SETUP, whose number is 1, the server holds 0 and the client holds 200. -/
theorem setup_play_teardown_numbers :
    ¬ Tracks ⟨25000, 123456, 0⟩ ⟨123456, 0⟩
      ["SETUP".toList, "PLAY".toList, "TEARDOWN".toList] := by
  have run := exchanges_eq ⟨25000, 123456, 0⟩ ⟨123456, 0⟩ "SETUP".toList
    ["PLAY".toList, "TEARDOWN".toList] (by decide +kernel)
  rintro ⟨es, run', tracked⟩
  rw [run] at run'
  cases run'
  have server := tracked.server _ List.mem_cons_self
  exact absurd server (by decide)

end RtspSequence
