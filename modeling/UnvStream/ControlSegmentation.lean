import UnvStream.ParserSafety
import UnvStream.SessionOrder
import Mathlib.Data.List.Forall2

/-!
# The control stream cut into `recv` results

TCP keeps the bytes of the requests and not their boundaries. The server takes every
`recv` result as one request and looks at its first three lines only, so what it does
depends on how the stream is cut. All this is in a process that goes on: no reply fails, and no
worker ends the process with a call of its own, as the `bind` of a second SETUP does.
-/

namespace ControlSegmentation

open Vocabulary DelimitedText DecimalText RtspMessages RtspServer SessionOrder ParserSafety

def maxRecv : Nat := 50000

/-- The pieces are the results of successive `recv` calls on the stream. -/
structure IsCut (stream : List Char) (pieces : List (List Char)) : Prop where
  whole : pieces.flatten = stream
  nonempty : ∀ piece ∈ pieces, piece ≠ []
  short : ∀ piece ∈ pieces, piece.length ≤ maxRecv

/-- A request of a client, in any state of its session. -/
structure Request where
  session : ClientSession
  name : List Char
  known : requestTypeOf name ≠ .unrecognised

def Request.text (r : Request) : List Char := (prepareRTSPRequest r.session r.name).2
def Request.type (r : Request) : RequestType := requestTypeOf r.name

def streamOf (requests : List Request) : List Char := (requests.map Request.text).flatten

/-- How many statements are left before the next `recv`. -/
def statementsLeft (iNumUDPPorts : Nat) : Pc → Nat
  | .replying .setup => iNumUDPPorts + 3
  | .replying .play => 3
  | .replying _ => 1
  | .starting port => iNumUDPPorts - port + 2
  | .assigningPlaying => 2
  | .assigningReady | .clearingSlp => 1
  | .accepting | .receiving | .stopped => 0

/-- The branch of a request, up to the next `recv`. -/
def finish (iNumUDPPorts : Nat) (s : Server) : Option Server :=
  TraceMachine.run (step iNumUDPPorts) s (List.replicate (statementsLeft iNumUDPPorts s.pc) .act)

/-- The request a result of `recv` is taken for. -/
def processed : Pc → List RequestType
  | .replying request => [request]
  | _ => []

/-- The receive loop over the results of `recv`, with the requests it processes, as long as no
reply and no call of a worker fails. -/
def serve (iNumUDPPorts : Nat) : Server → List (List Char) → Option (Server × List RequestType)
  | s, [] => some (s, [])
  | s, data :: results => do
    let parsed ← step iNumUDPPorts s (.received data)
    let next ← finish iNumUDPPorts parsed
    let (last, later) ← serve iNumUDPPorts next results
    return (last, processed parsed.pc ++ later)

/-- The method the first line of a result names. -/
def requestOf (data : List Char) : RequestType := requestTypeOf (firstToken (cString data))

/-- Two results begin alike: the same method with the same number behind it, or no method. -/
structure SameLead (data data' : List Char) : Prop where
  request : requestOf data = requestOf data'
  number : requestOf data ≠ .unrecognised →
    atoi (secondToken (cString data)) = atoi (secondToken (cString data'))

/-- The session after parsing a result. -/
def sessionAfter (session : ServerSession) (data : List Char) : ServerSession :=
  if requestOf data = .unrecognised then session
  else { session with rtspSeqNb := atoi (secondToken (cString data)) }

/-- The server after the branch of a request. -/
def handled (iNumUDPPorts : Nat) (s : Server) (session : ServerSession) (request : RequestType) :
    Server where
  pc := .receiving
  session := (replyTo session request).1
  iRTSPState := assigned s.iRTSPState request
  slp := if request = .play then false else s.slp
  started := if request = .setup then s.started ++ List.range iNumUDPPorts else s.started
  replies := s.replies ++ [(replyTo session request).2]

theorem parse_readable (session : ServerSession) {data : List Char}
    (readable : ReadableRequest (cString data)) :
    parseRTSPRequest session (cString data) =
      some (sessionAfter session data, requestOf data) := by
  by_cases known : requestOf data = .unrecognised
  · have signal : requestTypeOf (firstToken (cString data)) = .unrecognised := known
    rw [parseRTSPRequest_line session readable.line, if_pos signal, sessionAfter, if_pos known,
      known]
  · have method : firstToken (cString data) ∈ methods := (method_iff _).mpr known
    obtain ⟨token, second, third⟩ := readable.complete method
    rw [parseRTSPRequest_complete session ⟨method, token, second, third⟩, sessionAfter,
      if_neg known]
    rfl

/-- The loop that starts a worker for each port. -/
theorem run_starting (iNumUDPPorts left port : Nat) (s : Server) (pc : s.pc = .starting port)
    (ports : port + left = iNumUDPPorts) :
    TraceMachine.run (step iNumUDPPorts) s (List.replicate left .act) =
      some { s with
        pc := .starting iNumUDPPorts
        started := s.started ++ List.range' port left } := by
  induction left generalizing port s with
  | zero =>
    obtain rfl : port = iNumUDPPorts := ports
    simp [TraceMachine.run, ← pc]
  | succ left ih =>
    have started : step iNumUDPPorts s .act =
        some { s with started := s.started ++ [port], pc := .starting (port + 1) } := by
      simp only [step, act, pc, if_pos (show port < iNumUDPPorts by omega)]
    have rest := ih (port + 1) { s with started := s.started ++ [port], pc := .starting (port + 1) }
      rfl (by omega)
    rw [List.replicate_succ, TraceMachine.run, started, Option.bind_some, rest, List.range'_succ]
    simp

/-- The reply of a branch has been sent and its other statements are left. -/
def replySent (s : Server) (request : RequestType) : Server :=
  { s with
    session := (replyTo s.session request).1
    replies := s.replies ++ [(replyTo s.session request).2]
    pc := afterReply request }

theorem finish_setup (iNumUDPPorts : Nat) (s : Server) (pc : s.pc = .replying .setup) :
    finish iNumUDPPorts s = some (handled iNumUDPPorts s s.session .setup) := by
  have reply : step iNumUDPPorts s .act = some (replySent s .setup) := by
    simp only [step, act, pc, replySent]
  have starts := run_starting iNumUDPPorts iNumUDPPorts 0 (replySent s .setup) rfl (Nat.zero_add _)
  have assigns : TraceMachine.run (step iNumUDPPorts)
      { replySent s .setup with
        pc := .starting iNumUDPPorts
        started := (replySent s .setup).started ++ List.range' 0 iNumUDPPorts }
      [.act, .act] = some (handled iNumUDPPorts s s.session .setup) := by
    simp [TraceMachine.run, step, act, replySent, handled, assigned, List.range_eq_range']
  have statements : List.replicate (iNumUDPPorts + 3) Event.act =
      .act :: (List.replicate iNumUDPPorts .act ++ [.act, .act]) := by
    rw [List.replicate_succ, List.replicate_add]
    rfl
  rw [finish, pc, statementsLeft, statements, TraceMachine.run, reply, Option.bind_some]
  exact TraceMachine.run_trans _ starts assigns

/-- Every branch ends at the next `recv`. -/
theorem finish_replying (iNumUDPPorts : Nat) (s : Server) (request : RequestType)
    (pc : s.pc = .replying request) :
    finish iNumUDPPorts s = some (handled iNumUDPPorts s s.session request) := by
  cases request with
  | setup => exact finish_setup iNumUDPPorts s pc
  | play =>
    simp [finish, pc, statementsLeft, TraceMachine.run, step, act, afterReply, handled, assigned]
  | pause | teardown | unrecognised =>
    simp [finish, pc, statementsLeft, TraceMachine.run, step, act, afterReply, handled, assigned]

/-- One result of `recv`, readable, in the receive loop. -/
theorem serve_readable (iNumUDPPorts : Nat) {s : Server} (pc : s.pc = .receiving)
    {data : List Char} (readable : ReadableRequest (cString data)) (results : List (List Char)) :
    serve iNumUDPPorts s (data :: results) =
      (serve iNumUDPPorts (handled iNumUDPPorts s (sessionAfter s.session data) (requestOf data))
        results).map fun later => (later.1, requestOf data :: later.2) := by
  have parsed : step iNumUDPPorts s (.received data) = some { s with
      session := sessionAfter s.session data, pc := .replying (requestOf data) } := by
    simp only [step, if_pos pc, receive, parse_readable s.session readable, Option.bind_eq_bind,
      Option.bind_some, Option.pure_def]
  have finished := finish_replying iNumUDPPorts { s with
      session := sessionAfter s.session data, pc := .replying (requestOf data) } _ rfl
  rw [serve, parsed, Option.bind_eq_bind, Option.bind_some, finished, Option.map_eq_bind]
  rfl

theorem SameLead.session_eq {data data' : List Char} (alike : SameLead data data')
    (session : ServerSession) : sessionAfter session data = sessionAfter session data' := by
  by_cases known : requestOf data = .unrecognised
  · rw [sessionAfter, if_pos known, sessionAfter, if_pos (alike.request ▸ known)]
  · rw [sessionAfter, if_neg known, sessionAfter, if_neg (alike.request ▸ known),
      alike.number known]

/-- Only how the results begin matters. -/
theorem serve_alike (iNumUDPPorts : Nat) {cut cut' : List (List Char)}
    (alike : List.Forall₂ SameLead cut cut')
    (readable : ∀ data ∈ cut, ReadableRequest (cString data))
    (readable' : ∀ data ∈ cut', ReadableRequest (cString data)) {s : Server}
    (pc : s.pc = .receiving) :
    ∃ s', serve iNumUDPPorts s cut = some (s', cut.map requestOf) ∧
      serve iNumUDPPorts s cut' = some (s', cut.map requestOf) := by
  induction alike generalizing s with
  | nil => exact ⟨s, rfl, rfl⟩
  | @cons data data' cut cut' same _ ih =>
    obtain ⟨s', run, run'⟩ := ih (fun d hd => readable d (List.mem_cons_of_mem data hd))
      (fun d hd => readable' d (List.mem_cons_of_mem data' hd))
      (s := handled iNumUDPPorts s (sessionAfter s.session data) (requestOf data)) rfl
    refine ⟨s', ?_, ?_⟩
    · rw [serve_readable iNumUDPPorts pc (readable data List.mem_cons_self), run]
      rfl
    · rw [serve_readable iNumUDPPorts pc (readable' data' List.mem_cons_self),
        ← same.session_eq, ← same.request, run']
      rfl

theorem cString_request (r : Request) (rest : List Char) :
    cString (r.text ++ rest) = r.text ++ cString rest := by
  apply List.takeWhile_append_of_pos
  intro c hc
  exact decide_eq_true fun nul => nul_not_mem_request r.session r.known (nul ▸ hc)

/-- The three lines of a request, with what follows it in the same result. -/
theorem request_lines (r : Request) (rest : List Char) :
    ∃ second third, firstLine (r.text ++ rest) = r.name ++ ' ' :: "RTSP/1.0\r".toList ∧
      afterItem '\n' (r.text ++ rest) = second ++ '\n' :: (third ++ '\n' :: rest) ∧
      afterItem '\n' (afterItem '\n' (r.text ++ rest)) = third ++ '\n' :: rest := by
  have message := request_message r.session (recognised_clean r.known).1
  have version : " RTSP/1.0".toList ++ ['\r'] = ' ' :: "RTSP/1.0\r".toList := by decide +kernel
  obtain ⟨first, after⟩ := first_after_delimited '\n' (message.clean _ List.mem_cons_self)
    ((field "CSeq: " (r.session.rtspSeqNb + 1) ++ ['\r']) ++
      '\n' :: (requestLastLine r.session r.name ++ '\n' :: rest))
  have text : r.text ++ rest = (r.name ++ " RTSP/1.0".toList ++ ['\r']) ++
      '\n' :: ((field "CSeq: " (r.session.rtspSeqNb + 1) ++ ['\r']) ++
        '\n' :: (requestLastLine r.session r.name ++ '\n' :: rest)) := by
    rw [Request.text, message.lines]
    simp
  refine ⟨field "CSeq: " (r.session.rtspSeqNb + 1) ++ ['\r'], requestLastLine r.session r.name,
    ?_, ?_, ?_⟩
  · rw [text, firstLine, first, List.append_assoc, version]
  · rw [text, after]
  · rw [text, after]
    exact (first_after_delimited '\n' (message.clean _ (by simp)) _).2

/-- A result that begins with a whole request is read as that request, whatever follows. -/
theorem whole_request_leads (r : Request) (rest : List Char) :
    ReadableRequest (cString (r.text ++ rest)) ∧ requestOf (r.text ++ rest) = r.type ∧
      secondToken (cString (r.text ++ rest)) = "RTSP/1.0\r".toList := by
  obtain ⟨second, third, line, after, after2⟩ := request_lines r (cString rest)
  obtain ⟨token, afterToken⟩ := first_after_delimited ' ' (recognised_clean r.known).2
    "RTSP/1.0\r".toList
  have number : firstItem ' ' "RTSP/1.0\r".toList = "RTSP/1.0\r".toList := by decide +kernel
  have more : "RTSP/1.0\r".toList ≠ [] := by decide +kernel
  rw [requestOf, cString_request]
  refine ⟨⟨?_, fun _ => ⟨?_, ?_, ?_⟩⟩, ?_, ?_⟩
  · rw [line]
    simp
  · rw [line, afterToken]
    exact more
  · rw [after]
    simp
  · rw [after2]
    simp
  · rw [firstToken, line, token]
    rfl
  · rw [secondToken, line, afterToken, number]

theorem sameLead_of_request (r : Request) (rest rest' : List Char) :
    SameLead (r.text ++ rest) (r.text ++ rest') where
  request := (whole_request_leads r rest).2.1.trans (whole_request_leads r rest').2.1.symm
  number := fun _ => congrArg atoi
    ((whole_request_leads r rest).2.2.trans (whole_request_leads r rest').2.2.symm)

theorem printed_length_le (x : Int32) : (printed x).length ≤ 11 := by
  have low := x.le_toInt
  have high := x.toInt_lt
  have digits : (printNat x.toInt.natAbs).length ≤ 10 :=
    (Nat.length_toDigits_le_iff (by decide) (by decide)).mpr (by omega)
  unfold printed printInt
  split
  · exact Nat.succ_le_succ digits
  · exact Nat.le_succ_of_le digits

theorem field_length_le {label : String} {n : Nat} (short : label.toList.length ≤ n) (x : Int32) :
    (field label x).length ≤ n + 11 := by
  rw [field, List.length_append]
  exact Nat.add_le_add short (printed_length_le x)

theorem requestLastLine_length_le (c : ClientSession) (name : List Char) :
    (requestLastLine c name).length ≤ 45 := by
  unfold requestLastLine
  split
  · rw [List.length_append]
    exact Nat.add_le_add (field_length_le (n := 33) (by decide +kernel) _) (Nat.le_refl 1)
  · exact field_length_le (n := 34) (by decide +kernel) _

/-- A request is far shorter than what one `recv` takes. -/
theorem request_length_le (r : Request) : r.text.length ≤ maxRecv := by
  have message := request_message r.session (recognised_clean r.known).1
  have name : r.name.length ≤ 8 := by
    rcases recognised_cases r.known with known | known | known | known <;> rw [known] <;> decide
  have version : (" RTSP/1.0".toList ++ ['\r']).length = 10 := by decide +kernel
  have seq : (field "CSeq: " (r.session.rtspSeqNb + 1)).length ≤ 6 + 11 :=
    field_length_le (by decide +kernel) _
  have last := requestLastLine_length_le r.session r.name
  have length := congrArg List.length message.lines
  rw [List.append_assoc] at length
  simp only [List.flatMap_cons, List.flatMap_nil, List.length_append, List.length_cons,
    List.length_nil] at length version
  rw [Request.text, maxRecv]
  omega

theorem request_ne_nil (r : Request) : r.text ≠ [] := by
  obtain ⟨_, _, line, _, _⟩ := request_lines r []
  rw [List.append_nil] at line
  intro empty
  rw [empty] at line
  exact absurd line.symm (by simp [firstLine, firstItem])

/-- The stream cut at the boundaries of its requests. -/
theorem isCut_requests (requests : List Request) :
    IsCut (streamOf requests) (requests.map Request.text) where
  whole := rfl
  nonempty := by
    intro piece hpiece
    obtain ⟨r, _, rfl⟩ := List.mem_map.mp hpiece
    exact request_ne_nil r
  short := by
    intro piece hpiece
    obtain ⟨r, _, rfl⟩ := List.mem_map.mp hpiece
    exact request_length_le r

theorem serve_requests (iNumUDPPorts : Nat) (requests : List Request) {s : Server}
    (pc : s.pc = .receiving) :
    ∃ s', serve iNumUDPPorts s (requests.map Request.text) =
      some (s', requests.map Request.type) := by
  induction requests generalizing s with
  | nil => exact ⟨s, rfl⟩
  | cons r requests ih =>
    obtain ⟨readable, request, _⟩ := whole_request_leads r []
    rw [List.append_nil] at readable request
    obtain ⟨s', run⟩ := ih (s := handled iNumUDPPorts s (sessionAfter s.session r.text)
      (requestOf r.text)) rfl
    refine ⟨s', ?_⟩
    rw [List.map_cons, serve_readable iNumUDPPorts pc readable, run, request]
    rfl

/-- The receive loop takes every result for one request. Results that begin alike are
processed alike, whatever else they hold; a whole request decides how its result begins;
and the stream cut at its boundaries is processed request by request. -/
theorem results_that_begin_alike (iNumUDPPorts : Nat) (s : Server) (pc : s.pc = .receiving) :
    (∀ cut cut', List.Forall₂ SameLead cut cut' →
      (∀ data ∈ cut, ReadableRequest (cString data)) →
      (∀ data ∈ cut', ReadableRequest (cString data)) →
      ∃ s', serve iNumUDPPorts s cut = some (s', cut.map requestOf) ∧
        serve iNumUDPPorts s cut' = some (s', cut.map requestOf)) ∧
    (∀ (r : Request) rest rest', SameLead (r.text ++ rest) (r.text ++ rest') ∧
      ReadableRequest (cString (r.text ++ rest)) ∧ requestOf (r.text ++ rest) = r.type) ∧
    ∀ requests : List Request, IsCut (streamOf requests) (requests.map Request.text) ∧
      ∃ s', serve iNumUDPPorts s (requests.map Request.text) =
        some (s', requests.map Request.type) := by
  refine ⟨?_, ?_, ?_⟩
  · intro cut cut' alike readable readable'
    exact serve_alike iNumUDPPorts alike readable readable' pc
  · intro r rest rest'
    obtain ⟨readable, request, _⟩ := whole_request_leads r rest
    exact ⟨sameLead_of_request r rest rest', readable, request⟩
  · intro requests
    exact ⟨isCut_requests requests, serve_requests iNumUDPPorts requests pc⟩

/-- The server when the first client has connected. -/
def connected : Server := { start with pc := .receiving }

def setupRequest : Request := ⟨⟨1500, 0, 0⟩, "SETUP".toList, by decide +kernel⟩
def playRequest : Request := ⟨⟨1500, 123456, 200⟩, "PLAY".toList, by decide +kernel⟩

theorem joined_begins_as_first :
    ∃ s', serve 2 connected [setupRequest.text ++ playRequest.text] =
        some (s', [requestOf (setupRequest.text ++ playRequest.text)]) ∧
      serve 2 connected [setupRequest.text ++ []] =
        some (s', [requestOf (setupRequest.text ++ playRequest.text)]) := by
  obtain ⟨alike, leads, _⟩ := results_that_begin_alike 2 connected rfl
  obtain ⟨same, readable, _⟩ := leads setupRequest playRequest.text []
  have readable' := (leads setupRequest [] []).2.1
  refine alike [setupRequest.text ++ playRequest.text] [setupRequest.text ++ []]
    (.cons same .nil) ?_ ?_
  · intro data hdata
    exact List.mem_singleton.mp hdata ▸ readable
  · intro data hdata
    exact List.mem_singleton.mp hdata ▸ readable'

/-- SETUP and PLAY in one result are one request, with one reply, and the server does not
play; in two results they are two. -/
theorem joined_requests_differ :
    IsCut (streamOf [setupRequest, playRequest]) [setupRequest.text ++ playRequest.text] ∧
    IsCut (streamOf [setupRequest, playRequest]) [setupRequest.text, playRequest.text] ∧
    ∃ s1 s2, serve 2 connected [setupRequest.text ++ playRequest.text] = some (s1, [.setup]) ∧
      serve 2 connected [setupRequest.text, playRequest.text] = some (s2, [.setup, .play]) ∧
      s1.replies.length = 1 ∧ s2.replies.length = 2 ∧
      s1.iRTSPState = .ready ∧ s2.iRTSPState = .playing := by
  have setup : setupRequest.type = .setup := by decide +kernel
  have play : playRequest.type = .play := by decide +kernel
  obtain ⟨readable, joined, _⟩ := whole_request_leads setupRequest playRequest.text
  obtain ⟨readable1, first, _⟩ := whole_request_leads setupRequest []
  obtain ⟨readable2, second, _⟩ := whole_request_leads playRequest []
  rw [List.append_nil] at readable1 readable2 first second
  rw [setup] at joined first
  rw [play] at second
  have served1 := serve_readable 2 (s := connected) rfl readable []
  have served2 := serve_readable 2 (s := connected) rfl readable1 [playRequest.text]
  rw [serve_readable 2 rfl readable2, first, second] at served2
  rw [joined] at served1
  refine ⟨⟨?_, ?_, ?_⟩, isCut_requests [setupRequest, playRequest], _, _, served1, served2,
    rfl, rfl, rfl, rfl⟩
  · simp [streamOf]
  · simp [request_ne_nil]
  · decide +kernel

end ControlSegmentation
