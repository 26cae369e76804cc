import UnvStream.RtspServer

/-!
# The command loop of the client

`startClientRTSP` reads a line, turns it to upper case and, for QUIT, SETUP and PLAY,
sends a request, waits for the reply, parses it and assigns `iRTSP_State`. Every other
line sends nothing. `tryStartSocket` has set the state to INIT.
-/

namespace RtspClient

open Vocabulary RtspMessages RtspServer

inductive Command where
  | quit
  | setup
  | play
  deriving DecidableEq

inductive ClientPc where
  | waiting
  | awaiting (command : Command)
  | answered (command : Command)
  | finished
  deriving DecidableEq

structure Client where
  pc : ClientPc
  session : ClientSession
  iRTSPState : RtspState
  deriving DecidableEq

def stoupper (line : List Char) : List Char := line.map Char.toUpper

def commandOf (line : List Char) : Option Command :=
  if stoupper line = "QUIT".toList then some .quit
  else if stoupper line = "SETUP".toList then some .setup
  else if stoupper line = "PLAY".toList then some .play
  else none

def requestName : Command → List Char
  | .quit => "TEARDOWN".toList
  | .setup => "SETUP".toList
  | .play => "PLAY".toList

def requestType : Command → RequestType
  | .quit => .teardown
  | .setup => .setup
  | .play => .play

/-- The state the client assigns after the reply. -/
def stateAfterReply (state : RtspState) : Command → RtspState
  | .quit => state
  | .setup => .ready
  | .play => .playing

/-- A typed line, and the request it sends. -/
def issue (c : Client) (line : List Char) : Option (Client × List (List Char)) :=
  match c.pc with
  | .waiting =>
    match commandOf line with
    | some command =>
      let (session, request) := prepareRTSPRequest c.session (requestName command)
      some ({ c with session := session, pc := .awaiting command }, [request])
    | none => some (c, [])
  | _ => none

def readReply (c : Client) (reply : List Char) : Option Client :=
  match c.pc with
  | .awaiting command => do
    let (session, _) ← parseServerResponse c.session (cString reply)
    return { c with session := session, pc := .answered command }
  | _ => none

/-- The statements after the reply; QUIT leaves the loop. -/
def conclude (c : Client) : Option Client :=
  match c.pc with
  | .answered command => some { c with
      iRTSPState := stateAfterReply c.iRTSPState command
      pc := if command = .quit then .finished else .waiting }
  | _ => none

theorem requestTypeOf_requestName (command : Command) :
    requestTypeOf (requestName command) = requestType command := by
  cases command <;> decide +kernel

theorem requestName_recognised (command : Command) :
    requestTypeOf (requestName command) ≠ .unrecognised := by
  rw [requestTypeOf_requestName]
  cases command <;> decide

theorem cString_of_clean {text : List Char} (clean : '\x00' ∉ text) : cString text = text := by
  have passes : ∀ c ∈ text, decide (c ≠ '\x00') = true := by
    intro c hc
    exact decide_eq_true fun h => clean (h ▸ hc)
  exact List.takeWhile_eq_self_iff.mpr passes

/-- The server's thread recognises what the client sends for a command. -/
theorem server_reads_request (s : ServerSession) (c : ClientSession) (command : Command) :
    parseRTSPRequest s (cString (prepareRTSPRequest c (requestName command)).2) =
      some ({ s with rtspSeqNb := 0 }, requestType command) := by
  have known := requestName_recognised command
  rw [cString_of_clean (nul_not_mem_request c known), parse_prepared_request c s known,
    requestTypeOf_requestName]

/-- The client reads what the server replies to a recognised request as 200. -/
theorem client_reads_response (c : ClientSession) (s : ServerSession) :
    parseServerResponse c (cString (prepareRTSPResponse s).2) =
      some ({ c with rtspSeqNb := 200, rtspId := s.rtspId }, 200) := by
  rw [cString_of_clean (nul_not_mem_response s), parse_prepared_response]

theorem replyTo_requestType (s : ServerSession) (command : Command) :
    replyTo s (requestType command) = prepareRTSPResponse s := by
  cases command <;> rfl

end RtspClient
