import UnvStream.RtspMessages
import UnvStream.TraceMachine

/-!
# The RTSP thread of the server

`threadStartServerRTSP` as a machine with one step for each statement that another
thread or the network can observe: accept, receive, reply, start of a worker,
assignment of `iRTSP_State`. The accept and the assignment of INIT behind it are one step, since
no other thread sees the accept. `resetBuffer` is guarded by `if(1==0)` and does nothing.
A failed reply or a `recv` that returns 0 or -1 throws and leads back to accept. A worker whose
`bind` fails ends the process; `MediaPorts` has this, here the process goes on.
-/

namespace RtspServer

open Vocabulary RtspMessages

/-- The next statement of the thread. -/
inductive Pc where
  | accepting
  | receiving
  | replying (request : RequestType)
  | starting (port : Nat)
  | assigningReady
  | assigningPlaying
  | clearingSlp
  | stopped
  deriving DecidableEq

structure Server where
  pc : Pc
  session : ServerSession
  iRTSPState : RtspState
  slp : Bool
  started : List Nat
  replies : List (List Char)
  deriving DecidableEq

inductive Event where
  | accepted
  | acceptFailed
  | received (data : List Char)
  | ended
  | act
  | sendFailed
  deriving DecidableEq

/-- `Socket::recv` assigns its buffer to a string, which ends at the first NUL. -/
def cString (data : List Char) : List Char := data.takeWhile (· ≠ '\x00')

/-- The reply of a branch, built before it is sent. -/
def replyTo (session : ServerSession) : RequestType → ServerSession × List Char
  | .setup | .play | .teardown => prepareRTSPResponse session
  | .pause | .unrecognised => (session, "Signal Recieved".toList)

def afterReply : RequestType → Pc
  | .setup => .starting 0
  | .play => .assigningPlaying
  | .pause | .teardown | .unrecognised => .receiving

/-- A statement of the branch of a request. -/
def act (iNumUDPPorts : Nat) (s : Server) : Option Server :=
  match s.pc with
  | .replying request => some { s with
      session := (replyTo s.session request).1
      replies := s.replies ++ [(replyTo s.session request).2]
      pc := afterReply request }
  | .starting port =>
    if port < iNumUDPPorts then
      some { s with started := s.started ++ [port], pc := .starting (port + 1) }
    else some { s with pc := .assigningReady }
  | .assigningReady => some { s with iRTSPState := .ready, pc := .receiving }
  | .assigningPlaying => some { s with iRTSPState := .playing, pc := .clearingSlp }
  | .clearingSlp => some { s with slp := false, pc := .receiving }
  | .accepting | .receiving | .stopped => none

def receive (s : Server) (data : List Char) : Option Server := do
  let (session, request) ← parseRTSPRequest s.session (cString data)
  return { s with session := session, pc := .replying request }

def step (iNumUDPPorts : Nat) (s : Server) : Event → Option Server
  | .accepted =>
    if s.pc = .accepting then some { s with iRTSPState := .init, pc := .receiving } else none
  | .acceptFailed => if s.pc = .accepting then some { s with pc := .stopped } else none
  | .received data => if s.pc = .receiving then receive s data else none
  | .ended => if s.pc = .receiving then some { s with pc := .accepting } else none
  | .act => act iNumUDPPorts s
  | .sendFailed =>
    match s.pc with
    | .replying request =>
      some { s with session := (replyTo s.session request).1, pc := .accepting }
    | _ => none

/-- The thread when the listening socket is up. -/
def start : Server where
  pc := .accepting
  session := ⟨123456, 0⟩
  iRTSPState := .init
  slp := true
  started := []
  replies := []

/-- All that an event can do, with the guards under which it happens. -/
inductive Stepped (iNumUDPPorts : Nat) (s : Server) : Event → Server → Prop where
  | accepted (pc : s.pc = .accepting) :
      Stepped iNumUDPPorts s .accepted { s with iRTSPState := .init, pc := .receiving }
  | acceptFailed (pc : s.pc = .accepting) :
      Stepped iNumUDPPorts s .acceptFailed { s with pc := .stopped }
  | received (data : List Char) (session : ServerSession) (request : RequestType)
      (pc : s.pc = .receiving)
      (parsed : parseRTSPRequest s.session (cString data) = some (session, request)) :
      Stepped iNumUDPPorts s (.received data)
        { s with session := session, pc := .replying request }
  | ended (pc : s.pc = .receiving) : Stepped iNumUDPPorts s .ended { s with pc := .accepting }
  | replied (request : RequestType) (pc : s.pc = .replying request) :
      Stepped iNumUDPPorts s .act { s with
        session := (replyTo s.session request).1
        replies := s.replies ++ [(replyTo s.session request).2]
        pc := afterReply request }
  | started (port : Nat) (pc : s.pc = .starting port) (more : port < iNumUDPPorts) :
      Stepped iNumUDPPorts s .act
        { s with started := s.started ++ [port], pc := .starting (port + 1) }
  | allStarted (port : Nat) (pc : s.pc = .starting port) (done : iNumUDPPorts ≤ port) :
      Stepped iNumUDPPorts s .act { s with pc := .assigningReady }
  | ready (pc : s.pc = .assigningReady) :
      Stepped iNumUDPPorts s .act { s with iRTSPState := .ready, pc := .receiving }
  | playing (pc : s.pc = .assigningPlaying) :
      Stepped iNumUDPPorts s .act { s with iRTSPState := .playing, pc := .clearingSlp }
  | cleared (pc : s.pc = .clearingSlp) :
      Stepped iNumUDPPorts s .act { s with slp := false, pc := .receiving }
  | sendFailed (request : RequestType) (pc : s.pc = .replying request) :
      Stepped iNumUDPPorts s .sendFailed
        { s with session := (replyTo s.session request).1, pc := .accepting }

theorem stepped_of_act {iNumUDPPorts : Nat} {s s' : Server} (h : act iNumUDPPorts s = some s') :
    Stepped iNumUDPPorts s .act s' := by
  cases pc : s.pc with
  | accepting | receiving | stopped =>
    simp only [act, pc] at h
    cases h
  | replying request =>
    simp only [act, pc] at h
    cases h
    exact .replied request pc
  | starting port =>
    by_cases more : port < iNumUDPPorts
    · simp only [act, pc, if_pos more] at h
      cases h
      exact .started port pc more
    · simp only [act, pc, if_neg more] at h
      cases h
      exact .allStarted port pc (Nat.le_of_not_lt more)
  | assigningReady =>
    simp only [act, pc] at h
    cases h
    exact .ready pc
  | assigningPlaying =>
    simp only [act, pc] at h
    cases h
    exact .playing pc
  | clearingSlp =>
    simp only [act, pc] at h
    cases h
    exact .cleared pc

/-- A guarded step, taken apart. -/
theorem of_guarded {σ : Type} {p : Prop} [Decidable p] {x : Option σ} {s' : σ}
    (h : (if p then x else none) = some s') : p ∧ x = some s' := by
  by_cases guard : p
  · rw [if_pos guard] at h
    exact ⟨guard, h⟩
  · rw [if_neg guard] at h
    cases h

theorem stepped_of_step {iNumUDPPorts : Nat} {s s' : Server} {e : Event}
    (h : step iNumUDPPorts s e = some s') : Stepped iNumUDPPorts s e s' := by
  cases e with
  | accepted =>
    obtain ⟨pc, result⟩ := of_guarded h
    cases result
    exact .accepted pc
  | acceptFailed =>
    obtain ⟨pc, result⟩ := of_guarded h
    cases result
    exact .acceptFailed pc
  | received data =>
    obtain ⟨pc, result⟩ := of_guarded h
    obtain ⟨⟨session, request⟩, parsed, result⟩ := Option.bind_eq_some_iff.mp result
    cases result
    exact .received data session request pc parsed
  | ended =>
    obtain ⟨pc, result⟩ := of_guarded h
    cases result
    exact .ended pc
  | act => exact stepped_of_act h
  | sendFailed =>
    cases pc : s.pc with
    | replying request =>
      simp only [step, pc] at h
      cases h
      exact .sendFailed request pc
    | accepting | receiving | stopped | starting | assigningReady | assigningPlaying
      | clearingSlp =>
      simp only [step, pc] at h
      cases h

end RtspServer
