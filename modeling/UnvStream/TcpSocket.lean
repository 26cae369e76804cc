import UnvStream.TraceMachine
import Mathlib.Logic.Function.Basic

/-!
# The `Socket` class and the programs that use it

A `Socket` is a descriptor and an address. What the system returns to a method is an
argument of it. The client starts one socket again and again until it is connected; the
server starts one and accepts all its connections into another.
-/

namespace TcpSocket

/-- `sockaddr_in`, the port and the address in network order. -/
structure Address where
  sinFamily : UInt16
  sinPort : UInt16
  sinAddr : UInt32
  deriving DecidableEq

/-- AF_INET. -/
def afInet : UInt16 := 2

/-- EAFNOSUPPORT. -/
def eafNoSupport : Int := 97

structure Socket where
  mSock : Int
  mAddr : Address
  deriving DecidableEq

/-- `Socket::Socket`. -/
def Socket.constructed : Socket := ⟨-1, ⟨0, 0, 0⟩⟩

def Socket.isValid (s : Socket) : Bool := s.mSock != -1

def htons (port : Int32) : UInt16 :=
  let low := port.toInt16.toUInt16
  low <<< 8 ||| low >>> 8

/-- The characters of a `std::string` that `c_str` shows to a C function. -/
def cStr (host : List Char) : List Char := host.takeWhile (· ≠ '\x00')

def Socket.create (s : Socket) (socketResult setsockoptResult : Int) : Socket × Bool :=
  let s := { s with mSock := socketResult }
  if !s.isValid then (s, false)
  else if setsockoptResult = -1 then (s, false)
  else (s, true)

def Socket.bind (s : Socket) (port : Int32) (bindResult : Int) : Socket × Bool :=
  if !s.isValid then (s, false)
  else
    let s := { s with mAddr := ⟨afInet, htons port, 0⟩ }
    if bindResult = -1 then (s, false) else (s, true)

def Socket.listen (s : Socket) (listenResult : Int) : Bool :=
  if !s.isValid then false
  else if listenResult = -1 then false
  else true

/-- The listening socket, whose address becomes that of the peer, and the new socket. -/
def Socket.accept (s newSocket : Socket) (acceptResult : Int) (peer : Address) :
    Socket × Socket × Bool :=
  let s := if acceptResult = -1 then s else { s with mAddr := peer }
  let newSocket := { newSocket with mSock := acceptResult }
  if acceptResult ≤ 0 then (s, newSocket, false) else (s, newSocket, true)

/-- What `Socket::connect` leaves and returns, and the address that `::connect` is called with,
if it is called. -/
structure Attempt where
  socket : Socket
  reached : Option Address
  connected : Bool

/-- `m_addr` after `inet_pton`, which stores the address of a valid text and nothing for an
invalid one. -/
def Socket.addressed (inetPton : List Char → Option UInt32) (s : Socket) (host : List Char)
    (port : Int32) : Address :=
  ⟨afInet, htons port, (inetPton (cStr host)).getD s.mAddr.sinAddr⟩

/-- `inet_pton` does not touch `errno`, which holds what an earlier call left. -/
def Socket.connect (inetPton : List Char → Option UInt32) (s : Socket) (host : List Char)
    (port : Int32) (errno connectResult : Int) : Attempt :=
  if !s.isValid then ⟨s, none, false⟩
  else
    let s := { s with mAddr := s.addressed inetPton host port }
    if errno = eafNoSupport then ⟨s, none, false⟩
    else ⟨s, some s.mAddr, decide (connectResult = 0)⟩

/-- The sockets of the programs. The client has the first only. -/
inductive Name where
  | objTCPSocket
  | objInitTCPSocket
  deriving DecidableEq

inductive Program where
  | client (inetPton : List Char → Option UInt32) (host : List Char) (port : Int32)
  | server (port : Int32)

/-- The call that a program makes next. -/
inductive Phase where
  | create
  | connect
  | bind
  | listen
  | accept
  | started
  | ended
  | exited
  deriving DecidableEq

/-- The live sockets, and the descriptors that `::socket` or `::accept` has returned and nobody
has closed. -/
structure Process where
  phase : Phase
  sockets : Name → Option Socket
  opened : List Int

inductive Event where
  | create (socketResult setsockoptResult : Int)
  | connect (errno connectResult : Int)
  | bind (bindResult : Int)
  | listen (listenResult : Int)
  | accept (acceptResult : Int) (peer : Address)
  | exit

namespace Process

def write (p : Process) (name : Name) (s : Socket) : Process :=
  { p with sockets := Function.update p.sockets name (some s) }

@[simp] theorem write_same (p : Process) (name : Name) (s : Socket) :
    (p.write name s).sockets name = some s := by
  simp only [write, Function.update_self]

theorem write_other {name other : Name} (apart : other ≠ name) (p : Process) (s : Socket) :
    (p.write name s).sockets other = p.sockets other := by
  simp only [write, Function.update_of_ne apart]

/-- A result of `::socket` or `::accept`. -/
def obtained (p : Process) (result : Int) : Process :=
  if result = -1 then p else { p with opened := result :: p.opened }

theorem obtained_fields (p : Process) (result : Int) :
    (p.obtained result).sockets = p.sockets ∧ (p.obtained result).phase = p.phase := by
  rw [obtained]
  split <;> exact ⟨rfl, rfl⟩

/-- The system fails or returns a descriptor that is not open. -/
def Fresh (p : Process) (result : Int) : Prop := result = -1 ∨ 0 ≤ result ∧ result ∉ p.opened

instance (p : Process) (result : Int) : Decidable (p.Fresh result) :=
  inferInstanceAs (Decidable (_ ∨ _))

/-- `Socket::~Socket`. -/
def destroy (p : Process) (name : Name) : Process :=
  match p.sockets name with
  | none => p
  | some s => { p with
      sockets := Function.update p.sockets name none
      opened := if s.isValid then p.opened.filter fun d => decide (d ≠ s.mSock) else p.opened }

end Process

/-- The socket that is started. -/
def Program.starting : Program → Name
  | .client .. => .objTCPSocket
  | .server _ => .objInitTCPSocket

/-- `objTCP_Socket` is a global of both programs, `objInitTCP_Socket` is constructed by the
thread that serves. -/
def Program.start : Program → Process
  | .client .. => ⟨.create, fun
      | .objTCPSocket => some Socket.constructed
      | .objInitTCPSocket => none, []⟩
  | .server _ => ⟨.create, fun _ => some Socket.constructed, []⟩

/-- The handler of a `SocketException`: `tryStartSocket` starts again, the serving thread ends
and its socket is destroyed. -/
def Program.caught : Program → Process → Process
  | .client .., p => { p with phase := .create }
  | .server _, p => { p.destroy .objInitTCPSocket with phase := .ended }

def createStep (program : Program) (p : Process) (socketResult setsockoptResult : Int) :
    Option Process :=
  match p.sockets program.starting with
  | none => none
  | some s =>
    if p.phase = .create ∧ p.Fresh socketResult then
      let (s, created) := s.create socketResult setsockoptResult
      let p := (p.obtained socketResult).write program.starting s
      match created, program with
      | false, _ => some (program.caught p)
      | true, .client .. => some { p with phase := .connect }
      | true, .server _ => some { p with phase := .bind }
    else none

def connectStep (program : Program) (p : Process) (errno connectResult : Int) :
    Option Process :=
  match program, p.sockets program.starting with
  | .client inetPton host port, some s =>
    if p.phase = .connect then
      let attempt := s.connect inetPton host port errno connectResult
      let p := p.write program.starting attempt.socket
      if attempt.connected then some { p with phase := .started } else some (program.caught p)
    else none
  | _, _ => none

def bindStep (program : Program) (p : Process) (bindResult : Int) : Option Process :=
  match program, p.sockets program.starting with
  | .server port, some s =>
    if p.phase = .bind then
      let (s, bound) := s.bind port bindResult
      let p := p.write program.starting s
      if bound then some { p with phase := .listen } else some (program.caught p)
    else none
  | _, _ => none

def listenStep (program : Program) (p : Process) (listenResult : Int) : Option Process :=
  match p.sockets program.starting with
  | none => none
  | some s =>
    if p.phase = .listen then
      if s.listen listenResult then some { p with phase := .accept } else some (program.caught p)
    else none

/-- `objInitTCP_Socket.accept(objTCP_Socket)`; a connection that breaks leads back here. -/
def acceptStep (program : Program) (p : Process) (acceptResult : Int) (peer : Address) :
    Option Process :=
  match p.sockets .objInitTCPSocket, p.sockets .objTCPSocket with
  | some s, some newSocket =>
    if p.phase = .accept ∧ p.Fresh acceptResult then
      let (s, newSocket, accepted) := s.accept newSocket acceptResult peer
      let p := ((p.obtained acceptResult).write .objInitTCPSocket s).write .objTCPSocket newSocket
      if accepted then some p else some (program.caught p)
    else none
  | _, _ => none

/-- The program exits at any time, and its globals are destroyed. -/
def exitStep (p : Process) : Option Process :=
  if p.phase = .exited then none else some { p.destroy .objTCPSocket with phase := .exited }

def step (program : Program) (p : Process) : Event → Option Process
  | .create socketResult setsockoptResult => createStep program p socketResult setsockoptResult
  | .connect errno connectResult => connectStep program p errno connectResult
  | .bind bindResult => bindStep program p bindResult
  | .listen listenResult => listenStep program p listenResult
  | .accept acceptResult peer => acceptStep program p acceptResult peer
  | .exit => exitStep p

/-- The started program is reached by no handler. -/
theorem Program.caught_phase (program : Program) (p : Process) :
    (program.caught p).phase ≠ .started := by
  cases program with
  | client inetPton host port => exact (nomatch ·)
  | server port => exact (nomatch ·)

/-- An enabled call succeeds or raises. -/
theorem call_cases {enabled success : Prop} [Decidable enabled] [Decidable success]
    {q raised p' : Process}
    (stepped : (if enabled then if success then some q else some raised else none) = some p') :
    enabled ∧ (success ∧ p' = q ∨ p' = raised) := by
  split at stepped
  · rename_i ready
    refine ⟨ready, ?_⟩
    split at stepped
    · rename_i done
      exact Or.inl ⟨done, (Option.some.inj stepped).symm⟩
    · exact Or.inr (Option.some.inj stepped).symm
  · cases stepped

theorem createStep_cases {program : Program} {p p' : Process} {r o : Int}
    (stepped : createStep program p r o = some p') :
    ∃ s, p.sockets program.starting = some s ∧ p.Fresh r ∧
      (p' = program.caught ((p.obtained r).write program.starting (s.create r o).1) ∨
        ∃ phase, phase ≠ .started ∧
          p' = { (p.obtained r).write program.starting (s.create r o).1 with phase := phase }) := by
  cases there : p.sockets program.starting with
  | none =>
    simp only [createStep, there] at stepped
    cases stepped
  | some s =>
    simp only [createStep, there] at stepped
    split at stepped
    · rename_i enabled
      refine ⟨s, rfl, enabled.2, ?_⟩
      split at stepped
      · exact Or.inl (Option.some.inj stepped).symm
      · exact Or.inr ⟨.connect, by decide, (Option.some.inj stepped).symm⟩
      · exact Or.inr ⟨.bind, by decide, (Option.some.inj stepped).symm⟩
    · cases stepped

theorem connectStep_cases {program : Program} {p p' : Process} {errno r : Int}
    (stepped : connectStep program p errno r = some p') :
    ∃ inetPton host port s, program = .client inetPton host port ∧
      p.sockets program.starting = some s ∧
      ((s.connect inetPton host port errno r).connected = true ∧
          p' = { p.write program.starting (s.connect inetPton host port errno r).socket with
            phase := .started } ∨
        p' = program.caught
          (p.write program.starting (s.connect inetPton host port errno r).socket)) := by
  cases program with
  | server port => cases stepped
  | client inetPton host port =>
    cases there : p.sockets (Program.client inetPton host port).starting with
    | none =>
      simp only [connectStep, there] at stepped
      cases stepped
    | some s =>
      simp only [connectStep, there] at stepped
      exact ⟨inetPton, host, port, s, rfl, rfl, (call_cases stepped).2⟩

theorem bindStep_cases {program : Program} {p p' : Process} {r : Int}
    (stepped : bindStep program p r = some p') :
    ∃ port s, program = .server port ∧ p.sockets program.starting = some s ∧
      (p' = { p.write program.starting (s.bind port r).1 with phase := .listen } ∨
        p' = program.caught (p.write program.starting (s.bind port r).1)) := by
  cases program with
  | client inetPton host port => cases stepped
  | server port =>
    cases there : p.sockets (Program.server port).starting with
    | none =>
      simp only [bindStep, there] at stepped
      cases stepped
    | some s =>
      simp only [bindStep, there] at stepped
      exact ⟨port, s, rfl, rfl, (call_cases stepped).2.imp_left And.right⟩

theorem listenStep_cases {program : Program} {p p' : Process} {r : Int}
    (stepped : listenStep program p r = some p') :
    p' = { p with phase := .accept } ∨ p' = program.caught p := by
  rw [listenStep] at stepped
  split at stepped
  · cases stepped
  · exact (call_cases stepped).2.imp_left And.right

theorem acceptStep_cases {program : Program} {p p' : Process} {r : Int} {peer : Address}
    (stepped : acceptStep program p r peer = some p') :
    ∃ s newSocket q, p.sockets .objInitTCPSocket = some s ∧ p.phase = .accept ∧ p.Fresh r ∧
      q = ((p.obtained r).write .objInitTCPSocket (s.accept newSocket r peer).1).write
        .objTCPSocket (s.accept newSocket r peer).2.1 ∧
      (p' = q ∨ p' = program.caught q) := by
  rw [acceptStep] at stepped
  split at stepped
  · rename_i s newSocket there _
    obtain ⟨enabled, result⟩ := call_cases stepped
    exact ⟨s, newSocket, _, there, enabled.1, enabled.2, rfl, result.imp_left And.right⟩
  · cases stepped

theorem exitStep_cases {p p' : Process} (stepped : exitStep p = some p') :
    p' = { p.destroy .objTCPSocket with phase := .exited } := by
  rw [exitStep] at stepped
  split at stepped
  · cases stepped
  · exact (Option.some.inj stepped).symm

end TcpSocket
