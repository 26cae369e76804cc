import Mathlib.Data.List.Forall2
import UnvStream.RtspAgreement

/-!
# The media channel of a client that sends SETUP and then PLAY

The control connection runs together with the threads the server starts on SETUP,
the client's welcome message and the video thread. Nothing joins the workers: the
reply, READY and PLAYING do not wait for them. A port other than 0 gets no message
from the client, so its worker stays in its first blocking call.
-/

namespace MediaChannel

open Vocabulary RtspServer RtspClient

/-- `setupUDPUDP` and `setupUDPTCP` between their observable calls: a bound socket
waits in `recvfrom` or, listening, in `accept`; an accepted one waits in `recv`. -/
inductive WorkerPc where
  | absent
  | created
  | bound
  | accepted
  | done
  deriving DecidableEq

inductive Endpoint where
  | unset
  | client
  deriving DecidableEq

/-- The video thread waits for `slp`, tests the state in `addFrame`, or is about to
call `sendRTP_PacketUDP` or `sendRTP_PacketTCP`. -/
inductive VideoPc where
  | waiting
  | testing
  | sending
  deriving DecidableEq

structure MediaSystem where
  control : RtspAgreement.System
  remaining : List Command
  opening : Bool
  workers : Nat → WorkerPc
  inFlight : Nat
  connected : Bool
  queued : Nat
  structUDPClient : Endpoint
  acc : Endpoint
  video : VideoPc

inductive Event where
  | type
  | control (e : RtspAgreement.Event)
  | welcome
  | arrive
  | lose
  | worker (port : Nat)
  | video
  deriving DecidableEq

def typedLine : Command → List Char
  | .quit => "QUIT".toList
  | .setup => "SETUP".toList
  | .play => "PLAY".toList

/-- The workers after a statement of the RTSP thread. -/
def workersAfter (iNumUDPPorts : Nat) (st : MediaSystem) : Nat → WorkerPc :=
  match st.control.server.pc with
  | .starting port =>
    if port < iNumUDPPorts then Function.update st.workers port .created else st.workers
  | _ => st.workers

def controlWorkers (iNumUDPPorts : Nat) (st : MediaSystem) (e : RtspAgreement.Event) :
    Nat → WorkerPc :=
  if e = .serverAct then workersAfter iNumUDPPorts st else st.workers

/-- A step of the control connection other than a command. Once the client has
assigned READY it opens its socket before it reads the next command. -/
def controlStep (iNumUDPPorts : Nat) (st : MediaSystem) (e : RtspAgreement.Event) :
    Option MediaSystem :=
  (RtspAgreement.step iNumUDPPorts st.control e).map fun control => { st with
    control := control
    opening := if e = .clientAssign ∧ st.control.client.pc = .answered .setup then true
      else st.opening
    workers := controlWorkers iNumUDPPorts st e }

/-- `setupClientUDP`. On TCP the connection needs a listening socket; without one the
client exits. -/
def sendWelcome (tlayer : Transport) (st : MediaSystem) : Option MediaSystem :=
  if st.opening then
    match tlayer with
    | .useUDP => some { st with inFlight := st.inFlight + 1, opening := false }
    | .useTCP =>
      if st.workers 0 ≠ .absent ∧ st.workers 0 ≠ .created then
        some { st with inFlight := st.inFlight + 1, opening := false, connected := true }
      else none
  else none

/-- A datagram for a port without a bound socket is lost. -/
def arriveWelcome (tlayer : Transport) (st : MediaSystem) : Option MediaSystem :=
  if 0 < st.inFlight then
    if tlayer = .useUDP ∧ (st.workers 0 = .absent ∨ st.workers 0 = .created) then
      some { st with inFlight := st.inFlight - 1 }
    else some { st with inFlight := st.inFlight - 1, queued := st.queued + 1 }
  else none

def loseWelcome (tlayer : Transport) (st : MediaSystem) : Option MediaSystem :=
  if tlayer = .useUDP ∧ 0 < st.inFlight then some { st with inFlight := st.inFlight - 1 }
  else none

/-- The next call of a worker that returns. -/
def workerStep (tlayer : Transport) (st : MediaSystem) (port : Nat) : Option MediaSystem :=
  match st.workers port, tlayer with
  | .created, _ => some { st with workers := Function.update st.workers port .bound }
  | .bound, .useUDP =>
    if port = 0 ∧ 0 < st.queued then some { st with
      workers := Function.update st.workers port .done
      queued := st.queued - 1
      structUDPClient := .client }
    else none
  | .bound, .useTCP =>
    if port = 0 ∧ st.connected = true then some { st with
      workers := Function.update st.workers port .accepted
      acc := .client }
    else none
  | .accepted, _ =>
    if port = 0 ∧ 0 < st.queued then some { st with
      workers := Function.update st.workers port .done
      queued := st.queued - 1 }
    else none
  | .absent, _ => none
  | .done, _ => none

def videoStep (st : MediaSystem) : MediaSystem :=
  match st.video with
  | .waiting => if st.control.server.slp then st else { st with video := .testing }
  | .testing =>
    { st with video := if st.control.server.iRTSPState = .playing then .sending else .waiting }
  | .sending => { st with video := .waiting }

def step (tlayer : Transport) (iNumUDPPorts : Nat) (st : MediaSystem) :
    Event → Option MediaSystem
  | .type =>
    match st.opening, st.remaining with
    | false, command :: rest =>
      (RtspAgreement.step iNumUDPPorts st.control (.command (typedLine command))).map
        fun control => { st with control := control, remaining := rest }
    | _, _ => none
  | .control (.command _) => none
  | .control e => controlStep iNumUDPPorts st e
  | .welcome => sendWelcome tlayer st
  | .arrive => arriveWelcome tlayer st
  | .lose => loseWelcome tlayer st
  | .worker port => workerStep tlayer st port
  | .video => some (videoStep st)

def start (session : RtspMessages.ClientSession) : MediaSystem where
  control := RtspAgreement.connected RtspServer.start session
  remaining := [.setup, .play]
  opening := false
  workers := fun _ => .absent
  inFlight := 0
  connected := false
  queued := 0
  structUDPClient := .unset
  acc := .unset
  video := .waiting

/-- Where the send of the transport goes to. -/
def MediaSystem.endpoint (st : MediaSystem) : Transport → Endpoint
  | .useUDP => st.structUDPClient
  | .useTCP => st.acc

/-- A send goes to the client through a channel its worker has set up. -/
def SendsToClient (tlayer : Transport) (st : MediaSystem) : Prop :=
  st.video = .sending → st.workers 0 = .done ∧ st.endpoint tlayer = .client

/-- The RTSP thread assigns PLAYING only when the worker of port 0 is done. -/
def WaitsForWorker (st : MediaSystem) (e : Event) : Prop :=
  e = .control .serverAct → st.control.server.pc = .assigningPlaying → st.workers 0 = .done

instance (st : MediaSystem) (e : Event) : Decidable (WaitsForWorker st e) :=
  inferInstanceAs (Decidable (_ → _ → _))

/-- A text in flight is the request the client sends for the command. -/
def Carries (command : Command) (request : List Char) : Prop :=
  ∃ session, request = (RtspMessages.prepareRTSPRequest session (requestName command)).2

/-- How far the server is, with the commands it has still to receive. -/
inductive Phase (s : Server) : List Command → Prop where
  | before (pc : s.pc = .accepting ∨ s.pc = .receiving) (state : s.iRTSPState = .init)
      (slp : s.slp = true) : Phase s [.setup, .play]
  | settingUp (pc : s.pc = .replying .setup ∨ (∃ port, s.pc = .starting port) ∨
      s.pc = .assigningReady) (state : s.iRTSPState = .init) (slp : s.slp = true) :
      Phase s [.play]
  | ready (pc : s.pc = .receiving) (state : s.iRTSPState = .ready) (slp : s.slp = true) :
      Phase s [.play]
  | answering (pc : s.pc = .replying .play ∨ s.pc = .assigningPlaying)
      (state : s.iRTSPState = .ready) (slp : s.slp = true) : Phase s []
  | playing (pc : s.pc = .clearingSlp) (state : s.iRTSPState = .playing)
      (slp : s.slp = true) : Phase s []
  | streaming (pc : s.pc = .receiving) (state : s.iRTSPState = .playing)
      (slp : s.slp = false) : Phase s []

/-- A server that plays has finished with the workers. -/
theorem Phase.pc_of_playing {s : Server} {pending : List Command} (phase : Phase s pending)
    (state : s.iRTSPState = .playing) : s.pc = .clearingSlp ∨ s.pc = .receiving := by
  cases phase with
  | before _ state' | settingUp _ state' | ready _ state' | answering _ state' =>
    cases state.symm.trans state'
  | playing pc => exact Or.inl pc
  | streaming pc => exact Or.inr pc

theorem Phase.accepted {iNumUDPPorts : Nat} {s s' : Server} {pending : List Command}
    (phase : Phase s pending) (h : RtspServer.step iNumUDPPorts s .accepted = some s') :
    Phase s' pending := by
  cases stepped_of_step h with
  | accepted pc =>
    cases phase with
    | before _ _ slp => exact .before (Or.inr rfl) rfl slp
    | settingUp pc' =>
      rw [pc] at pc'
      rcases pc' with pc' | ⟨port, pc'⟩ | pc' <;> cases pc'
    | ready pc' | playing pc' | streaming pc' => cases pc.symm.trans pc'
    | answering pc' =>
      rw [pc] at pc'
      rcases pc' with pc' | pc' <;> cases pc'

/-- The server takes the next command from the connection. -/
theorem Phase.received {iNumUDPPorts : Nat} {s s' : Server} {command : Command}
    {pending : List Command} {request : List Char} (phase : Phase s (command :: pending))
    (carries : Carries command request)
    (h : RtspServer.step iNumUDPPorts s (.received request) = some s') : Phase s' pending := by
  obtain ⟨session, rfl⟩ := carries
  cases stepped_of_step h with
  | received data session' type pc parsed =>
    rw [server_reads_request] at parsed
    cases parsed
    cases phase with
    | before _ state slp => exact .settingUp (Or.inl rfl) state slp
    | settingUp pc' =>
      rw [pc] at pc'
      rcases pc' with pc' | ⟨port, pc'⟩ | pc' <;> cases pc'
    | ready _ state slp => exact .answering (Or.inl rfl) state slp

theorem Phase.act {iNumUDPPorts : Nat} {s s' : Server} {pending : List Command}
    (phase : Phase s pending) (h : RtspServer.step iNumUDPPorts s .act = some s') :
    Phase s' pending := by
  cases phase with
  | before pc =>
    rcases pc with pc | pc
    · simp only [RtspServer.step, RtspServer.act, pc] at h
      cases h
    · simp only [RtspServer.step, RtspServer.act, pc] at h
      cases h
  | settingUp pc state slp =>
    rcases pc with pc | ⟨port, pc⟩ | pc
    · simp only [RtspServer.step, RtspServer.act, pc] at h
      cases h
      exact .settingUp (Or.inr (Or.inl ⟨0, rfl⟩)) state slp
    · simp only [RtspServer.step, RtspServer.act, pc] at h
      by_cases more : port < iNumUDPPorts
      · rw [if_pos more] at h
        cases h
        exact .settingUp (Or.inr (Or.inl ⟨port + 1, rfl⟩)) state slp
      · rw [if_neg more] at h
        cases h
        exact .settingUp (Or.inr (Or.inr rfl)) state slp
    · simp only [RtspServer.step, RtspServer.act, pc] at h
      cases h
      exact .ready rfl rfl slp
  | answering pc state slp =>
    rcases pc with pc | pc
    · simp only [RtspServer.step, RtspServer.act, pc] at h
      cases h
      exact .answering (Or.inr rfl) state slp
    · simp only [RtspServer.step, RtspServer.act, pc] at h
      cases h
      exact .playing rfl rfl slp
  | playing pc state slp =>
    simp only [RtspServer.step, RtspServer.act, pc] at h
    cases h
    exact .streaming rfl state rfl
  | ready pc | streaming pc =>
    simp only [RtspServer.step, RtspServer.act, pc] at h
    cases h

/-- What a step of the connection does to the server and its incoming texts. -/
inductive ServerEffect (iNumUDPPorts : Nat) (sys sys' : RtspAgreement.System) :
    RtspAgreement.Event → Prop where
  | none (e : RtspAgreement.Event) (server : sys'.server = sys.server)
      (toServer : sys'.toServer = sys.toServer) : ServerEffect iNumUDPPorts sys sys' e
  | accepted (server : RtspServer.step iNumUDPPorts sys.server .accepted = some sys'.server)
      (toServer : sys'.toServer = sys.toServer) : ServerEffect iNumUDPPorts sys sys' .accept
  | received (request : List Char) (queue : sys.toServer = request :: sys'.toServer)
      (server : RtspServer.step iNumUDPPorts sys.server (.received request) =
        some sys'.server) : ServerEffect iNumUDPPorts sys sys' .deliverRequest
  | act (server : RtspServer.step iNumUDPPorts sys.server .act = some sys'.server)
      (toServer : sys'.toServer = sys.toServer) : ServerEffect iNumUDPPorts sys sys' .serverAct

theorem serverEffect_of_step {iNumUDPPorts : Nat} {sys sys' : RtspAgreement.System}
    {e : RtspAgreement.Event} (silent : ∀ line, e ≠ .command line)
    (h : RtspAgreement.step iNumUDPPorts sys e = some sys') :
    ServerEffect iNumUDPPorts sys sys' e := by
  cases e with
  | accept =>
    obtain ⟨server, hstep, rfl⟩ := Option.map_eq_some_iff.mp h
    exact .accepted hstep rfl
  | command line => exact absurd rfl (silent line)
  | deliverRequest =>
    cases queue : sys.toServer with
    | nil =>
      simp only [RtspAgreement.step, queue] at h
      cases h
    | cons request rest =>
      simp only [RtspAgreement.step, queue] at h
      obtain ⟨server, hstep, rfl⟩ := Option.map_eq_some_iff.mp h
      exact .received request queue hstep
  | serverAct =>
    obtain ⟨server, hstep, rfl⟩ := Option.map_eq_some_iff.mp h
    exact .act hstep rfl
  | deliverReply =>
    cases queue : sys.toClient with
    | nil =>
      simp only [RtspAgreement.step, queue] at h
      cases h
    | cons reply rest =>
      simp only [RtspAgreement.step, queue] at h
      obtain ⟨client, _, rfl⟩ := Option.map_eq_some_iff.mp h
      exact .none _ rfl rfl
  | clientAssign =>
    obtain ⟨client, _, rfl⟩ := Option.map_eq_some_iff.mp h
    exact .none _ rfl rfl

/-- PLAYING is assigned in one place. -/
theorem server_assigned {iNumUDPPorts : Nat} {s s' : Server} {e : RtspServer.Event}
    (h : RtspServer.step iNumUDPPorts s e = some s') (state : s'.iRTSPState = .playing) :
    s.iRTSPState = .playing ∨ e = .act ∧ s.pc = .assigningPlaying := by
  cases stepped_of_step h with
  | accepted | ready => cases state
  | playing pc => exact Or.inr ⟨rfl, pc⟩
  | acceptFailed | received | ended | replied | started | allStarted | cleared | sendFailed =>
    exact Or.inl state

theorem server_asleep {iNumUDPPorts : Nat} {s s' : Server} {e : RtspServer.Event}
    (h : RtspServer.step iNumUDPPorts s e = some s') (slp : s'.slp = true) : s.slp = true := by
  cases stepped_of_step h with
  | cleared => cases slp
  | accepted | acceptFailed | received | ended | replied | started | allStarted | ready | playing
    | sendFailed => exact slp

theorem Phase.stillPlaying {iNumUDPPorts : Nat} {s s' : Server} {pending : List Command}
    {e : RtspServer.Event} (phase : Phase s pending)
    (h : RtspServer.step iNumUDPPorts s e = some s') (state : s.iRTSPState = .playing) :
    s'.iRTSPState = .playing := by
  have finished := phase.pc_of_playing state
  cases stepped_of_step h with
  | accepted pc | ready pc =>
    rw [pc] at finished
    rcases finished with h | h <;> cases h
  | playing => rfl
  | acceptFailed | received | ended | replied | started | allStarted | cleared | sendFailed =>
    exact state

theorem ServerEffect.assigned {iNumUDPPorts : Nat} {sys sys' : RtspAgreement.System}
    {e : RtspAgreement.Event} (effect : ServerEffect iNumUDPPorts sys sys' e)
    (state : sys'.server.iRTSPState = .playing) :
    sys.server.iRTSPState = .playing ∨ e = .serverAct ∧ sys.server.pc = .assigningPlaying := by
  cases effect with
  | none e server => exact Or.inl (server ▸ state)
  | accepted server | received _ _ server =>
    rcases server_assigned server state with before | ⟨act, _⟩
    · exact Or.inl before
    · cases act
  | act server =>
    rcases server_assigned server state with before | ⟨_, pc⟩
    · exact Or.inl before
    · exact Or.inr ⟨rfl, pc⟩

theorem ServerEffect.asleep {iNumUDPPorts : Nat} {sys sys' : RtspAgreement.System}
    {e : RtspAgreement.Event} (effect : ServerEffect iNumUDPPorts sys sys' e)
    (slp : sys'.server.slp = true) : sys.server.slp = true := by
  cases effect with
  | none e server => exact server ▸ slp
  | accepted server | received _ _ server | act server => exact server_asleep server slp

/-- The commands in flight and those not yet typed are what the server waits for. -/
def Expects (sys : RtspAgreement.System) (remaining : List Command) : Prop :=
  ∃ inFlight, List.Forall₂ Carries inFlight sys.toServer ∧
    Phase sys.server (inFlight ++ remaining)

theorem ServerEffect.expects {iNumUDPPorts : Nat} {sys sys' : RtspAgreement.System}
    {e : RtspAgreement.Event} (effect : ServerEffect iNumUDPPorts sys sys' e)
    {remaining : List Command} (expects : Expects sys remaining) : Expects sys' remaining := by
  obtain ⟨inFlight, carried, phase⟩ := expects
  cases effect with
  | none e server toServer => exact ⟨inFlight, toServer ▸ carried, server ▸ phase⟩
  | accepted server toServer => exact ⟨inFlight, toServer ▸ carried, phase.accepted server⟩
  | received request queue server =>
    rw [queue] at carried
    cases carried with
    | cons carries rest => exact ⟨_, rest, phase.received carries server⟩
  | act server toServer => exact ⟨inFlight, toServer ▸ carried, phase.act server⟩

theorem ServerEffect.stillPlaying {iNumUDPPorts : Nat} {sys sys' : RtspAgreement.System}
    {e : RtspAgreement.Event} (effect : ServerEffect iNumUDPPorts sys sys' e)
    {remaining : List Command} (expects : Expects sys remaining)
    (state : sys.server.iRTSPState = .playing) : sys'.server.iRTSPState = .playing := by
  obtain ⟨_, _, phase⟩ := expects
  cases effect with
  | none e server => exact server ▸ state
  | accepted server | received _ _ server | act server => exact phase.stillPlaying server state

theorem commandOf_typedLine (command : Command) :
    commandOf (typedLine command) = some command := by
  cases command <;> decide +kernel

/-- Typing a command puts its request in flight. -/
theorem expects_of_typed {iNumUDPPorts : Nat} {sys sys' : RtspAgreement.System}
    {command : Command} {remaining : List Command} (expects : Expects sys (command :: remaining))
    (h : RtspAgreement.step iNumUDPPorts sys (.command (typedLine command)) = some sys') :
    sys'.server = sys.server ∧ Expects sys' remaining := by
  obtain ⟨⟨client, sent⟩, issued, rfl⟩ := Option.map_eq_some_iff.mp h
  obtain ⟨inFlight, carried, phase⟩ := expects
  have request : ∃ text, sent = [text] ∧ Carries command text := by
    cases pc : sys.client.pc with
    | waiting =>
      simp only [issue, pc, commandOf_typedLine] at issued
      cases issued
      exact ⟨_, rfl, _, rfl⟩
    | awaiting | answered | finished =>
      simp only [issue, pc] at issued
      cases issued
  obtain ⟨text, rfl, carries⟩ := request
  refine ⟨rfl, inFlight ++ [command], ?_, ?_⟩
  · exact List.rel_append carried (.cons carries .nil)
  · simpa only [List.append_assoc, List.singleton_append] using phase

/-- All that a worker can do, with the messages it finds. -/
inductive WorkerStepped (tlayer : Transport) (st : MediaSystem) : Nat → MediaSystem → Prop where
  | binds (port : Nat) (pc : st.workers port = .created) : WorkerStepped tlayer st port
      { st with workers := Function.update st.workers port .bound }
  | receives (pc : st.workers 0 = .bound) (udp : tlayer = .useUDP) : WorkerStepped tlayer st 0
      { st with
        workers := Function.update st.workers 0 .done
        queued := st.queued - 1
        structUDPClient := .client }
  | accepts (pc : st.workers 0 = .bound) (tcp : tlayer = .useTCP) : WorkerStepped tlayer st 0
      { st with workers := Function.update st.workers 0 .accepted, acc := .client }
  | reads (pc : st.workers 0 = .accepted) : WorkerStepped tlayer st 0
      { st with workers := Function.update st.workers 0 .done, queued := st.queued - 1 }

theorem workerStepped_of_step {tlayer : Transport} {st st' : MediaSystem} {port : Nat}
    (h : workerStep tlayer st port = some st') : WorkerStepped tlayer st port st' := by
  cases pc : st.workers port with
  | absent | done =>
    simp only [workerStep, pc] at h
    cases h
  | created =>
    simp only [workerStep, pc] at h
    cases h
    exact .binds port pc
  | bound =>
    cases tlayer with
    | useUDP =>
      simp only [workerStep, pc] at h
      obtain ⟨⟨rfl, _⟩, result⟩ := of_guarded h
      cases result
      exact .receives pc rfl
    | useTCP =>
      simp only [workerStep, pc] at h
      obtain ⟨⟨rfl, _⟩, result⟩ := of_guarded h
      cases result
      exact .accepts pc rfl
  | accepted =>
    simp only [workerStep, pc] at h
    obtain ⟨⟨rfl, _⟩, result⟩ := of_guarded h
    cases result
    exact .reads pc

/-- The welcome message and its transport leave the servers' threads alone. -/
def Transported (st st' : MediaSystem) : Prop :=
  ∃ opening inFlight connected queued, st' = { st with
    opening := opening, inFlight := inFlight, connected := connected, queued := queued }

theorem transported_of_sendWelcome {tlayer : Transport} {st st' : MediaSystem}
    (h : sendWelcome tlayer st = some st') : Transported st st' := by
  obtain ⟨_, result⟩ := of_guarded h
  cases tlayer with
  | useUDP =>
    cases result
    exact ⟨_, _, _, _, rfl⟩
  | useTCP =>
    obtain ⟨_, result⟩ := of_guarded result
    cases result
    exact ⟨_, _, _, _, rfl⟩

theorem transported_of_arrive {tlayer : Transport} {st st' : MediaSystem}
    (h : arriveWelcome tlayer st = some st') : Transported st st' := by
  obtain ⟨_, result⟩ := of_guarded h
  by_cases unbound : tlayer = .useUDP ∧ (st.workers 0 = .absent ∨ st.workers 0 = .created)
  · rw [if_pos unbound] at result
    cases result
    exact ⟨_, _, _, _, rfl⟩
  · rw [if_neg unbound] at result
    cases result
    exact ⟨_, _, _, _, rfl⟩

theorem transported_of_lose {tlayer : Transport} {st st' : MediaSystem}
    (h : loseWelcome tlayer st = some st') : Transported st st' := by
  obtain ⟨_, result⟩ := of_guarded h
  cases result
  exact ⟨_, _, _, _, rfl⟩

structure ChannelInv (tlayer : Transport) (st : MediaSystem) : Prop where
  expects : Expects st.control st.remaining
  worked : st.workers 0 = .done → st.endpoint tlayer = .client
  accepted : st.workers 0 = .accepted → tlayer = .useTCP ∧ st.acc = .client
  sending : st.video = .sending → st.control.server.iRTSPState = .playing
  asleep : st.control.server.slp = true → st.video = .waiting

/-- The channel is there before the state allows to send. -/
def Opened (st : MediaSystem) : Prop :=
  st.control.server.iRTSPState = .playing → st.workers 0 = .done

theorem start_inv (tlayer : Transport) (session : RtspMessages.ClientSession) :
    ChannelInv tlayer (start session) where
  expects := ⟨[], .nil, .before (Or.inl rfl) rfl rfl⟩
  worked := fun h => by cases h
  accepted := fun h => by cases h
  sending := fun h => by cases h
  asleep := fun _ => rfl

theorem type_inv {tlayer : Transport} {iNumUDPPorts : Nat} {st st' : MediaSystem}
    (inv : ChannelInv tlayer st) (h : step tlayer iNumUDPPorts st .type = some st') :
    ChannelInv tlayer st' ∧ (Opened st → Opened st') := by
  cases opening : st.opening with
  | true =>
    simp only [step, opening] at h
    cases h
  | false =>
    cases remaining : st.remaining with
    | nil =>
      simp only [step, opening, remaining] at h
      cases h
    | cons command rest =>
      simp only [step, opening, remaining] at h
      obtain ⟨control, hstep, rfl⟩ := Option.map_eq_some_iff.mp h
      have expects := inv.expects
      rw [remaining] at expects
      obtain ⟨server, expects'⟩ := expects_of_typed expects hstep
      refine ⟨⟨expects', inv.worked, inv.accepted, ?_, ?_⟩, ?_⟩
      · intro sending
        exact server ▸ inv.sending sending
      · intro slp
        exact inv.asleep (server ▸ slp)
      · intro opened state
        exact opened (server ▸ state)

theorem transported_inv {tlayer : Transport} {st st' : MediaSystem}
    (inv : ChannelInv tlayer st) (transported : Transported st st') :
    ChannelInv tlayer st' ∧ (Opened st → Opened st') := by
  obtain ⟨_, _, _, _, rfl⟩ := transported
  exact ⟨⟨inv.expects, inv.worked, inv.accepted, inv.sending, inv.asleep⟩, id⟩

theorem worker_inv {tlayer : Transport} {st st' : MediaSystem} {port : Nat}
    (inv : ChannelInv tlayer st) (h : WorkerStepped tlayer st port st') :
    ChannelInv tlayer st' ∧ (Opened st → Opened st') := by
  cases h with
  | binds port pc =>
    by_cases first : port = 0
    · subst first
      have bound : Function.update st.workers 0 .bound 0 = .bound := Function.update_self ..
      refine ⟨⟨inv.expects, ?_, ?_, inv.sending, inv.asleep⟩, ?_⟩
      · intro done
        cases bound.symm.trans done
      · intro accepted
        cases bound.symm.trans accepted
      · intro opened state
        cases pc.symm.trans (opened state)
    · have same : Function.update st.workers port .bound 0 = st.workers 0 :=
        Function.update_of_ne (Ne.symm first) ..
      refine ⟨⟨inv.expects, ?_, ?_, inv.sending, inv.asleep⟩, ?_⟩
      · intro done
        exact inv.worked (same.symm.trans done)
      · intro accepted
        exact inv.accepted (same.symm.trans accepted)
      · intro opened state
        exact same.trans (opened state)
  | receives pc udp =>
    subst udp
    have done : Function.update st.workers 0 .done 0 = .done := Function.update_self ..
    refine ⟨⟨inv.expects, fun _ => rfl, ?_, inv.sending, inv.asleep⟩, fun _ _ => done⟩
    intro accepted
    cases done.symm.trans accepted
  | accepts pc tcp =>
    subst tcp
    refine ⟨⟨inv.expects, fun _ => rfl, fun _ => ⟨rfl, rfl⟩, inv.sending, inv.asleep⟩, ?_⟩
    intro opened state
    cases pc.symm.trans (opened state)
  | reads pc =>
    obtain ⟨rfl, acc⟩ := inv.accepted pc
    have done : Function.update st.workers 0 .done 0 = .done := Function.update_self ..
    refine ⟨⟨inv.expects, fun _ => acc, ?_, inv.sending, inv.asleep⟩, fun _ _ => done⟩
    intro accepted
    cases done.symm.trans accepted

theorem video_inv {tlayer : Transport} {st : MediaSystem} (inv : ChannelInv tlayer st) :
    ChannelInv tlayer (videoStep st) ∧ (Opened st → Opened (videoStep st)) := by
  cases video : st.video with
  | waiting =>
    by_cases slp : st.control.server.slp = true
    · simpa only [videoStep, video, if_pos slp] using ⟨inv, id⟩
    · simp only [videoStep, video, if_neg slp]
      refine ⟨⟨inv.expects, inv.worked, inv.accepted, ?_, ?_⟩, id⟩
      · intro sending
        cases sending
      · intro asleep
        exact absurd asleep slp
  | testing =>
    have awake : st.control.server.slp ≠ true := by
      intro slp
      cases video.symm.trans (inv.asleep slp)
    simp only [videoStep, video]
    refine ⟨⟨inv.expects, inv.worked, inv.accepted, ?_, ?_⟩, id⟩
    · intro sending
      by_cases state : st.control.server.iRTSPState = .playing
      · exact state
      · cases (if_neg state).symm.trans sending
    · intro slp
      exact absurd slp awake
  | sending =>
    simp only [videoStep, video]
    refine ⟨⟨inv.expects, inv.worked, inv.accepted, ?_, fun _ => rfl⟩, id⟩
    intro sending
    cases sending

/-- Only a worker that is being started is put back. -/
theorem workersAfter_zero {iNumUDPPorts : Nat} {st : MediaSystem} {pc : WorkerPc}
    (h : workersAfter iNumUDPPorts st 0 = pc) (other : pc ≠ .created) : st.workers 0 = pc := by
  cases server : st.control.server.pc with
  | starting port =>
    simp only [workersAfter, server] at h
    by_cases more : port < iNumUDPPorts
    · rw [if_pos more] at h
      by_cases first : port = 0
      · subst first
        exact absurd ((Function.update_self ..).symm.trans h).symm other
      · exact (Function.update_of_ne (Ne.symm first) ..).symm.trans h
    · rw [if_neg more] at h
      exact h
  | accepting | receiving | replying | assigningReady | assigningPlaying | clearingSlp
    | stopped =>
    simp only [workersAfter, server] at h
    exact h

theorem workersAfter_settled {iNumUDPPorts : Nat} {st : MediaSystem}
    (settled : ∀ port, st.control.server.pc ≠ .starting port) :
    workersAfter iNumUDPPorts st = st.workers := by
  cases server : st.control.server.pc with
  | starting port => exact absurd server (settled port)
  | accepting | receiving | replying | assigningReady | assigningPlaying | clearingSlp
    | stopped => simp only [workersAfter, server]

theorem controlWorkers_zero {iNumUDPPorts : Nat} {st : MediaSystem} {e : RtspAgreement.Event}
    {pc : WorkerPc} (h : controlWorkers iNumUDPPorts st e 0 = pc) (other : pc ≠ .created) :
    st.workers 0 = pc := by
  by_cases act : e = .serverAct
  · exact workersAfter_zero ((congrFun (if_pos act) 0).symm.trans h) other
  · exact (congrFun (if_neg act) 0).symm.trans h

theorem controlWorkers_settled {iNumUDPPorts : Nat} {st : MediaSystem}
    {e : RtspAgreement.Event} (settled : ∀ port, st.control.server.pc ≠ .starting port) :
    controlWorkers iNumUDPPorts st e = st.workers := by
  by_cases act : e = .serverAct
  · exact (if_pos act).trans (workersAfter_settled settled)
  · exact if_neg act

theorem control_inv {tlayer : Transport} {iNumUDPPorts : Nat} {st st' : MediaSystem}
    {e : RtspAgreement.Event} (inv : ChannelInv tlayer st) (silent : ∀ line, e ≠ .command line)
    (h : controlStep iNumUDPPorts st e = some st') :
    ChannelInv tlayer st' ∧ (WaitsForWorker st (.control e) → Opened st → Opened st') := by
  obtain ⟨control, hstep, rfl⟩ := Option.map_eq_some_iff.mp h
  have effect := serverEffect_of_step silent hstep
  refine ⟨⟨effect.expects inv.expects, ?_, ?_, ?_, ?_⟩, ?_⟩
  · intro done
    exact inv.worked (controlWorkers_zero done WorkerPc.noConfusion)
  · intro accepted
    exact inv.accepted (controlWorkers_zero accepted WorkerPc.noConfusion)
  · intro sending
    exact effect.stillPlaying inv.expects (inv.sending sending)
  · intro slp
    exact inv.asleep (effect.asleep slp)
  · intro waits opened state
    rcases effect.assigned state with before | ⟨rfl, assigning⟩
    · have settled : ∀ port, st.control.server.pc ≠ .starting port := by
        intro port starting
        obtain ⟨_, _, phase⟩ := inv.expects
        rcases phase.pc_of_playing before with pc | pc <;> cases starting.symm.trans pc
      exact (congrFun (controlWorkers_settled settled) 0).trans (opened before)
    · have settled : ∀ port, st.control.server.pc ≠ .starting port := by
        intro port starting
        cases starting.symm.trans assigning
      have same : controlWorkers iNumUDPPorts st .serverAct = st.workers :=
        controlWorkers_settled settled
      exact (congrFun same 0).trans (waits rfl assigning)

theorem step_inv {tlayer : Transport} {iNumUDPPorts : Nat} {st st' : MediaSystem} {e : Event}
    (inv : ChannelInv tlayer st) (h : step tlayer iNumUDPPorts st e = some st') :
    ChannelInv tlayer st' ∧ (WaitsForWorker st e → Opened st → Opened st') := by
  cases e with
  | type =>
    obtain ⟨inv', opened⟩ := type_inv inv h
    exact ⟨inv', fun _ => opened⟩
  | control e =>
    cases e with
    | command line => cases h
    | accept | deliverRequest | serverAct | deliverReply | clientAssign =>
      exact control_inv inv (fun line => RtspAgreement.Event.noConfusion) h
  | welcome =>
    obtain ⟨inv', opened⟩ := transported_inv inv (transported_of_sendWelcome h)
    exact ⟨inv', fun _ => opened⟩
  | arrive =>
    obtain ⟨inv', opened⟩ := transported_inv inv (transported_of_arrive h)
    exact ⟨inv', fun _ => opened⟩
  | lose =>
    obtain ⟨inv', opened⟩ := transported_inv inv (transported_of_lose h)
    exact ⟨inv', fun _ => opened⟩
  | worker port =>
    obtain ⟨inv', opened⟩ := worker_inv inv (workerStepped_of_step h)
    exact ⟨inv', fun _ => opened⟩
  | video =>
    cases h
    obtain ⟨inv', opened⟩ := video_inv inv
    exact ⟨inv', fun _ => opened⟩

theorem run_inv {tlayer : Transport} {iNumUDPPorts : Nat} {session : RtspMessages.ClientSession}
    {events : List Event} {st : MediaSystem}
    (run : TraceMachine.run (step tlayer iNumUDPPorts) (start session) events = some st) :
    ChannelInv tlayer st :=
  TraceMachine.invariant_of_run _ (fun _ _ _ inv h => (step_inv inv h).1)
    (start_inv tlayer session) run

theorem run_opened {tlayer : Transport} {iNumUDPPorts : Nat}
    {session : RtspMessages.ClientSession} {events : List Event} {st : MediaSystem}
    (waits : TraceMachine.Along (step tlayer iNumUDPPorts) WaitsForWorker (start session) events)
    (run : TraceMachine.run (step tlayer iNumUDPPorts) (start session) events = some st) :
    ChannelInv tlayer st ∧ Opened st := by
  have initially : ChannelInv tlayer (start session) ∧ Opened (start session) :=
    ⟨start_inv tlayer session, fun playing => by cases playing⟩
  have preserved : ∀ s e s', ChannelInv tlayer s ∧ Opened s → WaitsForWorker s e →
      step tlayer iNumUDPPorts s e = some s' → ChannelInv tlayer s' ∧ Opened s' := by
    rintro s e s' ⟨inv, opened⟩ allowed h
    obtain ⟨inv', opened'⟩ := step_inv inv h
    exact ⟨inv', opened' allowed opened⟩
  exact TraceMachine.invariant_along _ preserved initially waits run

def MediaSystem.withServer (st : MediaSystem) (server : Server) : MediaSystem :=
  { st with control := st.control.withServer server }

/-- A statement of the RTSP thread that sends nothing and starts no worker. -/
theorem act_step {tlayer : Transport} {iNumUDPPorts : Nat} {st : MediaSystem} {server : Server}
    (silent : RtspAgreement.serverSends st.control.server = [])
    (settled : ∀ port, st.control.server.pc ≠ .starting port)
    (h : RtspServer.step iNumUDPPorts st.control.server .act = some server) :
    step tlayer iNumUDPPorts st (.control .serverAct) = some (st.withServer server) := by
  have acts : RtspAgreement.step iNumUDPPorts st.control .serverAct =
      some (st.control.withServer server) := by
    simp only [RtspAgreement.step, h, silent, List.append_nil, Option.map_some,
      RtspAgreement.System.withServer]
  have opening : ¬ (RtspAgreement.Event.serverAct = .clientAssign ∧
      st.control.client.pc = .answered .setup) := fun both => by cases both.1
  simp only [step, controlStep, acts, controlWorkers_settled settled, if_neg opening,
    Option.map_some, MediaSystem.withServer]

theorem Phase.asleep {s : Server} {pending : List Command} (phase : Phase s pending)
    (assigning : s.pc = .assigningPlaying) : s.slp = true := by
  cases phase with
  | before _ _ slp | settingUp _ _ slp | ready _ _ slp | answering _ _ slp => exact slp
  | playing pc | streaming pc => cases assigning.symm.trans pc

/-- After an early PLAYING the video thread can send before the channel exists. -/
theorem early_send {tlayer : Transport} {iNumUDPPorts : Nat} {st : MediaSystem}
    (inv : ChannelInv tlayer st) (assigning : st.control.server.pc = .assigningPlaying)
    (unready : st.workers 0 ≠ .done) :
    ∃ st', TraceMachine.run (step tlayer iNumUDPPorts) st
        [.control .serverAct, .control .serverAct, .video, .video] = some st' ∧
      ¬ SendsToClient tlayer st' := by
  obtain ⟨_, _, phase⟩ := inv.expects
  have waiting := inv.asleep (phase.asleep assigning)
  let playing : Server := { st.control.server with iRTSPState := .playing, pc := .clearingSlp }
  let awake : Server := { playing with slp := false, pc := .receiving }
  have assigns : step tlayer iNumUDPPorts st (.control .serverAct) =
      some (st.withServer playing) := by
    refine act_step ?_ ?_ ?_
    · simp only [RtspAgreement.serverSends, assigning]
    · intro port starting
      cases assigning.symm.trans starting
    · simp only [RtspServer.step, RtspServer.act, assigning, playing]
  have clears : step tlayer iNumUDPPorts (st.withServer playing) (.control .serverAct) =
      some (st.withServer awake) :=
    act_step rfl (fun port => Pc.noConfusion) rfl
  have wakes : videoStep (st.withServer awake) =
      { st.withServer awake with video := .testing } := by
    simp only [videoStep, MediaSystem.withServer, waiting]
    exact if_neg Bool.false_ne_true
  refine ⟨{ st.withServer awake with video := .sending }, ?_, ?_⟩
  · refine (TraceMachine.run_cons _).mpr ⟨_, assigns, ?_⟩
    refine (TraceMachine.run_cons _).mpr ⟨_, clears, ?_⟩
    exact (TraceMachine.run_cons _).mpr ⟨_, congrArg some wakes, rfl⟩
  · intro sends
    exact unready (sends rfl).1

/-- A run in which PLAYING is assigned only after the worker is done sends to the client
only. Where it is assigned earlier, a continuation of the run sends elsewhere. -/
theorem sends_to_client_when_waiting (tlayer : Transport) (iNumUDPPorts : Nat)
    (session : RtspMessages.ClientSession) (events : List Event) (st : MediaSystem)
    (run : TraceMachine.run (step tlayer iNumUDPPorts) (start session) events = some st) :
    (TraceMachine.Along (step tlayer iNumUDPPorts) WaitsForWorker (start session) events →
      SendsToClient tlayer st) ∧
    (¬ WaitsForWorker st (.control .serverAct) →
      ∃ more st', TraceMachine.run (step tlayer iNumUDPPorts) (start session)
        (events ++ .control .serverAct :: more) = some st' ∧ ¬ SendsToClient tlayer st') := by
  constructor
  · intro waits sending
    obtain ⟨inv, opened⟩ := run_opened waits run
    have done := opened (inv.sending sending)
    exact ⟨done, inv.worked done⟩
  · intro early
    have assigning : st.control.server.pc = .assigningPlaying := by
      by_contra other
      exact early fun _ pc => absurd pc other
    have unready : st.workers 0 ≠ .done := fun done => early fun _ _ => done
    obtain ⟨st', last, elsewhere⟩ := early_send (run_inv run) assigning unready
    exact ⟨_, st', TraceMachine.run_trans _ run last, elsewhere⟩

/-- SETUP up to the assignment of READY on both sides. -/
def setupEvents : List Event :=
  [.control .accept, .type, .control .deliverRequest, .control .serverAct, .control .serverAct,
    .control .serverAct, .control .serverAct, .control .serverAct, .control .deliverReply,
    .control .clientAssign]

/-- PLAY up to the first send of the video thread. -/
def playEvents : List Event :=
  [.type, .control .deliverRequest, .control .serverAct, .control .serverAct,
    .control .serverAct, .video, .video]

theorem sends_after_welcome :
    ∃ st, TraceMachine.run (step .useUDP 2) (start ⟨25000, 123456, 0⟩)
        (setupEvents ++ [.worker 0, .welcome, .arrive, .worker 0] ++ playEvents) = some st ∧
      st.video = .sending ∧ st.workers 0 = .done ∧ st.structUDPClient = .client := by
  have reached : (TraceMachine.run (step .useUDP 2) (start ⟨25000, 123456, 0⟩)
      (setupEvents ++ [.worker 0, .welcome, .arrive, .worker 0] ++ playEvents)).any
      (fun st => st.video = .sending) = true := by
    decide +kernel
  have waits : TraceMachine.Along (step .useUDP 2) WaitsForWorker (start ⟨25000, 123456, 0⟩)
      (setupEvents ++ [.worker 0, .welcome, .arrive, .worker 0] ++ playEvents) := by
    decide +kernel
  obtain ⟨st, run, sending⟩ := (Option.any_eq_true _ _).mp reached
  have sends := (sends_to_client_when_waiting .useUDP 2 ⟨25000, 123456, 0⟩ _ st run).1 waits
  exact ⟨st, run, of_decide_eq_true sending, sends (of_decide_eq_true sending)⟩

/-- The welcome message is lost and its worker still waits. -/
theorem sends_without_welcome :
    ¬ ∀ (tlayer : Transport) (iNumUDPPorts : Nat) (session : RtspMessages.ClientSession)
      (events : List Event) (st : MediaSystem),
      TraceMachine.run (step tlayer iNumUDPPorts) (start session) events = some st →
        SendsToClient tlayer st := by
  intro claimed
  have reached : (TraceMachine.run (step .useUDP 2) (start ⟨25000, 123456, 0⟩)
      (setupEvents ++ [.worker 0, .welcome, .lose] ++ playEvents)).any
      (fun st => st.video = .sending ∧ st.workers 0 = .bound) = true := by
    decide +kernel
  obtain ⟨st, run, facts⟩ := (Option.any_eq_true _ _).mp reached
  obtain ⟨sending, bound⟩ := of_decide_eq_true facts
  cases bound.symm.trans (claimed .useUDP 2 ⟨25000, 123456, 0⟩ _ st run sending).1

end MediaChannel
