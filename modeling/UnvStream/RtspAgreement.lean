import UnvStream.RtspClient

/-!
# Client and server over one control connection

The two loops with the messages in flight between them. Each send arrives as one
`recv` and no socket call fails. The server replies before it assigns its state and
the client assigns after it has read the reply, so the invariant goes by stages of
an exchange and looks at the state the server is about to have.
-/

namespace RtspAgreement

open Vocabulary RtspMessages RtspServer RtspClient

structure System where
  client : Client
  server : Server
  toServer : List (List Char)
  toClient : List (List Char)
  requests : List (List Char)
  answers : List (List Char)

inductive Event where
  | accept
  | command (line : List Char)
  | deliverRequest
  | serverAct
  | deliverReply
  | clientAssign
  deriving DecidableEq

def serverSends (s : Server) : List (List Char) :=
  match s.pc with
  | .replying request => [(replyTo s.session request).2]
  | _ => []

def step (iNumUDPPorts : Nat) (sys : System) : Event → Option System
  | .accept =>
    (RtspServer.step iNumUDPPorts sys.server .accepted).map fun server =>
      { sys with server := server }
  | .command line =>
    (issue sys.client line).map fun (client, sent) => { sys with
      client := client
      toServer := sys.toServer ++ sent
      requests := sys.requests ++ sent }
  | .deliverRequest =>
    match sys.toServer with
    | [] => none
    | request :: rest =>
      (RtspServer.step iNumUDPPorts sys.server (.received request)).map fun server =>
        { sys with server := server, toServer := rest }
  | .serverAct =>
    (RtspServer.step iNumUDPPorts sys.server .act).map fun server =>
      { sys with server := server, toClient := sys.toClient ++ serverSends sys.server }
  | .deliverReply =>
    match sys.toClient with
    | [] => none
    | reply :: rest =>
      (readReply sys.client reply).map fun client =>
        { sys with client := client, toClient := rest, answers := sys.answers ++ [reply] }
  | .clientAssign => (conclude sys.client).map fun client => { sys with client := client }

/-- A client that has just connected to a server about to accept. -/
def connected (server : Server) (session : ClientSession) : System where
  client := ⟨.waiting, session, .init⟩
  server := server
  toServer := []
  toClient := []
  requests := []
  answers := []

/-- The state the server has when its pending statements are done. -/
def effective (s : Server) : RtspState :=
  match s.pc with
  | .accepting => .init
  | .starting _ | .assigningReady => .ready
  | .assigningPlaying => .playing
  | .receiving | .replying _ | .clearingSlp | .stopped => s.iRTSPState

/-- The server owes no reply. -/
structure Settling (s : Server) : Prop where
  running : s.pc ≠ .stopped
  replied : ∀ request, s.pc ≠ .replying request

/-- The stages of an exchange. -/
inductive Stage (sys : System) : Prop where
  | quiet (pc : sys.client.pc = .waiting ∨ sys.client.pc = .finished)
      (toServer : sys.toServer = []) (toClient : sys.toClient = [])
      (settling : Settling sys.server)
      (agree : effective sys.server = sys.client.iRTSPState)
  | requested (command : Command) (session : ClientSession)
      (pc : sys.client.pc = .awaiting command)
      (toServer : sys.toServer = [(prepareRTSPRequest session (requestName command)).2])
      (toClient : sys.toClient = []) (settling : Settling sys.server)
      (agree : effective sys.server = sys.client.iRTSPState)
  | taken (command : Command) (pc : sys.client.pc = .awaiting command)
      (toServer : sys.toServer = []) (toClient : sys.toClient = [])
      (owes : sys.server.pc = .replying (requestType command))
      (agree : sys.server.iRTSPState = sys.client.iRTSPState)
  | replied (command : Command) (session : ServerSession)
      (pc : sys.client.pc = .awaiting command)
      (toServer : sys.toServer = [])
      (toClient : sys.toClient = [(prepareRTSPResponse session).2])
      (settling : Settling sys.server)
      (agree : effective sys.server = stateAfterReply sys.client.iRTSPState command)
  | answered (command : Command) (pc : sys.client.pc = .answered command)
      (toServer : sys.toServer = []) (toClient : sys.toClient = [])
      (settling : Settling sys.server)
      (agree : effective sys.server = stateAfterReply sys.client.iRTSPState command)

/-- Requests that wait for their answer. -/
def outstanding : ClientPc → Nat
  | .awaiting _ => 1
  | .waiting | .answered _ | .finished => 0

structure Agreement (sys : System) : Prop where
  stage : Stage sys
  counted : sys.answers.length + outstanding sys.client.pc = sys.requests.length
  replies : ∀ m ∈ sys.answers ++ sys.toClient, ∃ session, m = (prepareRTSPResponse session).2

/-- A server that owes no reply sends nothing and goes on to its effective state. -/
theorem settling_act {iNumUDPPorts : Nat} {s s' : Server} (settling : Settling s)
    (h : RtspServer.step iNumUDPPorts s .act = some s') :
    Settling s' ∧ effective s' = effective s ∧ serverSends s = [] := by
  cases stepped_of_step h with
  | replied request pc => exact absurd pc (settling.replied request)
  | started port pc more =>
    refine ⟨⟨by simp, by simp⟩, ?_, ?_⟩ <;> simp [effective, serverSends, pc]
  | allStarted port pc done =>
    refine ⟨⟨by simp, by simp⟩, ?_, ?_⟩ <;> simp [effective, serverSends, pc]
  | ready pc => refine ⟨⟨by simp, by simp⟩, ?_, ?_⟩ <;> simp [effective, serverSends, pc]
  | playing pc => refine ⟨⟨by simp, by simp⟩, ?_, ?_⟩ <;> simp [effective, serverSends, pc]
  | cleared pc => refine ⟨⟨by simp, by simp⟩, ?_, ?_⟩ <;> simp [effective, serverSends, pc]

theorem settling_accept {iNumUDPPorts : Nat} {s s' : Server}
    (h : RtspServer.step iNumUDPPorts s .accepted = some s') :
    s.pc = .accepting ∧ Settling s' ∧ effective s' = effective s := by
  cases stepped_of_step h with
  | accepted pc => exact ⟨pc, ⟨by simp, by simp⟩, by simp [effective, pc]⟩

/-- The reply takes the server to the state the client is about to assign. -/
theorem owing_act {iNumUDPPorts : Nat} {s s' : Server} {command : Command}
    (owes : s.pc = .replying (requestType command))
    (h : RtspServer.step iNumUDPPorts s .act = some s') :
    Settling s' ∧ effective s' = stateAfterReply s.iRTSPState command ∧
      serverSends s = [(prepareRTSPResponse s.session).2] := by
  have sends : serverSends s = [(prepareRTSPResponse s.session).2] := by
    simp only [serverSends, owes, replyTo_requestType]
  simp only [RtspServer.step, act, owes] at h
  have after := Option.some.inj h
  subst after
  cases command with
  | quit => exact ⟨⟨Pc.noConfusion, fun _ => Pc.noConfusion⟩, rfl, sends⟩
  | setup => exact ⟨⟨Pc.noConfusion, fun _ => Pc.noConfusion⟩, rfl, sends⟩
  | play => exact ⟨⟨Pc.noConfusion, fun _ => Pc.noConfusion⟩, rfl, sends⟩

/-- A typed line sends the request of its command or nothing. -/
theorem issue_cases {c c' : Client} {line : List Char} {sent : List (List Char)}
    (h : issue c line = some (c', sent)) :
    c.pc = .waiting ∧ (c' = c ∧ sent = [] ∨ ∃ command session, c' = { c with
      session := session, pc := .awaiting command } ∧
        sent = [(prepareRTSPRequest c.session (requestName command)).2]) := by
  cases pc : c.pc with
  | waiting =>
    refine ⟨rfl, ?_⟩
    simp only [issue, pc] at h
    cases command : commandOf line with
    | none =>
      rw [command] at h
      obtain ⟨rfl, rfl⟩ := Prod.mk.inj (Option.some.inj h)
      exact Or.inl ⟨rfl, rfl⟩
    | some command' =>
      rw [command] at h
      obtain ⟨rfl, rfl⟩ := Prod.mk.inj (Option.some.inj h)
      exact Or.inr ⟨command', _, rfl, rfl⟩
  | awaiting | answered | finished =>
    simp only [issue, pc] at h
    cases h

theorem readReply_response {c c' : Client} {session : ServerSession} {command : Command}
    (pc : c.pc = .awaiting command)
    (h : readReply c (prepareRTSPResponse session).2 = some c') :
    c'.pc = .answered command ∧ c'.iRTSPState = c.iRTSPState := by
  simp only [readReply, pc, client_reads_response, Option.bind_eq_bind, Option.bind_some,
    Option.pure_def] at h
  cases h
  exact ⟨rfl, rfl⟩

theorem conclude_cases {c c' : Client} (h : conclude c = some c') :
    ∃ command, c.pc = .answered command ∧
      (c'.pc = .waiting ∨ c'.pc = .finished) ∧
      c'.iRTSPState = stateAfterReply c.iRTSPState command := by
  cases pc : c.pc with
  | answered command =>
    simp only [conclude, pc] at h
    cases h
    refine ⟨command, rfl, ?_, rfl⟩
    by_cases quit : command = .quit
    · exact Or.inr (if_pos quit)
    · exact Or.inl (if_neg quit)
  | waiting | awaiting | finished =>
    simp only [conclude, pc] at h
    cases h

/-- The server of a connection reads the request that is in flight. -/
theorem receive_request {iNumUDPPorts : Nat} {s s' : Server} {session : ClientSession}
    {command : Command}
    (h : RtspServer.step iNumUDPPorts s
      (.received (prepareRTSPRequest session (requestName command)).2) = some s') :
    s.pc = .receiving ∧ s'.pc = .replying (requestType command) ∧
      s'.iRTSPState = s.iRTSPState := by
  cases stepped_of_step h with
  | received data session' request pc parsed =>
    rw [server_reads_request] at parsed
    cases parsed
    exact ⟨pc, rfl, rfl⟩

/-- Steps of a settling server that keep its effective state keep the stage. -/
theorem Stage.withServer {sys : System} {server : Server} (stage : Stage sys)
    (was : Settling sys.server) (now : Settling server)
    (same : effective server = effective sys.server) : Stage { sys with server := server } := by
  cases stage with
  | quiet pc toServer toClient settling agree =>
    exact .quiet pc toServer toClient now (same.trans agree)
  | requested command session pc toServer toClient settling agree =>
    exact .requested command session pc toServer toClient now (same.trans agree)
  | taken command pc toServer toClient owes agree => exact absurd owes (was.replied _)
  | replied command session pc toServer toClient settling agree =>
    exact .replied command session pc toServer toClient now (same.trans agree)
  | answered command pc toServer toClient settling agree =>
    exact .answered command pc toServer toClient now (same.trans agree)

/-- An accepting server owes nothing. -/
theorem settling_of_accepting {s : Server} (pc : s.pc = .accepting) : Settling s := by
  constructor
  · intro h
    rw [pc] at h
    cases h
  · intro request h
    rw [pc] at h
    cases h

theorem connected_agreement {server : Server} (accepting : server.pc = .accepting)
    (session : ClientSession) : Agreement (connected server session) where
  stage := by
    refine .quiet (Or.inl rfl) rfl rfl (settling_of_accepting accepting) ?_
    simp only [connected, effective, accepting]
  counted := rfl
  replies := fun m h => by cases h

theorem accept_agreement {iNumUDPPorts : Nat} {sys sys' : System} (inv : Agreement sys)
    (h : step iNumUDPPorts sys .accept = some sys') : Agreement sys' := by
  obtain ⟨server, hstep, rfl⟩ := Option.map_eq_some_iff.mp h
  obtain ⟨pc, settling, same⟩ := settling_accept hstep
  exact ⟨inv.stage.withServer (settling_of_accepting pc) settling same, inv.counted, inv.replies⟩

/-- A request is sent from the quiet stage only. -/
theorem command_agreement {iNumUDPPorts : Nat} {sys sys' : System} {line : List Char}
    (inv : Agreement sys) (h : step iNumUDPPorts sys (.command line) = some sys') :
    Agreement sys' := by
  obtain ⟨⟨client, sent⟩, issued, rfl⟩ := Option.map_eq_some_iff.mp h
  obtain ⟨waiting, ⟨rfl, rfl⟩ | ⟨command, session, rfl, rfl⟩⟩ := issue_cases issued
  · simpa only [List.append_nil] using inv
  · have counted := inv.counted
    rw [waiting] at counted
    cases inv.stage with
    | quiet pc toServer toClient settling agree =>
      refine ⟨.requested command sys.client.session rfl ?_ toClient settling agree, ?_, inv.replies⟩
      · rw [toServer]
        rfl
      · simp only [outstanding, List.length_append, List.length_singleton] at counted ⊢
        omega
    | requested command' session' pc | taken command' pc | replied command' session' pc
      | answered command' pc =>
      rw [waiting] at pc
      cases pc

theorem deliverRequest_agreement {iNumUDPPorts : Nat} {sys sys' : System} (inv : Agreement sys)
    (h : step iNumUDPPorts sys .deliverRequest = some sys') : Agreement sys' := by
  cases queue : sys.toServer with
  | nil =>
    simp only [step, queue] at h
    cases h
  | cons request rest =>
    simp only [step, queue] at h
    obtain ⟨server, hstep, rfl⟩ := Option.map_eq_some_iff.mp h
    cases inv.stage with
    | requested command session pc toServer toClient settling agree =>
      rw [queue] at toServer
      cases toServer
      obtain ⟨receiving, owes, state⟩ := receive_request hstep
      have agree' : server.iRTSPState = sys.client.iRTSPState := by
        rw [state, ← agree, effective, receiving]
      exact ⟨.taken command pc rfl toClient owes agree', inv.counted, inv.replies⟩
    | quiet _ toServer | taken _ _ toServer | replied _ _ _ toServer | answered _ _ toServer =>
      rw [queue] at toServer
      cases toServer

theorem serverAct_agreement {iNumUDPPorts : Nat} {sys sys' : System} (inv : Agreement sys)
    (h : step iNumUDPPorts sys .serverAct = some sys') : Agreement sys' := by
  obtain ⟨server, hstep, rfl⟩ := Option.map_eq_some_iff.mp h
  have moves (settling : Settling sys.server) :
      Agreement { sys with
        server := server, toClient := sys.toClient ++ serverSends sys.server } := by
    obtain ⟨now, same, silent⟩ := settling_act settling hstep
    rw [silent, List.append_nil]
    exact ⟨inv.stage.withServer settling now same, inv.counted, inv.replies⟩
  cases inv.stage with
  | taken command pc toServer toClient owes agree =>
    obtain ⟨now, after, sends⟩ := owing_act owes hstep
    have reply : sys.toClient ++ serverSends sys.server =
        [(prepareRTSPResponse sys.server.session).2] := by
      rw [toClient, sends]
      rfl
    refine ⟨.replied command _ pc toServer reply now ?_, inv.counted, ?_⟩
    · rw [after, agree]
    · intro m hm
      simp only [reply] at hm
      rcases List.mem_append.mp hm with hm | hm
      · exact inv.replies m (List.mem_append_left _ hm)
      · exact ⟨_, List.mem_singleton.mp hm⟩
  | quiet _ _ _ settling => exact moves settling
  | requested _ _ _ _ _ settling => exact moves settling
  | replied _ _ _ _ _ settling => exact moves settling
  | answered _ _ _ _ settling => exact moves settling

theorem deliverReply_agreement {iNumUDPPorts : Nat} {sys sys' : System} (inv : Agreement sys)
    (h : step iNumUDPPorts sys .deliverReply = some sys') : Agreement sys' := by
  cases queue : sys.toClient with
  | nil =>
    simp only [step, queue] at h
    cases h
  | cons reply rest =>
    simp only [step, queue] at h
    obtain ⟨client, read, rfl⟩ := Option.map_eq_some_iff.mp h
    cases inv.stage with
    | replied command session pc toServer toClient settling agree =>
      rw [queue] at toClient
      cases toClient
      obtain ⟨answered, state⟩ := readReply_response pc read
      have counted := inv.counted
      have replies := inv.replies
      rw [pc] at counted
      rw [queue] at replies
      refine ⟨.answered command answered toServer rfl settling ?_, ?_, ?_⟩
      · rw [state]
        exact agree
      · simp only [answered, outstanding, List.length_append, List.length_singleton] at counted ⊢
        omega
      · intro m hm
        rw [List.append_nil] at hm
        exact replies m hm
    | quiet _ _ toClient | requested _ _ _ _ toClient | taken _ _ _ toClient
      | answered _ _ _ toClient =>
      rw [queue] at toClient
      cases toClient

theorem clientAssign_agreement {iNumUDPPorts : Nat} {sys sys' : System} (inv : Agreement sys)
    (h : step iNumUDPPorts sys .clientAssign = some sys') : Agreement sys' := by
  obtain ⟨client, concluded, rfl⟩ := Option.map_eq_some_iff.mp h
  obtain ⟨command, answered, done, state⟩ := conclude_cases concluded
  have counted := inv.counted
  rw [answered] at counted
  cases inv.stage with
  | answered command' pc toServer toClient settling agree =>
    have same : command' = command := ClientPc.answered.inj (pc.symm.trans answered)
    subst same
    refine ⟨.quiet done toServer toClient settling (agree.trans state.symm), ?_, inv.replies⟩
    rcases done with done | done
    · rw [done]
      exact counted
    · rw [done]
      exact counted
  | quiet pc =>
    rcases pc with pc | pc <;> rw [answered] at pc <;> cases pc
  | requested _ _ pc | taken _ pc | replied _ _ pc =>
    rw [answered] at pc
    cases pc

theorem step_agreement {iNumUDPPorts : Nat} {sys sys' : System} {e : Event}
    (inv : Agreement sys) (h : step iNumUDPPorts sys e = some sys') : Agreement sys' := by
  cases e with
  | accept => exact accept_agreement inv h
  | command line => exact command_agreement inv h
  | deliverRequest => exact deliverRequest_agreement inv h
  | serverAct => exact serverAct_agreement inv h
  | deliverReply => exact deliverReply_agreement inv h
  | clientAssign => exact clientAssign_agreement inv h

theorem run_agreement {iNumUDPPorts : Nat} {sys sys' : System} {events : List Event}
    (inv : Agreement sys) (run : TraceMachine.run (step iNumUDPPorts) sys events = some sys') :
    Agreement sys' :=
  TraceMachine.invariant_of_run _ (fun _ _ _ inv h => step_agreement inv h) inv run

/-- The system goes on without a command being typed and sends no new request. -/
def Continues (iNumUDPPorts : Nat) (sys sys' : System) : Prop :=
  ∃ events, (∀ e ∈ events, ∀ line, e ≠ .command line) ∧
    TraceMachine.run (step iNumUDPPorts) sys events = some sys' ∧ sys'.requests = sys.requests

theorem Continues.refl (iNumUDPPorts : Nat) (sys : System) : Continues iNumUDPPorts sys sys :=
  ⟨[], List.forall_mem_nil _, rfl, rfl⟩

theorem Continues.trans {iNumUDPPorts : Nat} {a b c : System}
    (first : Continues iNumUDPPorts a b) (second : Continues iNumUDPPorts b c) :
    Continues iNumUDPPorts a c := by
  obtain ⟨es, quiet, run, same⟩ := first
  obtain ⟨es', quiet', run', same'⟩ := second
  refine ⟨es ++ es', ?_, TraceMachine.run_trans _ run run', same'.trans same⟩
  intro e he
  rcases List.mem_append.mp he with he | he
  · exact quiet e he
  · exact quiet' e he

theorem Continues.single {iNumUDPPorts : Nat} {sys sys' : System} {e : Event}
    (quiet : ∀ line, e ≠ .command line) (h : step iNumUDPPorts sys e = some sys')
    (same : sys'.requests = sys.requests) : Continues iNumUDPPorts sys sys' := by
  refine ⟨[e], ?_, (TraceMachine.run_cons _).mpr ⟨sys', h, rfl⟩, same⟩
  intro e' he
  rw [List.mem_singleton.mp he]
  exact quiet

/-- Another server in the place of the present one. -/
abbrev System.withServer (sys : System) (server : Server) : System :=
  { sys with server := server }

/-- The server gets to `recv` while everything else stays as it is. -/
def Settles (iNumUDPPorts : Nat) (sys : System) : Prop :=
  ∃ server, Continues iNumUDPPorts sys (sys.withServer server) ∧ server.pc = .receiving

/-- One statement of a server that owes no reply. -/
theorem settles_of_act {iNumUDPPorts : Nat} {sys : System} {server : Server}
    (silent : serverSends sys.server = []) (h : act iNumUDPPorts sys.server = some server)
    (rest : Settles iNumUDPPorts (sys.withServer server)) : Settles iNumUDPPorts sys := by
  have hstep : RtspServer.step iNumUDPPorts sys.server .act = some server := h
  have first : step iNumUDPPorts sys .serverAct = some (sys.withServer server) := by
    simp only [step, hstep, silent, List.append_nil, Option.map_some]
  obtain ⟨last, continues, receiving⟩ := rest
  have one : Continues iNumUDPPorts sys (sys.withServer server) :=
    .single (fun line => Event.noConfusion) first rfl
  exact ⟨last, one.trans continues, receiving⟩

theorem settles_of_receiving {iNumUDPPorts : Nat} {sys : System}
    (pc : sys.server.pc = .receiving) : Settles iNumUDPPorts sys :=
  ⟨sys.server, Continues.refl iNumUDPPorts sys, pc⟩

theorem settles_of_assigningReady {iNumUDPPorts : Nat} {sys : System}
    (pc : sys.server.pc = .assigningReady) : Settles iNumUDPPorts sys := by
  have silent : serverSends sys.server = [] := by simp only [serverSends, pc]
  have assigns : act iNumUDPPorts sys.server =
      some { sys.server with iRTSPState := .ready, pc := .receiving } := by simp only [act, pc]
  exact settles_of_act silent assigns (settles_of_receiving rfl)

theorem settles_of_clearingSlp {iNumUDPPorts : Nat} {sys : System}
    (pc : sys.server.pc = .clearingSlp) : Settles iNumUDPPorts sys := by
  have silent : serverSends sys.server = [] := by simp only [serverSends, pc]
  have clears : act iNumUDPPorts sys.server =
      some { sys.server with slp := false, pc := .receiving } := by simp only [act, pc]
  exact settles_of_act silent clears (settles_of_receiving rfl)

theorem settles_of_assigningPlaying {iNumUDPPorts : Nat} {sys : System}
    (pc : sys.server.pc = .assigningPlaying) : Settles iNumUDPPorts sys := by
  have silent : serverSends sys.server = [] := by simp only [serverSends, pc]
  have assigns : act iNumUDPPorts sys.server =
      some { sys.server with iRTSPState := .playing, pc := .clearingSlp } := by
    simp only [act, pc]
  exact settles_of_act silent assigns (settles_of_clearingSlp rfl)

/-- Starting the workers ends with the assignment of READY. -/
theorem settles_of_starting {iNumUDPPorts : Nat} (left : Nat) {sys : System} {port : Nat}
    (pc : sys.server.pc = .starting port) (bound : iNumUDPPorts ≤ port + left) :
    Settles iNumUDPPorts sys := by
  induction left generalizing sys port with
  | zero =>
    have silent : serverSends sys.server = [] := by simp only [serverSends, pc]
    have done : ¬ port < iNumUDPPorts := Nat.not_lt.mpr bound
    have ends : act iNumUDPPorts sys.server = some { sys.server with pc := .assigningReady } := by
      simp only [act, pc, if_neg done]
    exact settles_of_act silent ends (settles_of_assigningReady rfl)
  | succ left ih =>
    by_cases more : port < iNumUDPPorts
    · have silent : serverSends sys.server = [] := by simp only [serverSends, pc]
      have starts : act iNumUDPPorts sys.server = some { sys.server with
          started := sys.server.started ++ [port], pc := .starting (port + 1) } := by
        simp only [act, pc, if_pos more]
      exact settles_of_act silent starts (ih rfl (by omega))
    · exact ih pc (by omega)

theorem settles (iNumUDPPorts : Nat) {sys : System} (settling : Settling sys.server) :
    Settles iNumUDPPorts sys := by
  cases pc : sys.server.pc with
  | accepting =>
    have accepts : step iNumUDPPorts sys .accept = some (sys.withServer
        { sys.server with iRTSPState := .init, pc := .receiving }) := by
      simp only [step, RtspServer.step, if_pos pc, Option.map_some]
    exact ⟨_, .single (fun line => Event.noConfusion) accepts rfl, rfl⟩
  | receiving => exact settles_of_receiving pc
  | replying request => exact absurd pc (settling.replied request)
  | starting port => exact settles_of_starting iNumUDPPorts pc (Nat.le_add_left _ _)
  | assigningReady => exact settles_of_assigningReady pc
  | assigningPlaying => exact settles_of_assigningPlaying pc
  | clearingSlp => exact settles_of_clearingSlp pc
  | stopped => exact absurd pc settling.running

/-- Nothing is in flight or pending on either side. -/
structure AtRest (sys : System) : Prop where
  toServer : sys.toServer = []
  toClient : sys.toClient = []
  client : sys.client.pc = .waiting ∨ sys.client.pc = .finished
  server : sys.server.pc = .receiving

def ComesToRest (iNumUDPPorts : Nat) (sys : System) : Prop :=
  ∃ sys', Continues iNumUDPPorts sys sys' ∧ AtRest sys'

theorem ComesToRest.after {iNumUDPPorts : Nat} {sys sys' : System}
    (continues : Continues iNumUDPPorts sys sys') (rest : ComesToRest iNumUDPPorts sys') :
    ComesToRest iNumUDPPorts sys := by
  obtain ⟨last, more, atRest⟩ := rest
  exact ⟨last, continues.trans more, atRest⟩

theorem rest_of_quiet {iNumUDPPorts : Nat} {sys : System}
    (pc : sys.client.pc = .waiting ∨ sys.client.pc = .finished) (toServer : sys.toServer = [])
    (toClient : sys.toClient = []) (settling : Settling sys.server) :
    ComesToRest iNumUDPPorts sys := by
  obtain ⟨server, continues, receiving⟩ := settles iNumUDPPorts settling
  exact ⟨_, continues, toServer, toClient, pc, receiving⟩

theorem rest_of_answered {iNumUDPPorts : Nat} {sys : System} {command : Command}
    (pc : sys.client.pc = .answered command) (toServer : sys.toServer = [])
    (toClient : sys.toClient = []) (settling : Settling sys.server) :
    ComesToRest iNumUDPPorts sys := by
  have concludes : ∃ client, conclude sys.client = some client := by
    simp only [conclude, pc]
    exact ⟨_, rfl⟩
  obtain ⟨client, concluded⟩ := concludes
  obtain ⟨_, _, done, _⟩ := conclude_cases concluded
  have assigns : step iNumUDPPorts sys .clientAssign = some { sys with client := client } := by
    simp only [step, concluded, Option.map_some]
  have rest : ComesToRest iNumUDPPorts { sys with client := client } :=
    rest_of_quiet done toServer toClient settling
  exact rest.after (.single (fun line => Event.noConfusion) assigns rfl)

theorem rest_of_replied {iNumUDPPorts : Nat} {sys : System} {command : Command}
    {session : ServerSession} (pc : sys.client.pc = .awaiting command)
    (toServer : sys.toServer = []) (toClient : sys.toClient = [(prepareRTSPResponse session).2])
    (settling : Settling sys.server) : ComesToRest iNumUDPPorts sys := by
  have reads : ∃ client, readReply sys.client (prepareRTSPResponse session).2 = some client := by
    simp only [readReply, pc, client_reads_response, Option.bind_eq_bind, Option.bind_some]
    exact ⟨_, rfl⟩
  obtain ⟨client, read⟩ := reads
  obtain ⟨answered, _⟩ := readReply_response pc read
  have delivers : step iNumUDPPorts sys .deliverReply = some { sys with
      client := client, toClient := [],
      answers := sys.answers ++ [(prepareRTSPResponse session).2] } := by
    simp only [step, toClient, read, Option.map_some]
  have rest : ComesToRest iNumUDPPorts { sys with
      client := client, toClient := [],
      answers := sys.answers ++ [(prepareRTSPResponse session).2] } :=
    rest_of_answered answered toServer rfl settling
  exact rest.after (.single (fun line => Event.noConfusion) delivers rfl)

theorem rest_of_taken {iNumUDPPorts : Nat} {sys : System} {command : Command}
    (pc : sys.client.pc = .awaiting command) (toServer : sys.toServer = [])
    (toClient : sys.toClient = []) (owes : sys.server.pc = .replying (requestType command)) :
    ComesToRest iNumUDPPorts sys := by
  have replies : ∃ server, RtspServer.step iNumUDPPorts sys.server .act = some server := by
    simp only [RtspServer.step, act, owes]
    exact ⟨_, rfl⟩
  obtain ⟨server, hstep⟩ := replies
  obtain ⟨settling, _, sends⟩ := owing_act owes hstep
  have acts : step iNumUDPPorts sys .serverAct = some { sys with
      server := server, toClient := [(prepareRTSPResponse sys.server.session).2] } := by
    simp only [step, hstep, toClient, sends, List.nil_append, Option.map_some]
  have rest : ComesToRest iNumUDPPorts { sys with
      server := server, toClient := [(prepareRTSPResponse sys.server.session).2] } :=
    rest_of_replied pc toServer rfl settling
  exact rest.after (.single (fun line => Event.noConfusion) acts rfl)

theorem rest_of_requested {iNumUDPPorts : Nat} {sys : System} {command : Command}
    {session : ClientSession} (pc : sys.client.pc = .awaiting command)
    (toServer : sys.toServer = [(prepareRTSPRequest session (requestName command)).2])
    (toClient : sys.toClient = []) (settling : Settling sys.server) :
    ComesToRest iNumUDPPorts sys := by
  obtain ⟨server, continues, receiving⟩ := settles iNumUDPPorts settling
  have reads : RtspServer.step iNumUDPPorts server
      (.received (prepareRTSPRequest session (requestName command)).2) = some { server with
        session := { server.session with rtspSeqNb := 0 },
        pc := .replying (requestType command) } := by
    simp only [RtspServer.step, if_pos receiving, receive, server_reads_request,
      Option.bind_eq_bind, Option.bind_some, Option.pure_def]
  have delivers : step iNumUDPPorts (sys.withServer server) .deliverRequest = some { sys with
      server := { server with
        session := { server.session with rtspSeqNb := 0 },
        pc := .replying (requestType command) },
      toServer := [] } := by
    simp only [step, toServer, reads, Option.map_some]
  have rest : ComesToRest iNumUDPPorts { sys with
      server := { server with
        session := { server.session with rtspSeqNb := 0 },
        pc := .replying (requestType command) },
      toServer := [] } := rest_of_taken pc rfl toClient rfl
  have one := rest.after (.single (fun line => Event.noConfusion) delivers rfl)
  exact one.after continues

/-- No exchange gets stuck. -/
theorem comes_to_rest (iNumUDPPorts : Nat) {sys : System} (stage : Stage sys) :
    ComesToRest iNumUDPPorts sys := by
  cases stage with
  | quiet pc toServer toClient settling => exact rest_of_quiet pc toServer toClient settling
  | requested command session pc toServer toClient settling =>
    exact rest_of_requested pc toServer toClient settling
  | taken command pc toServer toClient owes => exact rest_of_taken pc toServer toClient owes
  | replied command session pc toServer toClient settling =>
    exact rest_of_replied pc toServer toClient settling
  | answered command pc toServer toClient settling =>
    exact rest_of_answered pc toServer toClient settling

theorem Stage.in_flight {sys : System} (stage : Stage sys) :
    sys.toServer.length + sys.toClient.length ≤ 1 := by
  cases stage with
  | quiet _ toServer toClient => simp [toServer, toClient]
  | requested _ _ _ toServer toClient => simp [toServer, toClient]
  | taken _ _ toServer toClient => simp [toServer, toClient]
  | replied _ _ _ toServer toClient => simp [toServer, toClient]
  | answered _ _ toServer toClient => simp [toServer, toClient]

/-- Both sides agree when nothing is in flight and both wait. -/
theorem Stage.agree_at_rest {sys : System} (stage : Stage sys)
    (waiting : sys.client.pc = .waiting) (receiving : sys.server.pc = .receiving) :
    sys.client.iRTSPState = sys.server.iRTSPState := by
  cases stage with
  | quiet _ _ _ _ agree =>
    rw [← agree, effective, receiving]
  | requested _ _ pc | taken _ pc | replied _ _ pc | answered _ pc =>
    rw [waiting] at pc
    cases pc

theorem response_not_signal (s : ServerSession) :
    (prepareRTSPResponse s).2 ≠ "Signal Recieved".toList := by
  intro same
  have signal : parseServerResponse ⟨0, 0, 0⟩ "Signal Recieved".toList =
      some (⟨0, 0, 0⟩, 0) := by decide +kernel
  rw [← same, parse_prepared_response] at signal
  have code : (200 : Int32) = 0 := (Prod.mk.inj (Option.some.inj signal)).2
  exact absurd code (by decide)

/-- After any commands and any order of steps: at most one message is in flight, every
request has been or will be answered by one 200 response, and at rest both sides have
the same state. -/
theorem client_server_agreement (iNumUDPPorts : Nat) (server : Server)
    (accepting : server.pc = .accepting) (session : ClientSession) (events : List Event)
    (sys : System)
    (run : TraceMachine.run (step iNumUDPPorts) (connected server session) events = some sys) :
    sys.toServer.length + sys.toClient.length ≤ 1 ∧
    sys.answers.length + outstanding sys.client.pc = sys.requests.length ∧
    (∀ m ∈ sys.answers ++ sys.toClient,
      (∀ c, ∃ c', parseServerResponse c (cString m) = some (c', 200)) ∧
        m ≠ "Signal Recieved".toList) ∧
    (∃ sys', Continues iNumUDPPorts sys sys' ∧ AtRest sys' ∧
      sys'.answers.length = sys.requests.length) ∧
    (sys.toServer = [] → sys.toClient = [] → sys.client.pc = .waiting →
      sys.server.pc = .receiving → sys.client.iRTSPState = sys.server.iRTSPState) := by
  have inv := run_agreement (connected_agreement accepting session) run
  refine ⟨inv.stage.in_flight, inv.counted, ?_, ?_, ?_⟩
  · intro m hm
    obtain ⟨s, rfl⟩ := inv.replies m hm
    exact ⟨fun c => ⟨_, client_reads_response c s⟩, response_not_signal s⟩
  · obtain ⟨sys', continues, rest⟩ := comes_to_rest iNumUDPPorts inv.stage
    have ⟨more, _, run', same⟩ := continues
    have counted := (run_agreement inv run').counted
    refine ⟨sys', continues, rest, ?_⟩
    rcases rest.client with pc | pc
    · rw [pc, same] at counted
      exact counted
    · rw [pc, same] at counted
      exact counted
  · intro _ _ waiting receiving
    exact inv.stage.agree_at_rest waiting receiving

/-- A client that types its commands in lower case. -/
theorem setup_play_agreement :
    ∃ sys, TraceMachine.run (step 2) (connected start ⟨25000, 123456, 0⟩)
        [.command "setup".toList, .accept, .deliverRequest, .serverAct, .deliverReply,
          .clientAssign, .command "play".toList, .serverAct, .serverAct, .serverAct, .serverAct,
          .deliverRequest, .serverAct, .serverAct, .deliverReply, .clientAssign, .serverAct] =
        some sys ∧
      sys.server.iRTSPState = .playing ∧ sys.client.iRTSPState = sys.server.iRTSPState := by
  have reached : (TraceMachine.run (step 2) (connected start ⟨25000, 123456, 0⟩)
      [.command "setup".toList, .accept, .deliverRequest, .serverAct, .deliverReply,
        .clientAssign, .command "play".toList, .serverAct, .serverAct, .serverAct, .serverAct,
        .deliverRequest, .serverAct, .serverAct, .deliverReply, .clientAssign, .serverAct]).any
        (fun sys => sys.toServer = [] ∧ sys.toClient = [] ∧ sys.client.pc = .waiting ∧
          sys.server.pc = .receiving ∧ sys.server.iRTSPState = .playing) = true := by
    decide +kernel
  obtain ⟨sys, run, facts⟩ := (Option.any_eq_true _ _).mp reached
  obtain ⟨toServer, toClient, waiting, receiving, playing⟩ := of_decide_eq_true facts
  obtain ⟨_, _, _, _, agree⟩ :=
    client_server_agreement 2 start rfl ⟨25000, 123456, 0⟩ _ sys run
  exact ⟨sys, run, playing, agree toServer toClient waiting receiving⟩

end RtspAgreement
