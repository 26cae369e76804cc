import UnvStream.TcpSocket

/-!
# The host that `Socket::connect` reaches

`connect` does not look at what `inet_pton` returned but at `errno`, which a valid or an
invalid host leaves as an earlier call has set it, and the address it connects to is the
one an earlier attempt has left when the host is invalid.
-/

namespace NamedHost

open TcpSocket

variable (inetPton : List Char → Option UInt32) (host : List Char) (port : Int32)

/-- `::connect` is called with the address of the host only, not at all without one, and
always with one. -/
structure ReachesNamed (s : Socket) (errno connectResult : Int) : Prop where
  named : ∀ address, (s.connect inetPton host port errno connectResult).reached = some address →
    inetPton (cStr host) = some address.sinAddr
  refused : inetPton (cStr host) = none →
    (s.connect inetPton host port errno connectResult).reached = none ∧
      (s.connect inetPton host port errno connectResult).connected = false
  tried : ∀ sinAddr, inetPton (cStr host) = some sinAddr → s.isValid = true →
    (s.connect inetPton host port errno connectResult).reached =
        some ⟨afInet, htons port, sinAddr⟩ ∧
      ((s.connect inetPton host port errno connectResult).connected = true ↔ connectResult = 0)

/-- `errno` says by chance whether the host is valid. -/
def ErrnoFits (s : Socket) (errno : Int) : Prop :=
  s.isValid = true → ((inetPton (cStr host)).isSome = true ↔ errno ≠ eafNoSupport)

/-- The same of the calls of `connect` in a run of the client. -/
def ConnectFits (p : Process) : Event → Prop
  | .connect errno _ => ∀ s, p.sockets .objTCPSocket = some s → ErrnoFits inetPton host s errno
  | _ => True

theorem connect_invalid {s : Socket} (invalid : s.isValid = false) (errno r : Int) :
    s.connect inetPton host port errno r = ⟨s, none, false⟩ := by
  rw [Socket.connect, invalid]
  rfl

theorem connect_unsupported {s : Socket} (valid : s.isValid = true) (r : Int) :
    s.connect inetPton host port eafNoSupport r =
      ⟨{ s with mAddr := s.addressed inetPton host port }, none, false⟩ := by
  rw [Socket.connect, valid]
  rfl

theorem connect_tried {s : Socket} (valid : s.isValid = true) {errno : Int}
    (other : errno ≠ eafNoSupport) (r : Int) :
    s.connect inetPton host port errno r =
      ⟨{ s with mAddr := s.addressed inetPton host port }, some (s.addressed inetPton host port),
        decide (r = 0)⟩ := by
  rw [Socket.connect, valid]
  exact if_neg other

theorem addressed_named {sinAddr : UInt32} (named : inetPton (cStr host) = some sinAddr)
    (s : Socket) : s.addressed inetPton host port = ⟨afInet, htons port, sinAddr⟩ := by
  rw [Socket.addressed, named]
  rfl

/-- A call that fails is right where there is no descriptor to connect or no named host. -/
theorem reaches_of_failed {s s' : Socket} {errno r : Int}
    (outcome : s.connect inetPton host port errno r = ⟨s', none, false⟩)
    (excused : s.isValid = true → inetPton (cStr host) = none) :
    ReachesNamed inetPton host port s errno r := by
  refine ⟨fun address reached => ?_, fun _ => ?_, fun sinAddr named valid => ?_⟩
  · rw [outcome] at reached
    cases reached
  · rw [outcome]
    exact ⟨rfl, rfl⟩
  · rw [excused valid] at named
    cases named

/-- A call of `connect` on a socket without a descriptor fails. -/
theorem reaches_of_invalid {s : Socket} (invalid : s.isValid = false) (errno r : Int) :
    ReachesNamed inetPton host port s errno r := by
  apply reaches_of_failed inetPton host port (connect_invalid inetPton host port invalid errno r)
  intro valid
  rw [invalid] at valid
  cases valid

theorem reaches_unsupported_iff {s : Socket} (valid : s.isValid = true) (r : Int) :
    ReachesNamed inetPton host port s eafNoSupport r ↔ inetPton (cStr host) = none := by
  have outcome := connect_unsupported inetPton host port valid r
  constructor
  · intro reaches
    cases named : inetPton (cStr host) with
    | none => rfl
    | some sinAddr =>
      have reached := (reaches.tried sinAddr named valid).1
      rw [outcome] at reached
      cases reached
  · intro unnamed
    exact reaches_of_failed inetPton host port outcome fun _ => unnamed

theorem reaches_supported_iff {s : Socket} (valid : s.isValid = true) {errno : Int}
    (other : errno ≠ eafNoSupport) (r : Int) :
    ReachesNamed inetPton host port s errno r ↔ (inetPton (cStr host)).isSome = true := by
  have outcome := connect_tried inetPton host port valid other r
  constructor
  · intro reaches
    cases named : inetPton (cStr host) with
    | some sinAddr => rfl
    | none =>
      have reached := (reaches.refused named).1
      rw [outcome] at reached
      cases reached
  · intro some_
    obtain ⟨sinAddr, named⟩ := Option.isSome_iff_exists.mp some_
    rw [addressed_named inetPton host port named s] at outcome
    refine ⟨fun address reached => ?_, fun unnamed => ?_, fun sinAddr' named' _ => ?_⟩
    · rw [outcome] at reached
      obtain rfl := Option.some.inj reached
      exact named
    · rw [named] at unnamed
      cases unnamed
    · obtain rfl := Option.some.inj (named.symm.trans named')
      rw [outcome]
      exact ⟨rfl, decide_eq_true_iff⟩

/-- A call of `connect` reaches the named host exactly if `errno` fits. -/
theorem reaches_iff_fits (s : Socket) (errno r : Int) :
    ReachesNamed inetPton host port s errno r ↔ ErrnoFits inetPton host s errno := by
  cases valid : s.isValid with
  | false =>
    constructor
    · intro _ open_
      rw [valid] at open_
      cases open_
    · intro _
      exact reaches_of_invalid inetPton host port valid errno r
  | true =>
    rw [ErrnoFits, valid]
    by_cases unsupported : errno = eafNoSupport
    · subst unsupported
      rw [reaches_unsupported_iff inetPton host port valid, ← Option.not_isSome_iff_eq_none]
      constructor
      · intro unnamed _
        exact iff_of_false unnamed (fun other => other rfl)
      · intro fits some_
        exact (fits rfl).mp some_ rfl
    · rw [reaches_supported_iff inetPton host port valid unsupported]
      constructor
      · intro some_ _
        exact iff_of_true some_ unsupported
      · intro fits
        exact (fits rfl).mpr unsupported

/-- The client is connected to the host it was given. -/
def ConnectedToNamed (p : Process) : Prop :=
  p.phase = .started → ∃ s, p.sockets .objTCPSocket = some s ∧
    inetPton (cStr host) = some s.mAddr.sinAddr

theorem connected_named {s : Socket} {errno r : Int} (fits : ErrnoFits inetPton host s errno)
    (connected : (s.connect inetPton host port errno r).connected = true) :
    inetPton (cStr host) =
      some (s.connect inetPton host port errno r).socket.mAddr.sinAddr := by
  cases valid : s.isValid with
  | false =>
    rw [connect_invalid inetPton host port valid] at connected
    cases connected
  | true =>
    by_cases unsupported : errno = eafNoSupport
    · subst unsupported
      rw [connect_unsupported inetPton host port valid] at connected
      cases connected
    · obtain ⟨sinAddr, named⟩ := Option.isSome_iff_exists.mp ((fits valid).mpr unsupported)
      rw [connect_tried inetPton host port valid unsupported, named,
        addressed_named inetPton host port named]

/-- Only `connect` leads to the started program, and with a fitting `errno` to the named host. -/
theorem connected_step {p p' : Process} {e : Event} (fits : ConnectFits inetPton host p e)
    (stepped : step (.client inetPton host port) p e = some p') :
    ConnectedToNamed inetPton host p' := by
  intro started
  cases e with
  | create r o =>
    obtain ⟨s, _, _, rfl | ⟨phase, unstarted, rfl⟩⟩ := createStep_cases stepped
    · exact absurd started (Program.caught_phase _ _)
    · exact absurd started unstarted
  | connect errno r =>
    obtain ⟨_, _, _, s, same, there, outcome⟩ := connectStep_cases stepped
    cases same
    rcases outcome with ⟨connected, rfl⟩ | rfl
    · exact ⟨_, p.write_same .objTCPSocket _,
        connected_named inetPton host port (fits s there) connected⟩
    · exact absurd started (Program.caught_phase _ _)
  | bind r => cases stepped
  | listen r =>
    rcases listenStep_cases stepped with rfl | rfl
    · cases started
    · exact absurd started (Program.caught_phase _ _)
  | accept r peer =>
    obtain ⟨s, newSocket, q, _, accepting, _, rfl, rfl | rfl⟩ := acceptStep_cases stepped
    · have phase : p.phase = .started := (p.obtained_fields r).2.symm.trans started
      exact absurd (accepting.symm.trans phase) (by decide)
    · exact absurd started (Program.caught_phase _ _)
  | exit =>
    obtain rfl := exitStep_cases stepped
    cases started

/-- Each call of `connect` reaches the named host exactly if `errno` fits, and a client all of
whose calls fit is connected to the named host when it has started. -/
theorem named_host_iff :
    (∀ (s : Socket) (errno r : Int),
      ReachesNamed inetPton host port s errno r ↔ ErrnoFits inetPton host s errno) ∧
    ∀ (es : List Event) (p : Process),
      TraceMachine.run (step (.client inetPton host port))
        (Program.client inetPton host port).start es = some p →
      TraceMachine.Along (step (.client inetPton host port)) (ConnectFits inetPton host)
        (Program.client inetPton host port).start es →
      ConnectedToNamed inetPton host p := by
  constructor
  · exact reaches_iff_fits inetPton host port
  · intro es p ran along
    have start : ConnectedToNamed inetPton host (Program.client inetPton host port).start := by
      intro started
      cases started
    exact TraceMachine.invariant_along (step (.client inetPton host port))
      (fun _ _ _ _ => connected_step inetPton host port) start along ran

/-- The client starts at once with the dotted address of its own machine. -/
theorem dotted_host_reached : ∃ p,
    TraceMachine.run (step (.client (fun _ => some 0x0100007f) "127.0.0.1".toList 8554))
      (Program.client (fun _ => some 0x0100007f) "127.0.0.1".toList 8554).start
      [.create 3 0, .connect 0 0] = some p ∧
    ConnectedToNamed (fun _ => some 0x0100007f) "127.0.0.1".toList p := by
  refine ⟨_, rfl, (named_host_iff (fun _ => some 0x0100007f) "127.0.0.1".toList 8554).2
    [.create 3 0, .connect 0 0] _ rfl ⟨trivial, fun p _ => ⟨fun s _ _ => ?_, fun _ _ => trivial⟩⟩⟩
  exact iff_of_true rfl (by decide)

/-- The client connects to its own machine by a name that is no address. -/
theorem unnamed_host_reached :
    ¬ ReachesNamed (fun _ => none) "server".toList 8554 ⟨3, ⟨0, 0, 0⟩⟩ 0 0 := by
  intro reaches
  cases (reaches.refused rfl).2

end NamedHost
