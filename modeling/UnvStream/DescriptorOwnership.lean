import UnvStream.TcpSocket
import UnvStream.ExclusiveOwnership

/-!
# Who closes a descriptor

The sockets of a program as the slots of a ledger of descriptors. A method that assigns
`m_sock` assigns a slot, a destructor releases one, and no other method touches them.
-/

namespace DescriptorOwnership

open TcpSocket ExclusiveOwnership

/-- The descriptor that a live socket holds. -/
def held (s : Socket) : Option Int := if s.isValid then some s.mSock else none

def ledger (p : Process) : Ledger Name Int := ⟨fun name => (p.sockets name).bind held, p.opened⟩

/-- Every descriptor that was returned and not closed is the `m_sock` of exactly one live
socket. -/
def DescriptorsOwned (p : Process) : Prop :=
  ∀ d ∈ p.opened, ∃! name, ∃ s, p.sockets name = some s ∧ s.isValid = true ∧ s.mSock = d

/-- The socket whose `m_sock` an operation assigns. -/
def assigned (program : Program) : Event → Option Name
  | .create .. => some program.starting
  | .accept .. => some .objTCPSocket
  | _ => none

/-- `m_sock` is assigned only where it holds no descriptor. -/
def Vacant (program : Program) (p : Process) (e : Event) : Prop :=
  ∀ name, assigned program e = some name →
    ∀ s, p.sockets name = some s → s.isValid = false

instance (program : Program) (p : Process) (e : Event) : Decidable (Vacant program p e) :=
  decidable_of_iff ((assigned program e).all fun name => (p.sockets name).all fun s => !s.isValid)
    (by
      rw [Option.all_eq_true]
      refine forall_congr' fun name => forall_congr' fun _ => ?_
      rw [Option.all_eq_true]
      exact forall_congr' fun s => forall_congr' fun _ => Bool.not_eq_true' s.isValid ▸ Iff.rfl)

theorem held_eq_some {s : Socket} {d : Int} : held s = some d ↔ s.isValid = true ∧ s.mSock = d := by
  rw [held]
  split
  · rename_i valid
    exact ⟨fun same => ⟨valid, Option.some.inj same⟩, fun same => congrArg some same.2⟩
  · rename_i invalid
    exact ⟨nofun, fun same => absurd same.1 invalid⟩

theorem held_eq_none {s : Socket} : held s = none ↔ s.isValid = false := by
  rw [held]
  split
  · rename_i valid
    exact ⟨nofun, fun invalid => by rw [valid] at invalid; cases invalid⟩
  · rename_i invalid
    exact ⟨fun _ => Bool.eq_false_iff.mpr invalid, fun _ => rfl⟩

theorem slot_eq_some {p : Process} {name : Name} {d : Int} :
    (ledger p).slot name = some d ↔
      ∃ s, p.sockets name = some s ∧ s.isValid = true ∧ s.mSock = d := by
  rw [ledger, Option.bind_eq_some_iff]
  exact exists_congr fun s => and_congr_right fun _ => held_eq_some

theorem slot_eq_none {p : Process} {name : Name} :
    (ledger p).slot name = none ↔ ∀ s, p.sockets name = some s → s.isValid = false := by
  rw [ledger, Option.bind_eq_none_iff]
  exact forall_congr' fun s => forall_congr' fun _ => held_eq_none

theorem owned_ledger (p : Process) : Owned (ledger p) ↔ DescriptorsOwned p := by
  simp only [Owned, DescriptorsOwned, slot_eq_some]
  rfl

theorem vacant_iff {program : Program} {p : Process} {e : Event} :
    Vacant program p e ↔ ∀ name, assigned program e = some name → (ledger p).slot name = none :=
  forall_congr' fun _ => forall_congr' fun _ => slot_eq_none.symm

theorem held_congr {s s' : Socket} (same : s'.mSock = s.mSock) : held s' = held s := by
  have valid : s'.isValid = s.isValid := congrArg (· != -1) same
  rw [held, held, valid, same]

theorem write_slot (p : Process) (name : Name) (s : Socket) :
    (ledger (p.write name s)).slot = Function.update (ledger p).slot name (held s) := by
  funext other
  by_cases here : other = name
  · subst here
    simp only [ledger, Process.write_same, Function.update_self, Option.bind_some]
  · simp only [ledger, Process.write_other here, Function.update_of_ne here]

theorem slot_of_sockets {p : Process} {name : Name} {o : Option Socket}
    (there : p.sockets name = o) : (ledger p).slot name = o.bind held :=
  congrArg (Option.bind · held) there

/-- A method that leaves `m_sock` alone. -/
theorem ledger_write {p : Process} {name : Name} {s s' : Socket} (there : p.sockets name = some s)
    (same : s'.mSock = s.mSock) : ledger (p.write name s') = ledger p := by
  have before : (ledger p).slot name = held s' :=
    (slot_of_sockets there).trans (held_congr same).symm
  refine Ledger.ext ?_ rfl
  rw [write_slot, ← before, Function.update_eq_self]

/-- A method that stores a result of the system in `m_sock`. -/
theorem ledger_assign (p : Process) (name : Name) {s : Socket} {result : Int}
    (stored : s.mSock = result) :
    ledger ((p.obtained result).write name s) = (ledger p).assign name (held s) := by
  have opened : (p.obtained result).opened = (held s).toList ++ p.opened := by
    by_cases failed : result = -1
    · have empty : held s = none := held_eq_none.mpr (by rw [Socket.isValid, stored, failed]; rfl)
      rw [Process.obtained, if_pos failed, empty]
      rfl
    · have full : held s = some result :=
        held_eq_some.mpr ⟨by rw [Socket.isValid, stored]; exact bne_iff_ne.mpr failed, stored⟩
      rw [Process.obtained, if_neg failed, full]
      rfl
  refine Ledger.ext ?_ opened
  rw [write_slot]
  simp only [ledger, (p.obtained_fields result).1, Ledger.assign]

theorem ledger_destroy (p : Process) (name : Name) :
    ledger (p.destroy name) = (ledger p).release name := by
  cases there : p.sockets name with
  | none =>
    have empty : (ledger p).slot name = none := slot_of_sockets there
    rw [Process.destroy, there]
    refine Ledger.ext ?_ ?_
    · rw [Ledger.release, ← empty, Function.update_eq_self]
    · rw [Ledger.release, empty]
      exact (List.filter_eq_self.mpr fun d _ => rfl).symm
  | some s =>
    have slot : (ledger p).slot name = held s := slot_of_sockets there
    rw [Process.destroy, there]
    refine Ledger.ext ?_ ?_
    · funext other
      by_cases here : other = name
      · subst here
        simp only [ledger, Ledger.release, Function.update_self, Option.bind_none]
      · simp only [ledger, Ledger.release, Function.update_of_ne here]
    · rw [Ledger.release, slot, held]
      dsimp only
      split
      · exact List.filter_congr fun d _ => decide_eq_decide.mpr
          ⟨fun other same => other (Option.some.inj same).symm,
            fun other same => other (congrArg some same.symm)⟩
      · exact (List.filter_eq_self.mpr fun d _ => rfl).symm

theorem fresh_held {p : Process} {s : Socket} {result : Int} (stored : s.mSock = result)
    (fresh : p.Fresh result) : ∀ d, held s = some d → d ∉ (ledger p).opened := by
  intro d holds
  obtain ⟨valid, rfl⟩ := held_eq_some.mp holds
  rcases fresh with failed | ⟨_, closed⟩
  · rw [Socket.isValid, stored, failed] at valid
    cases valid
  · exact stored ▸ closed

/-- An exception destroys a socket of the server and none of the client. -/
theorem change_caught {program : Program} {l : Ledger Name Int} {o : Option Name} {p : Process}
    (change : Change l o (ledger p)) : Change l o (ledger (program.caught p)) := by
  cases program with
  | client inetPton host port => exact change
  | server port =>
    have destroyed : ledger ((Program.server port).caught p) =
        (ledger p).release .objInitTCPSocket := ledger_destroy p .objInitTCPSocket
    exact destroyed ▸ change.release .objInitTCPSocket

theorem create_mSock (s : Socket) (socketResult setsockoptResult : Int) :
    (s.create socketResult setsockoptResult).1.mSock = socketResult := by
  rw [Socket.create]
  split
  · rfl
  split <;> rfl

theorem bind_mSock (s : Socket) (port : Int32) (bindResult : Int) :
    (s.bind port bindResult).1.mSock = s.mSock := by
  rw [Socket.bind]
  split
  · rfl
  split <;> rfl

theorem accept_mSock (s newSocket : Socket) (acceptResult : Int) (peer : Address) :
    (s.accept newSocket acceptResult peer).1.mSock = s.mSock ∧
      (s.accept newSocket acceptResult peer).2.1.mSock = acceptResult := by
  simp only [Socket.accept]
  constructor <;> split <;> split <;> rfl

theorem connect_mSock (inetPton : List Char → Option UInt32) (s : Socket) (host : List Char)
    (port : Int32) (errno connectResult : Int) :
    (s.connect inetPton host port errno connectResult).socket.mSock = s.mSock := by
  rw [Socket.connect]
  split
  · rfl
  dsimp only
  split <;> rfl

theorem createStep_change {program : Program} {p p' : Process} {r o : Int}
    (stepped : createStep program p r o = some p') :
    Change (ledger p) (some program.starting) (ledger p') := by
  obtain ⟨s, _, fresh, outcome⟩ := createStep_cases stepped
  have stored := create_mSock s r o
  have change : Change (ledger p) (some program.starting)
      (ledger ((p.obtained r).write program.starting (s.create r o).1)) :=
    ledger_assign p program.starting stored ▸ Change.assign _ _ (fresh_held stored fresh)
  rcases outcome with rfl | ⟨phase, _, rfl⟩
  · exact change_caught change
  · exact change

theorem connectStep_change {program : Program} {p p' : Process} {errno r : Int}
    (stepped : connectStep program p errno r = some p') :
    Change (ledger p) none (ledger p') := by
  obtain ⟨inetPton, host, port, s, _, there, outcome⟩ := connectStep_cases stepped
  have change : Change (ledger p) none
      (ledger (p.write program.starting (s.connect inetPton host port errno r).socket)) :=
    ledger_write there (connect_mSock inetPton s host port errno r) ▸ Change.keep
  rcases outcome with ⟨_, rfl⟩ | rfl
  · exact change
  · exact change_caught change

theorem bindStep_change {program : Program} {p p' : Process} {r : Int}
    (stepped : bindStep program p r = some p') : Change (ledger p) none (ledger p') := by
  obtain ⟨port, s, _, there, outcome⟩ := bindStep_cases stepped
  have change : Change (ledger p) none (ledger (p.write program.starting (s.bind port r).1)) :=
    ledger_write there (bind_mSock s port r) ▸ Change.keep
  rcases outcome with rfl | rfl
  · exact change
  · exact change_caught change

theorem listenStep_change {program : Program} {p p' : Process} {r : Int}
    (stepped : listenStep program p r = some p') : Change (ledger p) none (ledger p') := by
  rcases listenStep_cases stepped with rfl | rfl
  · exact Change.keep
  · exact change_caught Change.keep

/-- The address of the peer goes to one socket, the descriptor to the other. -/
theorem ledger_accept {p : Process} {s s' newSocket : Socket} {r : Int}
    (there : p.sockets .objInitTCPSocket = some s) (same : s'.mSock = s.mSock)
    (stored : newSocket.mSock = r) :
    ledger (((p.obtained r).write .objInitTCPSocket s').write .objTCPSocket newSocket) =
      (ledger p).assign .objTCPSocket (held newSocket) := by
  have swapped : ((p.obtained r).write .objInitTCPSocket s').write .objTCPSocket newSocket =
      ((p.obtained r).write .objTCPSocket newSocket).write .objInitTCPSocket s' :=
    congrArg (fun sockets => { p.obtained r with sockets := sockets })
      (Function.update_comm (by decide : Name.objInitTCPSocket ≠ .objTCPSocket) _ _ _)
  have untouched : ((p.obtained r).write .objTCPSocket newSocket).sockets .objInitTCPSocket =
      some s := by
    rw [Process.write_other (by decide), (p.obtained_fields r).1, there]
  rw [swapped, ledger_write untouched same, ledger_assign p _ stored]

theorem acceptStep_change {program : Program} {p p' : Process} {r : Int} {peer : Address}
    (stepped : acceptStep program p r peer = some p') :
    Change (ledger p) (some .objTCPSocket) (ledger p') := by
  obtain ⟨s, newSocket, q, there, _, fresh, accepted, outcome⟩ := acceptStep_cases stepped
  obtain ⟨same, stored⟩ := accept_mSock s newSocket r peer
  have change : Change (ledger p) (some .objTCPSocket) (ledger q) := by
    rw [accepted, ledger_accept there same stored]
    exact Change.assign _ _ (fresh_held stored fresh)
  rcases outcome with rfl | rfl
  · exact change
  · exact change_caught change

theorem exitStep_change {p p' : Process} (stepped : exitStep p = some p') :
    Change (ledger p) none (ledger p') := by
  obtain rfl := exitStep_cases stepped
  have destroyed : ledger { p.destroy .objTCPSocket with phase := .exited } =
      (ledger p).release .objTCPSocket := ledger_destroy p .objTCPSocket
  exact destroyed ▸ Change.release Name.objTCPSocket Change.keep

theorem step_change {program : Program} {p p' : Process} {e : Event}
    (stepped : step program p e = some p') :
    Change (ledger p) (assigned program e) (ledger p') := by
  cases e with
  | create r o => exact createStep_change stepped
  | connect errno r => exact connectStep_change stepped
  | bind r => exact bindStep_change stepped
  | listen r => exact listenStep_change stepped
  | accept r peer => exact acceptStep_change stepped
  | exit => exact exitStep_change stepped

theorem start_sound (program : Program) : Sound (ledger program.start) ∧
    Owned (ledger program.start) := by
  have empty : ∀ name, (ledger program.start).slot name = none := by
    intro name
    cases program <;> cases name <;> rfl
  have none_opened : (ledger program.start).opened = [] := by
    cases program <;> rfl
  refine ⟨⟨fun name d holds => ?_, fun name name' d holds => ?_⟩, fun d open_ => ?_⟩
  · rw [empty] at holds
    cases holds
  · rw [empty] at holds
    cases holds
  · rw [none_opened] at open_
    cases open_

/-- A run of either program loses no descriptor exactly if it assigns `m_sock` only where it
holds none. -/
theorem owned_iff_vacant (program : Program) (es : List Event) (p : Process)
    (ran : TraceMachine.run (step program) program.start es = some p) :
    DescriptorsOwned p ↔
      TraceMachine.Along (step program) (Vacant program) program.start es := by
  obtain ⟨sound, owned⟩ := start_sound program
  have exact_step (p : Process) (e : Event) (p' : Process) (start : Sound (ledger p))
      (stepped : step program p e = some p') :
      DescriptorsOwned p' ↔ DescriptorsOwned p ∧ Vacant program p e := by
    rw [← owned_ledger, ← owned_ledger, vacant_iff]
    exact (step_change stepped).owned_iff start
  have sound_step (p : Process) (e : Event) (p' : Process) (start : Sound (ledger p))
      (stepped : step program p e = some p') : Sound (ledger p') :=
    (step_change stepped).sound start
  rw [TraceMachine.kept_iff_along (step program) sound_step exact_step sound ran]
  exact and_iff_right ((owned_ledger _).mp owned)

/-- A server that is left after its first connection. -/
theorem one_connection_owned : ∃ p,
    TraceMachine.run (step (.server 8554)) (Program.server 8554).start
      [.create 3 0, .bind 0, .listen 0, .accept 4 ⟨2, 0, 1⟩, .exit] = some p ∧
    DescriptorsOwned p :=
  ⟨_, rfl, (owned_iff_vacant (.server 8554)
    [.create 3 0, .bind 0, .listen 0, .accept 4 ⟨2, 0, 1⟩, .exit] _ rfl).mpr (by decide)⟩

/-- The client's first connection is refused and it starts again. -/
theorem retry_loses_descriptor : ∃ p,
    TraceMachine.run (step (.client (fun _ => some 0x0100007f) "127.0.0.1".toList 8554))
      (Program.client (fun _ => some 0x0100007f) "127.0.0.1".toList 8554).start
      [.create 3 0, .connect 0 (-1), .create 4 0] = some p ∧
    3 ∈ p.opened ∧ ¬ DescriptorsOwned p := by
  refine ⟨_, rfl, by decide, fun owned => ?_⟩
  obtain ⟨name, ⟨s, there, _, descriptor⟩, _⟩ := owned 3 (by decide)
  cases name with
  | objInitTCPSocket => cases there
  | objTCPSocket =>
    obtain rfl := Option.some.inj there
    cases descriptor

end DescriptorOwnership
