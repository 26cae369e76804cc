import UnvStream.RtspServer
import UnvStream.SocketTable
import Mathlib.Data.List.Nodup
import Mathlib.Data.List.Perm.Subperm
import Mathlib.Logic.Function.Basic

/-!
# The media ports of the server process

Every SETUP of any client starts one more worker for each port, and the sockets that earlier
workers have bound stay bound. The workers share the array of the sockets and the addresses of
the clients, and a worker whose call fails ends the process.
-/

namespace MediaPorts

open Vocabulary RtspServer SocketTable ListEdits

/-- The ports from `iSetUDP` on, which are port numbers. -/
structure PortRange where
  iSetUDP : Nat
  iNumUDPPorts : Nat
  positive : 0 < iSetUDP
  inRange : iSetUDP + iNumUDPPorts ≤ 2 ^ 16

/-- `setupUDPUDP` and `setupUDPTCP` between their calls: before `socket`, `bind`, the call behind
it and `accept`, inside `recvfrom` or `accept` on a socket, and before and after `recv`. -/
inductive WorkerPc where
  | created
  | opened
  | bound
  | listening
  | waiting (d : Nat)
  | accepted
  | done
  deriving DecidableEq

structure Worker where
  iPortNum : Nat
  pc : WorkerPc
  deriving DecidableEq

/-- The server process with all its workers, in the order of their start, and the peers that
`recvfrom` and `accept` have returned, by the port of the worker. -/
structure Process (Peer : Type) where
  server : Server
  workers : List Worker
  sockets : Table
  iUDPSock : Nat → Option Nat
  structUDPClient : Nat → Option Peer
  acc : Option Peer
  returned : List (Nat × Peer)
  exited : Bool

/-- A step of the RTSP thread, the next call of a worker, a message or a connection of a peer for
the socket a worker waits on, or a call of a worker that fails. -/
inductive Event (Peer : Type) where
  | rtsp (e : RtspServer.Event)
  | call (k free : Nat)
  | message (k : Nat) (peer : Peer)
  | fails (k : Nat)

variable {Peer : Type}

def start : Process Peer where
  server := RtspServer.start
  workers := []
  sockets := []
  iUDPSock := fun _ => none
  structUDPClient := fun _ => none
  acc := none
  returned := []
  exited := false

def moved (st : Process Peer) (k : Nat) (w : Worker) (pc : WorkerPc) : Process Peer :=
  { st with workers := st.workers.set k ⟨w.iPortNum, pc⟩ }

/-- The workers that a step of the RTSP thread has started. -/
def started (server server' : Server) : List Worker :=
  (server'.started.drop server.started.length).map fun iPortNum => ⟨iPortNum, .created⟩

/-- Only `setupUDPTCP` sets SO_REUSEADDR. -/
def reuses (tlayer : Transport) : Bool := tlayer = .useTCP

/-- The next call of a worker, which reads `iUDP_Sock` anew. -/
def call (tlayer : Transport) (r : PortRange) (st : Process Peer) (k free : Nat) :
    Option (Process Peer) := do
  let w ← st.workers[k]?
  match w.pc, tlayer with
  | .created, _ => return { moved st k w .opened with
      sockets := create st.sockets
      iUDPSock := Function.update st.iUDPSock w.iPortNum (some st.sockets.length) }
  | .opened, _ =>
    let d ← st.iUDPSock w.iPortNum
    let sockets ← bind (reuses tlayer) st.sockets d (r.iSetUDP + w.iPortNum)
    return { moved st k w .bound with sockets := sockets }
  | .bound, .useTCP =>
    let d ← st.iUDPSock w.iPortNum
    let sockets ← listen st.sockets d free
    return { moved st k w .listening with sockets := sockets }
  | .bound, .useUDP | .listening, _ =>
    let d ← st.iUDPSock w.iPortNum
    return moved st k w (.waiting d)
  | .accepted, _ => return moved st k w .done
  | .waiting _, _ | .done, _ => none

/-- Datagrams reach bound sockets, connections listening ones. -/
def message (tlayer : Transport) (st : Process Peer) (k : Nat) (peer : Peer) :
    Option (Process Peer) := do
  let w ← st.workers[k]?
  match w.pc, tlayer with
  | .waiting d, .useUDP =>
    let s ← st.sockets[d]?
    if s.port.isSome then
      return { moved st k w .done with
        structUDPClient := Function.update st.structUDPClient w.iPortNum (some peer)
        returned := st.returned ++ [(w.iPortNum, peer)] }
    else none
  | .waiting d, .useTCP =>
    let s ← st.sockets[d]?
    if s.listening then
      return { moved st k w .accepted with
        acc := some peer
        returned := st.returned ++ [(w.iPortNum, peer)] }
    else none
  | _, _ => none

def step (tlayer : Transport) (r : PortRange) (st : Process Peer) (e : Event Peer) :
    Option (Process Peer) :=
  if st.exited then none
  else
    match e with
    | .rtsp e => (RtspServer.step r.iNumUDPPorts st.server e).map fun server =>
        { st with server := server, workers := st.workers ++ started st.server server }
    | .call k free => call tlayer r st k free
    | .message k peer => message tlayer st k peer
    | .fails k =>
      match st.workers[k]? with
      | some w => if w.pc = .done then none else some { st with exited := true }
      | none => none

/-- The workers of a port that are somewhere. -/
def count (there : WorkerPc → Bool) (workers : List Worker) (iPortNum : Nat) : Nat :=
  workers.countP fun w => w.iPortNum == iPortNum && there w.pc

def pastBind : WorkerPc → Bool
  | .created | .opened => false
  | .bound | .listening | .waiting _ | .accepted | .done => true

/-- A peer has been returned to the worker. -/
def served : WorkerPc → Bool
  | .accepted | .done => true
  | .created | .opened | .bound | .listening | .waiting _ => false

/-- The socket of the worker does not listen yet. -/
def unsettled : WorkerPc → Bool
  | .created | .opened | .bound => true
  | .listening | .waiting _ | .accepted | .done => false

/-- The workers that an event starts. -/
def startedBy (r : PortRange) (st : Process Peer) : Event Peer → List Worker
  | .rtsp e =>
    match RtspServer.step r.iNumUDPPorts st.server e with
    | some server => started st.server server
    | none => []
  | .call _ _ | .message _ _ | .fails _ => []

/-- Over TCP a worker is started for a port only when the sockets of the earlier workers of that
port listen. -/
def Unhurried (tlayer : Transport) (r : PortRange) (st : Process Peer) (e : Event Peer) : Prop :=
  tlayer = .useTCP → ∀ w ∈ startedBy r st e, count unsettled st.workers w.iPortNum = 0

instance (tlayer : Transport) (r : PortRange) (st : Process Peer) (e : Event Peer) :
    Decidable (Unhurried tlayer r st e) :=
  inferInstanceAs (Decidable (_ → _))

private def setupRequest : RtspServer.Event := .received "SETUP 1\nCSeq\nSession".toList

/-- A client sends SETUP, and the server starts two workers. -/
private def firstSetup : List (Event Nat) :=
  [.accepted, setupRequest, .act, .act, .act, .act, .act].map .rtsp

private def secondSetup : List (Event Nat) :=
  [setupRequest, .act, .act, .act, .act, .act].map .rtsp

private def mediaRange : PortRange := ⟨8005, 2, by decide, by decide⟩

-- Two workers of one port that are started before either listens both accept.
example : (TraceMachine.run (step .useTCP mediaRange) start (firstSetup ++
    [.call 0 0, .call 0 0] ++ secondSetup ++ [.call 2 0, .call 2 0, .call 0 0, .call 0 0,
      .call 2 0, .call 2 0, .message 0 7, .message 2 8])).map Process.returned =
    some [(0, 7), (0, 8)] := rfl

/-- All that an event can do, with what it finds. -/
inductive Stepped (tlayer : Transport) (r : PortRange) (st : Process Peer) :
    Event Peer → Process Peer → Prop where
  | rtsp (e : RtspServer.Event) (server : Server)
      (thread : RtspServer.step r.iNumUDPPorts st.server e = some server) :
      Stepped tlayer r st (.rtsp e)
        { st with server := server, workers := st.workers ++ started st.server server }
  | socket (k free : Nat) (w : Worker) (here : st.workers[k]? = some w) (pc : w.pc = .created) :
      Stepped tlayer r st (.call k free) { moved st k w .opened with
        sockets := create st.sockets
        iUDPSock := Function.update st.iUDPSock w.iPortNum (some st.sockets.length) }
  | bind (k free d : Nat) (w : Worker) (sockets : Table) (here : st.workers[k]? = some w)
      (pc : w.pc = .opened) (own : st.iUDPSock w.iPortNum = some d)
      (bound : bind (reuses tlayer) st.sockets d (r.iSetUDP + w.iPortNum) = some sockets) :
      Stepped tlayer r st (.call k free) { moved st k w .bound with sockets := sockets }
  | listen (k free d : Nat) (w : Worker) (sockets : Table) (here : st.workers[k]? = some w)
      (pc : w.pc = .bound) (tcp : tlayer = .useTCP) (own : st.iUDPSock w.iPortNum = some d)
      (listened : listen st.sockets d free = some sockets) :
      Stepped tlayer r st (.call k free) { moved st k w .listening with sockets := sockets }
  | blocks (k free d : Nat) (w : Worker) (here : st.workers[k]? = some w)
      (pc : w.pc = .bound ∧ tlayer = .useUDP ∨ w.pc = .listening) :
      Stepped tlayer r st (.call k free) (moved st k w (.waiting d))
  | reads (k free : Nat) (w : Worker) (here : st.workers[k]? = some w) (pc : w.pc = .accepted) :
      Stepped tlayer r st (.call k free) (moved st k w .done)
  | datagram (k d : Nat) (peer : Peer) (w : Worker) (here : st.workers[k]? = some w)
      (pc : w.pc = .waiting d) (udp : tlayer = .useUDP) :
      Stepped tlayer r st (.message k peer) { moved st k w .done with
        structUDPClient := Function.update st.structUDPClient w.iPortNum (some peer)
        returned := st.returned ++ [(w.iPortNum, peer)] }
  | connection (k d : Nat) (peer : Peer) (w : Worker) (here : st.workers[k]? = some w)
      (pc : w.pc = .waiting d) (tcp : tlayer = .useTCP) :
      Stepped tlayer r st (.message k peer) { moved st k w .accepted with
        acc := some peer
        returned := st.returned ++ [(w.iPortNum, peer)] }
  | died (k : Nat) : Stepped tlayer r st (.fails k) { st with exited := true }

theorem stepped_of_call {tlayer : Transport} {r : PortRange} {st st' : Process Peer} {k free : Nat}
    (h : call tlayer r st k free = some st') : Stepped tlayer r st (.call k free) st' := by
  obtain ⟨w, here, rest⟩ := Option.bind_eq_some_iff.mp h
  cases pc : w.pc with
  | created =>
    simp only [pc] at rest
    cases rest
    exact .socket k free w here pc
  | opened =>
    simp only [pc] at rest
    obtain ⟨d, own, rest⟩ := Option.bind_eq_some_iff.mp rest
    obtain ⟨sockets, bound, rest⟩ := Option.bind_eq_some_iff.mp rest
    cases rest
    exact .bind k free d w sockets here pc own bound
  | bound =>
    cases tlayer with
    | useTCP =>
      simp only [pc] at rest
      obtain ⟨d, own, rest⟩ := Option.bind_eq_some_iff.mp rest
      obtain ⟨sockets, listened, rest⟩ := Option.bind_eq_some_iff.mp rest
      cases rest
      exact .listen k free d w sockets here pc rfl own listened
    | useUDP =>
      simp only [pc] at rest
      obtain ⟨d, _, rest⟩ := Option.bind_eq_some_iff.mp rest
      cases rest
      exact .blocks k free d w here (Or.inl ⟨pc, rfl⟩)
  | listening =>
    simp only [pc] at rest
    obtain ⟨d, _, rest⟩ := Option.bind_eq_some_iff.mp rest
    cases rest
    exact .blocks k free d w here (Or.inr pc)
  | accepted =>
    simp only [pc] at rest
    cases rest
    exact .reads k free w here pc
  | waiting | done =>
    simp only [pc] at rest
    cases rest

theorem stepped_of_message {tlayer : Transport} {r : PortRange} {st st' : Process Peer} {k : Nat}
    {peer : Peer} (h : message tlayer st k peer = some st') :
    Stepped tlayer r st (.message k peer) st' := by
  obtain ⟨w, here, rest⟩ := Option.bind_eq_some_iff.mp h
  cases pc : w.pc with
  | waiting d =>
    cases tlayer with
    | useUDP =>
      simp only [pc] at rest
      obtain ⟨s, _, rest⟩ := Option.bind_eq_some_iff.mp rest
      obtain ⟨_, result⟩ := of_guarded rest
      cases result
      exact .datagram k d peer w here pc rfl
    | useTCP =>
      simp only [pc] at rest
      obtain ⟨s, _, rest⟩ := Option.bind_eq_some_iff.mp rest
      obtain ⟨_, result⟩ := of_guarded rest
      cases result
      exact .connection k d peer w here pc rfl
  | created | opened | bound | listening | accepted | done =>
    simp only [pc] at rest
    cases rest

theorem stepped_of_step {tlayer : Transport} {r : PortRange} {st st' : Process Peer}
    {e : Event Peer} (h : step tlayer r st e = some st') : Stepped tlayer r st e st' := by
  unfold step at h
  split at h
  · cases h
  cases e with
  | rtsp e =>
    obtain ⟨server, thread, rfl⟩ := Option.map_eq_some_iff.mp h
    exact .rtsp e server thread
  | call k free => exact stepped_of_call h
  | message k peer => exact stepped_of_message h
  | fails k =>
    simp only at h
    split at h
    · split at h
      · cases h
      · cases h
        exact .died k
    · cases h

/-- What the step of one worker does to a count. -/
theorem count_set {there : WorkerPc → Bool} {workers : List Worker} {k : Nat} {w : Worker}
    (here : workers[k]? = some w) (pc : WorkerPc) (i : Nat) :
    count there (workers.set k ⟨w.iPortNum, pc⟩) i +
        (if w.iPortNum = i ∧ there w.pc = true then 1 else 0) =
      count there workers i + (if w.iPortNum = i ∧ there pc = true then 1 else 0) := by
  have counted := ListEdits.countP_set (p := fun w : Worker => w.iPortNum == i && there w.pc) here
    ⟨w.iPortNum, pc⟩
  simpa only [count, Bool.and_eq_true, beq_iff_eq] using counted

theorem count_keep {there : WorkerPc → Bool} {workers : List Worker} {k : Nat} {w : Worker}
    (here : workers[k]? = some w) {pc : WorkerPc} (same : there pc = there w.pc) (i : Nat) :
    count there (workers.set k ⟨w.iPortNum, pc⟩) i = count there workers i := by
  have counted := @count_set there workers k w here pc i
  rw [same] at counted
  exact Nat.add_right_cancel counted

theorem count_enter {there : WorkerPc → Bool} {workers : List Worker} {k : Nat} {w : Worker}
    (here : workers[k]? = some w) {pc : WorkerPc} (outside : there w.pc = false)
    (inside : there pc = true) (i : Nat) :
    count there (workers.set k ⟨w.iPortNum, pc⟩) i =
      count there workers i + if w.iPortNum = i then 1 else 0 := by
  have counted := @count_set there workers k w here pc i
  rw [outside, inside] at counted
  simpa using counted

theorem count_append (there : WorkerPc → Bool) (workers later : List Worker) (i : Nat) :
    count there (workers ++ later) i = count there workers i + count there later i :=
  List.countP_append

/-- Two workers of one port that are both somewhere are counted twice. -/
theorem two_le_count {there : WorkerPc → Bool} {workers : List Worker} {j k : Nat} {v w : Worker}
    (apart : j ≠ k) (here : workers[j]? = some v) (here' : workers[k]? = some w)
    (same : v.iPortNum = w.iPortNum) (counted : there v.pc = true) (counted' : there w.pc = true) :
    2 ≤ count there workers w.iPortNum := by
  rcases Nat.lt_or_gt_of_ne apart with before | after
  · exact two_le_countP before here here' (by simp [same, counted]) (by simp [counted'])
  · exact two_le_countP after here' here (by simp [counted']) (by simp [same, counted])

/-- A step of the RTSP thread starts one worker at most. -/
theorem started_eq {n : Nat} {server server' : Server} {e : RtspServer.Event}
    (h : RtspServer.step n server e = some server') :
    started server server' = [] ∨ ∃ port, started server server' = [⟨port, .created⟩] := by
  cases RtspServer.stepped_of_step h with
  | started port =>
    right
    exact ⟨port, by simp [started]⟩
  | accepted | acceptFailed | received | ended | replied | allStarted | ready | playing | cleared
    | sendFailed =>
    left
    simp [started]

/-- What holds of the workers and the sockets after every step: a port has as many sockets as
workers past `bind`, which is one at most, and as many peers as workers that have been served.
Over TCP a socket that does not listen yet is that of a worker on its way there. -/
structure PortInv (tlayer : Transport) (r : PortRange) (st : Process Peer) : Prop where
  counted : ∀ i, count pastBind st.workers i = holders st.sockets (r.iSetUDP + i)
  single : ∀ i, holders st.sockets (r.iSetUDP + i) ≤ 1
  peers : ∀ i, (st.returned.countP fun q => q.1 == i) = count served st.workers i
  settled : tlayer = .useTCP → ∀ i, count unsettled st.workers i ≤ 1
  own : tlayer = .useTCP → ∀ (k : Nat) w, st.workers[k]? = some w → w.pc = .bound →
    ∃ d s, st.iUDPSock w.iPortNum = some d ∧ st.sockets[d]? = some s ∧
      s.port = some (r.iSetUDP + w.iPortNum)
  listens : tlayer = .useTCP → ∀ i, (∀ w ∈ st.workers, w.iPortNum = i → w.pc ≠ .bound) →
    ∀ s ∈ st.sockets, s.port = some (r.iSetUDP + i) → s.listening = true

theorem start_inv (tlayer : Transport) (r : PortRange) :
    PortInv tlayer r (start : Process Peer) where
  counted := fun _ => rfl
  single := fun _ => Nat.zero_le 1
  peers := fun _ => rfl
  settled := fun _ _ => Nat.zero_le 1
  own := fun _ k w here => by cases here
  listens := fun _ _ _ s among => by cases among

/-- A worker that is not at its `listen` has moved to a place that is not before its `listen`. -/
theorem bound_of_moved {workers : List Worker} {k : Nat} {w v : Worker} {pc : WorkerPc}
    (here : workers[k]? = some w) (elsewhere : w.pc ≠ .bound) (among : v ∈ workers)
    (bound : v.pc = .bound) : v ∈ workers.set k ⟨w.iPortNum, pc⟩ := by
  obtain ⟨j, there⟩ := List.mem_iff_getElem?.mp among
  have apart : k ≠ j := by
    rintro rfl
    obtain rfl := Option.some.inj (here.symm.trans there)
    exact elsewhere bound
  exact List.mem_of_getElem? ((List.getElem?_set_ne apart).trans there)

theorem rtsp_inv {tlayer : Transport} {r : PortRange} {st : Process Peer} {e : RtspServer.Event}
    {server : Server} (inv : PortInv tlayer r st)
    (thread : RtspServer.step r.iNumUDPPorts st.server e = some server)
    (unhurried : Unhurried tlayer r st (.rtsp e)) : PortInv tlayer r
      { st with server := server, workers := st.workers ++ started st.server server } := by
  rcases started_eq thread with none_started | ⟨port, one_started⟩
  · rw [none_started, List.append_nil]
    exact ⟨inv.counted, inv.single, inv.peers, inv.settled, inv.own, inv.listens⟩
  · have added : ∀ there i, count there (st.workers ++ started st.server server) i =
        count there st.workers i + if port = i ∧ there .created = true then 1 else 0 := by
      intro there i
      rw [count_append, one_started]
      simp [count, List.countP_cons]
    constructor
    · intro i
      simp only [added]
      simpa [pastBind] using inv.counted i
    · exact inv.single
    · intro i
      simp only [added]
      simpa [served] using inv.peers i
    · intro tcp i
      simp only [added]
      have before := inv.settled tcp i
      have among : ⟨port, .created⟩ ∈ startedBy r st (.rtsp e) := by
        simp only [startedBy, thread, one_started]
        exact List.mem_singleton_self _
      have quiet := unhurried tcp _ among
      by_cases same : port = i
      · subst same
        simp only at quiet
        rw [quiet]
        simp [unsettled]
      · simpa [same] using before
    · intro tcp k w here pc
      refine inv.own tcp k w ?_ pc
      simp only [one_started] at here
      rcases of_concat here with old | ⟨_, rfl⟩
      · exact old
      · cases pc
    · intro tcp i away
      exact inv.listens tcp i fun w among => away w (List.mem_append_left _ among)

variable {tlayer : Transport} {r : PortRange} {st : Process Peer} {k : Nat} {w : Worker}

/-- Two workers of one port that are both on their way to `listen` are one. -/
theorem PortInv.alone (inv : PortInv tlayer r st) (tcp : tlayer = .useTCP) {j : Nat} {v : Worker}
    (there : st.workers[j]? = some v) (here : st.workers[k]? = some w)
    (same : v.iPortNum = w.iPortNum) (early : unsettled v.pc = true)
    (early' : unsettled w.pc = true) : j = k := by
  by_contra apart
  have twice := two_le_count apart there here same early early'
  have once := inv.settled tcp w.iPortNum
  omega

theorem socket_inv (inv : PortInv tlayer r st) (here : st.workers[k]? = some w)
    (pc : w.pc = .created) : PortInv tlayer r { moved st k w .opened with
      sockets := create st.sockets
      iUDPSock := Function.update st.iUDPSock w.iPortNum (some st.sockets.length) } := by
  constructor
  · intro i
    rw [holders_create]
    exact (count_keep here (by rw [pc]; rfl) i).trans (inv.counted i)
  · intro i
    rw [holders_create]
    exact inv.single i
  · intro i
    exact (inv.peers i).trans (count_keep here (by rw [pc]; rfl) i).symm
  · intro tcp i
    exact (Nat.le_of_eq (count_keep here (by rw [pc]; rfl) i)).trans (inv.settled tcp i)
  · intro tcp j v there bound
    rcases of_set there with ⟨_, rfl⟩ | ⟨apart, before⟩
    · cases bound
    · obtain ⟨d, s, own, socket, port⟩ := inv.own tcp j v before bound
      have other : v.iPortNum ≠ w.iPortNum := by
        intro same
        exact apart (inv.alone tcp before here same (by rw [bound]; rfl) (by rw [pc]; rfl))
      refine ⟨d, s, (Function.update_of_ne other _ _).trans own, ?_, port⟩
      have inside := (List.getElem?_eq_some_iff.mp socket).1
      exact (List.getElem?_append_left inside).trans socket
  · intro tcp i away s among port
    rcases List.mem_append.mp among with old | new
    · refine inv.listens tcp i ?_ s old port
      intro v there same bound
      exact away v (bound_of_moved here (by rw [pc]; nofun) there bound) same bound
    · obtain rfl := List.mem_singleton.mp new
      cases port

/-- A `bind` finds no socket on its port. -/
theorem bind_finds_none (inv : PortInv tlayer r st) (here : st.workers[k]? = some w)
    (pc : w.pc = .opened) {d : Nat} {sockets : Table}
    (bound : bind (reuses tlayer) st.sockets d (r.iSetUDP + w.iPortNum) = some sockets) :
    holders st.sockets (r.iSetUDP + w.iPortNum) = 0 := by
  obtain ⟨_, _, _, free, _⟩ := bind_eq_some bound
  cases tlayer with
  | useUDP => exact holders_of_free free
  | useTCP =>
    have away : ∀ v ∈ st.workers, v.iPortNum = w.iPortNum → v.pc ≠ .bound := by
      intro v among same atListen
      obtain ⟨j, there⟩ := List.mem_iff_getElem?.mp among
      obtain rfl := inv.alone rfl there here same (by rw [atListen]; rfl) (by rw [pc]; rfl)
      obtain rfl := Option.some.inj (here.symm.trans there)
      cases pc.symm.trans atListen
    refine List.countP_eq_zero.mpr ?_
    intro s among holds
    have port : s.port = some (r.iSetUDP + w.iPortNum) := by simpa using holds
    have isTaken := taken_of_listening among port (inv.listens rfl _ away s among port) true
    have free' : taken true st.sockets (r.iSetUDP + w.iPortNum) = false := free
    rw [isTaken] at free'
    cases free'

theorem bind_inv (inv : PortInv tlayer r st) (here : st.workers[k]? = some w)
    (pc : w.pc = .opened) {d : Nat} {sockets : Table} (own : st.iUDPSock w.iPortNum = some d)
    (bound : bind (reuses tlayer) st.sockets d (r.iSetUDP + w.iPortNum) = some sockets) :
    PortInv tlayer r { moved st k w .bound with sockets := sockets } := by
  have nobody := bind_finds_none inv here pc bound
  have held := holders_bind bound
  obtain ⟨s, socket, unbound, _, table⟩ := bind_eq_some bound
  have port_eq : ∀ i, (r.iSetUDP + i = r.iSetUDP + w.iPortNum) ↔ w.iPortNum = i := by omega
  constructor
  · intro i
    have entered := @count_enter pastBind _ _ _ here .bound (by rw [pc]; rfl) rfl i
    rw [held]
    simp only [port_eq]
    exact entered.trans (congrArg (· + _) (inv.counted i))
  · intro i
    rw [held]
    simp only [port_eq]
    by_cases same : w.iPortNum = i
    · subst same
      rw [nobody, if_pos rfl]
    · rw [if_neg same]
      exact inv.single i
  · intro i
    exact (inv.peers i).trans (count_keep here (by rw [pc]; rfl) i).symm
  · intro tcp i
    exact (Nat.le_of_eq (count_keep here (by rw [pc]; rfl) i)).trans (inv.settled tcp i)
  · intro tcp j v there atListen
    rcases of_set there with ⟨_, rfl⟩ | ⟨_, before⟩
    · refine ⟨d, ⟨some (r.iSetUDP + w.iPortNum), s.listening⟩, own, ?_, rfl⟩
      rw [table]
      exact List.getElem?_set_self (List.getElem?_eq_some_iff.mp socket).1
    · obtain ⟨d', s', own', socket', port'⟩ := inv.own tcp j v before atListen
      have apart : d ≠ d' := by
        rintro rfl
        obtain rfl := Option.some.inj (socket.symm.trans socket')
        rw [unbound] at port'
        cases port'
      refine ⟨d', s', own', ?_, port'⟩
      rw [table]
      exact (List.getElem?_set_ne apart).trans socket'
  · intro tcp i away s' among port
    have moved_here : w.iPortNum ≠ i := by
      intro same
      have inside := (List.getElem?_eq_some_iff.mp here).1
      exact away _ (List.mem_of_getElem? (List.getElem?_set_self inside)) same rfl
    rw [table] at among
    rcases List.mem_or_eq_of_mem_set among with old | rfl
    · refine inv.listens tcp i ?_ s' old port
      intro v there same atListen
      exact away v (bound_of_moved here (by rw [pc]; nofun) there atListen) same atListen
    · have same : r.iSetUDP + w.iPortNum = r.iSetUDP + i := Option.some.inj port
      omega

theorem listen_inv (inv : PortInv tlayer r st) (here : st.workers[k]? = some w)
    (pc : w.pc = .bound) (tcp : tlayer = .useTCP) {d free : Nat} {sockets : Table}
    (own : st.iUDPSock w.iPortNum = some d) (listened : listen st.sockets d free = some sockets) :
    PortInv tlayer r { moved st k w .listening with sockets := sockets } := by
  obtain ⟨d0, s0, own0, socket0, port0⟩ := inv.own tcp k w here pc
  obtain rfl := Option.some.inj (own.symm.trans own0)
  have held := holders_listen socket0 port0 listened
  obtain ⟨s, new, socket, table, listens, kept⟩ := listen_eq_some listened
  obtain rfl := Option.some.inj (socket0.symm.trans socket)
  have inside := (List.getElem?_eq_some_iff.mp socket0).1
  constructor
  · intro i
    rw [held]
    exact (count_keep here (by rw [pc]; rfl) i).trans (inv.counted i)
  · intro i
    rw [held]
    exact inv.single i
  · intro i
    exact (inv.peers i).trans (count_keep here (by rw [pc]; rfl) i).symm
  · intro tcp i
    have counted := @count_set unsettled _ _ _ here .listening i
    have before := inv.settled tcp i
    have gone : ¬ (w.iPortNum = i ∧ unsettled .listening = true) := fun h => by cases h.2
    rw [if_neg gone] at counted
    simp only [moved]
    omega
  · intro tcp j v there atListen
    rcases of_set there with ⟨_, rfl⟩ | ⟨apart, before⟩
    · cases atListen
    · obtain ⟨d', s', own', socket', port'⟩ := inv.own tcp j v before atListen
      have elsewhere : d ≠ d' := by
        rintro rfl
        obtain rfl := Option.some.inj (socket.symm.trans socket')
        have same : r.iSetUDP + w.iPortNum = r.iSetUDP + v.iPortNum :=
          Option.some.inj (port0.symm.trans port')
        exact apart (inv.alone tcp before here (by omega) (by rw [atListen]; rfl) (by rw [pc]; rfl))
      refine ⟨d', s', own', ?_, port'⟩
      rw [table]
      exact (List.getElem?_set_ne elsewhere).trans socket'
  · intro tcp i away s' among port
    rw [table] at among
    obtain ⟨j, there⟩ := List.mem_iff_getElem?.mp among
    by_cases same : d = j
    · subst same
      rw [List.getElem?_set_self inside] at there
      obtain rfl := Option.some.inj there
      exact listens
    · rw [List.getElem?_set_ne same] at there
      by_cases here_port : w.iPortNum = i
      · subst here_port
        exact absurd (holder_unique (inv.single _) socket0 there port0 port) same
      · refine inv.listens tcp i ?_ s' (List.mem_of_getElem? there) port
        intro v amongV sameV atListen
        obtain ⟨m, at_m⟩ := List.mem_iff_getElem?.mp amongV
        have apart : k ≠ m := by
          rintro rfl
          obtain rfl := Option.some.inj (here.symm.trans at_m)
          exact here_port sameV
        exact away v (List.mem_of_getElem? ((List.getElem?_set_ne apart).trans at_m)) sameV atListen

/-- A worker that moves on without a new socket, behind its `listen` or `bind`. -/
theorem moved_inv (inv : PortInv tlayer r st) (here : st.workers[k]? = some w) {pc : WorkerPc}
    (past : pastBind w.pc = true) (past' : pastBind pc = true) (same : served pc = served w.pc)
    (settled : unsettled pc = false) (later : tlayer = .useTCP → unsettled w.pc = false) :
    PortInv tlayer r (moved st k w pc) := by
  have notBound : pc ≠ .bound := by
    rintro rfl
    cases settled
  constructor
  · intro i
    exact (count_keep here (past'.trans past.symm) i).trans (inv.counted i)
  · exact inv.single
  · intro i
    exact (inv.peers i).trans (count_keep here same i).symm
  · intro tcp i
    have kept := count_keep here (settled.trans (later tcp).symm) i
    exact (Nat.le_of_eq kept).trans (inv.settled tcp i)
  · intro tcp j v there atListen
    rcases of_set there with ⟨_, rfl⟩ | ⟨_, before⟩
    · exact absurd atListen notBound
    · exact inv.own tcp j v before atListen
  · intro tcp i away
    refine inv.listens tcp i fun v among sameV atListen => ?_
    have elsewhere : w.pc ≠ .bound := by
      intro atBound
      have := later tcp
      rw [atBound] at this
      cases this
    exact away v (bound_of_moved here elsewhere among atListen) sameV atListen

/-- A worker whose call has returned a peer. -/
theorem served_inv (inv : PortInv tlayer r st) (here : st.workers[k]? = some w) {d : Nat}
    (pc : w.pc = .waiting d) {pc' : WorkerPc} (now : served pc' = true) (peer : Peer)
    (structUDPClient : Nat → Option Peer) (acc : Option Peer) : PortInv tlayer r
      { moved st k w pc' with
        structUDPClient := structUDPClient
        acc := acc
        returned := st.returned ++ [(w.iPortNum, peer)] } := by
  have past : pastBind pc' = true ∧ unsettled pc' = false := by
    cases pc' <;> first | exact ⟨rfl, rfl⟩ | cases now
  have moved := fun (there : WorkerPc → Bool) (same : there pc' = there w.pc) i =>
    count_keep here same i
  constructor
  · intro i
    exact (moved pastBind (by rw [pc, past.1]; rfl) i).trans (inv.counted i)
  · exact inv.single
  · intro i
    have entered := @count_enter served _ _ _ here pc' (by rw [pc]; rfl) now i
    refine Eq.trans ?_ entered.symm
    rw [List.countP_append, inv.peers i]
    simp [List.countP_cons]
  · intro tcp i
    have kept := moved unsettled (by rw [pc, past.2]; rfl) i
    exact (Nat.le_of_eq kept).trans (inv.settled tcp i)
  · intro tcp j v there atListen
    rcases of_set there with ⟨_, rfl⟩ | ⟨_, before⟩
    · obtain ⟨_, settled⟩ := past
      simp only at atListen
      rw [atListen] at settled
      cases settled
    · exact inv.own tcp j v before atListen
  · intro tcp i away
    refine inv.listens tcp i fun v among sameV atListen => ?_
    exact away v (bound_of_moved here (by rw [pc]; nofun) among atListen) sameV atListen

theorem step_inv {st st' : Process Peer} {e : Event Peer} (inv : PortInv tlayer r st)
    (unhurried : Unhurried tlayer r st e) (h : step tlayer r st e = some st') :
    PortInv tlayer r st' := by
  cases stepped_of_step h with
  | rtsp e server thread => exact rtsp_inv inv thread unhurried
  | socket k free w here pc => exact socket_inv inv here pc
  | bind k free d w sockets here pc own bound => exact bind_inv inv here pc own bound
  | listen k free d w sockets here pc tcp own listened =>
    exact listen_inv inv here pc tcp own listened
  | blocks k free d w here pc =>
    rcases pc with ⟨pc, rfl⟩ | pc
    · exact moved_inv inv here (by rw [pc]; rfl) rfl (by rw [pc]; rfl) rfl nofun
    · exact moved_inv inv here (by rw [pc]; rfl) rfl (by rw [pc]; rfl) rfl fun _ => by rw [pc]; rfl
  | reads k free w here pc =>
    exact moved_inv inv here (by rw [pc]; rfl) rfl (by rw [pc]; rfl) rfl fun _ => by rw [pc]; rfl
  | datagram k d peer w here pc udp => exact served_inv inv here pc rfl peer _ _
  | connection k d peer w here pc tcp => exact served_inv inv here pc rfl peer _ _
  | died k => exact ⟨inv.counted, inv.single, inv.peers, inv.settled, inv.own, inv.listens⟩

theorem run_inv {st st' : Process Peer} {es : List (Event Peer)} (inv : PortInv tlayer r st)
    (unhurried : TraceMachine.Along (step tlayer r) (Unhurried tlayer r) st es)
    (run : TraceMachine.run (step tlayer r) st es = some st') : PortInv tlayer r st' :=
  TraceMachine.invariant_along (step tlayer r) (fun _ _ _ inv allowed h => step_inv inv allowed h)
    inv unhurried run

theorem unhurried_udp (r : PortRange) (st : Process Peer) (es : List (Event Peer)) :
    TraceMachine.Along (step .useUDP r) (Unhurried .useUDP r) st es :=
  TraceMachine.along_of_always (step .useUDP r) (fun _ _ => nofun) st es

theorem PortInv.past_unique (inv : PortInv tlayer r st) {j : Nat} {v : Worker}
    (there : st.workers[j]? = some v) (here : st.workers[k]? = some w)
    (same : v.iPortNum = w.iPortNum) (past : pastBind v.pc = true) (past' : pastBind w.pc = true) :
    j = k := by
  by_contra apart
  have twice := two_le_count apart there here same past past'
  have once := inv.single w.iPortNum
  rw [← inv.counted] at once
  omega

/-- The `bind` of a worker fails where another worker of its port has bound a socket. -/
theorem PortInv.bind_refused (inv : PortInv tlayer r st) {j : Nat} {v : Worker}
    (there : st.workers[j]? = some v) (here : st.workers[k]? = some w)
    (same : v.iPortNum = w.iPortNum) (past : pastBind v.pc = true) (pc : w.pc = .opened)
    (free : Nat) : step tlayer r st (.call k free) = none := by
  have apart : j ≠ k := by
    rintro rfl
    obtain rfl := Option.some.inj (there.symm.trans here)
    rw [pc] at past
    cases past
  cases h : step tlayer r st (.call k free) with
  | none => rfl
  | some st' =>
    have inv' := step_inv inv (fun _ _ among => absurd among List.not_mem_nil) h
    cases stepped_of_step h with
    | bind k free d w' sockets here' pc' own bound =>
      obtain rfl := Option.some.inj (here.symm.trans here')
      have inside := (List.getElem?_eq_some_iff.mp here).1
      refine absurd (inv'.past_unique (j := j) (k := k) (v := v) ?_
        (List.getElem?_set_self inside) same past rfl) apart
      exact (List.getElem?_set_ne (Ne.symm apart)).trans there
    | socket k free w' here' pc' =>
      obtain rfl := Option.some.inj (here.symm.trans here')
      cases pc.symm.trans pc'
    | listen k free d w' sockets here' pc' =>
      obtain rfl := Option.some.inj (here.symm.trans here')
      cases pc.symm.trans pc'
    | reads k free w' here' pc' =>
      obtain rfl := Option.some.inj (here.symm.trans here')
      cases pc.symm.trans pc'
    | blocks k free d w' here' pc' =>
      obtain rfl := Option.some.inj (here.symm.trans here')
      rw [pc] at pc'
      rcases pc' with ⟨pc', _⟩ | pc' <;> cases pc'

theorem PortInv.returned_nodup (inv : PortInv tlayer r st) :
    (st.returned.map Prod.fst).Nodup := by
  refine List.nodup_iff_count_le_one.mpr fun i => ?_
  have bound : count served st.workers i ≤ count pastBind st.workers i := by
    refine List.countP_mono_left fun w _ counted => ?_
    simp only [Bool.and_eq_true] at counted ⊢
    refine ⟨counted.1, ?_⟩
    cases pc : w.pc <;> simp_all [served, pastBind]
  have once := inv.single i
  rw [← inv.counted] at once
  have counts : (st.returned.map Prod.fst).count i = st.returned.countP fun q => q.1 == i := by
    rw [List.count, List.countP_map]
    rfl
  rw [counts, inv.peers i]
  omega

/-- In a process that is running, one worker of each port has bound a socket at most, and
`recvfrom` or `accept` has returned one peer for each port at most. Once one worker of a port is
past its `bind`, the `bind` of another fails, which ends the process. -/
theorem one_peer_per_port {es : List (Event Peer)} {st : Process Peer}
    (unhurried : TraceMachine.Along (step tlayer r) (Unhurried tlayer r) start es)
    (run : TraceMachine.run (step tlayer r) start es = some st) :
    (st.returned.map Prod.fst).Nodup ∧
    ∀ (j k : Nat) v w, st.workers[j]? = some v → st.workers[k]? = some w → j ≠ k →
      v.iPortNum = w.iPortNum → pastBind v.pc = true →
      pastBind w.pc = false ∧
        (w.pc = .opened → ∀ free, step tlayer r st (.call k free) = none) := by
  have inv := run_inv (start_inv tlayer r) unhurried run
  refine ⟨inv.returned_nodup, ?_⟩
  intro j k v w there here apart same past
  constructor
  · cases past' : pastBind w.pc with
    | false => rfl
    | true => exact absurd (inv.past_unique there here same past past') apart
  · exact fun pc free => inv.bind_refused there here same past pc free

/-- The first worker serves a peer; then a second SETUP brings the third worker to its `bind`. -/
theorem second_setup_stuck :
    ∃ st, TraceMachine.run (step .useUDP mediaRange) start (firstSetup ++
        [.call 0 0, .call 0 0, .call 0 0, .message 0 7] ++ secondSetup ++ [.call 2 0]) = some st ∧
      st.returned.map Prod.fst = [0] ∧ ∀ free, step .useUDP mediaRange st (.call 2 free) = none := by
  obtain ⟨st, run, peers, worker, worker'⟩ : ∃ st, TraceMachine.run (step .useUDP mediaRange) start
      (firstSetup ++ [.call 0 0, .call 0 0, .call 0 0, .message 0 7] ++ secondSetup ++
        [.call 2 0]) = some st ∧ st.returned.map Prod.fst = [0] ∧
      st.workers[0]? = some ⟨0, .done⟩ ∧ st.workers[2]? = some ⟨0, .opened⟩ :=
    ⟨_, rfl, rfl, rfl, rfl⟩
  have later := (one_peer_per_port (unhurried_udp _ _ _) run).2 0 2 _ _ worker worker' (by decide)
    rfl rfl
  exact ⟨st, run, peers, later.2 rfl⟩

/-- The addresses over UDP, and the connection over TCP, are what the calls have returned; workers
are of the ports there are. -/
structure PeerInv (tlayer : Transport) (r : PortRange) (st : Process Peer) : Prop where
  ports : PortInv tlayer r st
  inRange : ∀ w ∈ st.workers, w.iPortNum < r.iNumUDPPorts
  ofWorker : ∀ q ∈ st.returned, q.1 < r.iNumUDPPorts
  address : ∀ i peer, st.structUDPClient i = some peer → (i, peer) ∈ st.returned
  connection : st.acc = if tlayer = .useTCP then (st.returned.getLast?).map Prod.snd else none

theorem started_inRange {n : Nat} {server server' : Server} {e : RtspServer.Event}
    (h : RtspServer.step n server e = some server') :
    ∀ w ∈ started server server', w.iPortNum < n := by
  cases RtspServer.stepped_of_step h with
  | started port _ more =>
    have one : started server { server with
        started := server.started ++ [port], pc := .starting (port + 1) } =
        [⟨port, .created⟩] := by simp [started]
    rw [one]
    intro w among
    obtain rfl := List.mem_singleton.mp among
    exact more
  | accepted | acceptFailed | received | ended | replied | allStarted | ready | playing | cleared
    | sendFailed => simp [started]

theorem moved_inRange {n : Nat} (inRange : ∀ w ∈ st.workers, w.iPortNum < n)
    (here : st.workers[k]? = some w) (pc : WorkerPc) :
    ∀ v ∈ st.workers.set k ⟨w.iPortNum, pc⟩, v.iPortNum < n := by
  intro v among
  rcases List.mem_or_eq_of_mem_set among with old | rfl
  · exact inRange v old
  · exact inRange w (List.mem_of_getElem? here)

theorem returned_inRange {n : Nat} (ofWorker : ∀ q ∈ st.returned, q.1 < n)
    (inRange : ∀ w ∈ st.workers, w.iPortNum < n) (here : st.workers[k]? = some w) {peer : Peer} :
    ∀ q ∈ st.returned ++ [(w.iPortNum, peer)], q.1 < n := by
  intro q among
  rcases List.mem_append.mp among with old | new
  · exact ofWorker q old
  · obtain rfl := List.mem_singleton.mp new
    exact inRange w (List.mem_of_getElem? here)

theorem peer_step {st st' : Process Peer} {e : Event Peer} (inv : PeerInv tlayer r st)
    (unhurried : Unhurried tlayer r st e) (h : step tlayer r st e = some st') :
    PeerInv tlayer r st' := by
  have ports := step_inv inv.ports unhurried h
  obtain ⟨_, inRange, ofWorker, address, connection⟩ := inv
  cases stepped_of_step h with
  | rtsp e server thread =>
    refine ⟨ports, ?_, ofWorker, address, connection⟩
    intro w among
    rcases List.mem_append.mp among with old | new
    · exact inRange w old
    · exact started_inRange thread w new
  | socket k free w here | bind k free d w sockets here | listen k free d w sockets here
    | blocks k free d w here | reads k free w here =>
    exact ⟨ports, moved_inRange inRange here _, ofWorker, address, connection⟩
  | datagram k d peer w here pc udp =>
    refine ⟨ports, moved_inRange inRange here _, returned_inRange ofWorker inRange here, ?_, ?_⟩
    · intro i peer' names
      by_cases same : i = w.iPortNum
      · subst same
        have now : Function.update st.structUDPClient w.iPortNum (some peer) w.iPortNum =
            some peer' := names
        rw [Function.update_self] at now
        obtain rfl := Option.some.inj now
        exact List.mem_append_right _ (List.mem_singleton_self _)
      · exact List.mem_append_left _
          (address i peer' ((Function.update_of_ne same _ _).symm.trans names))
    · subst udp
      exact connection
  | connection k d peer w here pc tcp =>
    refine ⟨ports, moved_inRange inRange here _, returned_inRange ofWorker inRange here, ?_, ?_⟩
    · intro i peer' names
      exact List.mem_append_left _ (address i peer' names)
    · rw [if_pos tcp, List.getLast?_concat]
      rfl
  | died k => exact ⟨ports, inRange, ofWorker, address, connection⟩

theorem peer_run {st st' : Process Peer} {es : List (Event Peer)} (inv : PeerInv tlayer r st)
    (unhurried : TraceMachine.Along (step tlayer r) (Unhurried tlayer r) st es)
    (run : TraceMachine.run (step tlayer r) st es = some st') : PeerInv tlayer r st' :=
  TraceMachine.invariant_along (step tlayer r) (fun _ _ _ inv allowed h => peer_step inv allowed h)
    inv unhurried run

theorem peer_start (tlayer : Transport) (r : PortRange) :
    PeerInv tlayer r (start : Process Peer) where
  ports := start_inv tlayer r
  inRange := nofun
  ofWorker := nofun
  address := nofun
  connection := by cases tlayer <;> rfl

/-- A port that has an address is not given another one: its worker would be the second one past
`bind`. -/
theorem address_kept_step {r : PortRange} {st st' : Process Peer} {e : Event Peer}
    (inv : PeerInv .useUDP r st) (h : step .useUDP r st e = some st') {i : Nat} {peer : Peer}
    (names : st.structUDPClient i = some peer) : st'.structUDPClient i = some peer := by
  cases stepped_of_step h with
  | datagram k d peer' w here pc udp =>
    have other : i ≠ w.iPortNum := by
      rintro rfl
      have there := inv.address _ peer names
      have counted : 0 < count served st.workers w.iPortNum := by
        rw [← inv.ports.peers]
        exact List.countP_pos_iff.mpr ⟨_, there, by simp⟩
      obtain ⟨v, among, both⟩ := List.countP_pos_iff.mp counted
      obtain ⟨j, at_j⟩ := List.mem_iff_getElem?.mp among
      obtain ⟨same, isServed⟩ : v.iPortNum = w.iPortNum ∧ served v.pc = true := by
        simpa using both
      have past : pastBind v.pc = true := by
        cases pcV : v.pc <;> simp_all [served, pastBind]
      obtain rfl := inv.ports.past_unique at_j here same past (by rw [pc]; rfl)
      obtain rfl := Option.some.inj (at_j.symm.trans here)
      rw [pc] at isServed
      cases isServed
    exact (Function.update_of_ne other _ _).trans names
  | connection k d peer' w here pc tcp => cases tcp
  | rtsp | socket | bind | listen | blocks | reads | died => exact names

/-- Over UDP the datagrams of the video go to one address as long as the process lives, whoever
sends SETUP or datagrams later. -/
theorem client_address_kept {r : PortRange} {es later : List (Event Peer)} {st st' : Process Peer}
    (run : TraceMachine.run (step .useUDP r) start es = some st)
    (run' : TraceMachine.run (step .useUDP r) st later = some st') {i : Nat} {peer : Peer}
    (names : st.structUDPClient i = some peer) :
    st'.structUDPClient i = some peer ∧ (i, peer) ∈ st'.returned := by
  have reached := peer_run (peer_start .useUDP r) (unhurried_udp r start es) run
  have kept : PeerInv .useUDP r st' ∧ st'.structUDPClient i = some peer := by
    have preserved : ∀ s e s', PeerInv .useUDP r s ∧ s.structUDPClient i = some peer →
        step .useUDP r s e = some s' → PeerInv .useUDP r s' ∧ s'.structUDPClient i = some peer := by
      rintro s e s' ⟨inv, has⟩ h
      exact ⟨peer_step inv nofun h, address_kept_step inv h has⟩
    exact TraceMachine.invariant_of_run (step .useUDP r) preserved ⟨reached, names⟩ run'
  exact ⟨kept.2, kept.1.address i peer kept.2⟩

theorem first_address_kept :
    ∃ st st', TraceMachine.run (step .useUDP mediaRange) start
        (firstSetup ++ [.call 0 0, .call 0 0, .call 0 0, .message 0 7]) = some st ∧
      TraceMachine.run (step .useUDP mediaRange) st
        (secondSetup ++ [.call 1 0, .call 1 0, .call 1 0, .message 1 8]) = some st' ∧
      st'.structUDPClient 0 = some 7 ∧ (0, 7) ∈ st'.returned := by
  obtain ⟨st, st', run, run', names⟩ : ∃ st st', TraceMachine.run (step .useUDP mediaRange) start
        (firstSetup ++ [.call 0 0, .call 0 0, .call 0 0, .message 0 7]) = some st ∧
      TraceMachine.run (step .useUDP mediaRange) st
        (secondSetup ++ [.call 1 0, .call 1 0, .call 1 0, .message 1 8]) = some st' ∧
      st.structUDPClient 0 = some 7 := ⟨_, _, rfl, rfl, rfl⟩
  exact ⟨st, st', run, run', client_address_kept run run' names⟩

/-- Over TCP the video goes to the connection that was accepted last, on any of the ports, and
there is one for each port at most. -/
theorem connections_limited {r : PortRange} {es : List (Event Peer)} {st : Process Peer}
    (unhurried : TraceMachine.Along (step .useTCP r) (Unhurried .useTCP r) start es)
    (run : TraceMachine.run (step .useTCP r) start es = some st) :
    st.acc = (st.returned.getLast?).map Prod.snd ∧ st.returned.length ≤ r.iNumUDPPorts ∧
      (st.returned.map Prod.fst).Nodup := by
  have inv := peer_run (peer_start .useTCP r) unhurried run
  have once := inv.ports.returned_nodup
  refine ⟨inv.connection, ?_, once⟩
  have within : (st.returned.map Prod.fst) ⊆ List.range r.iNumUDPPorts := by
    intro i among
    obtain ⟨q, there, rfl⟩ := List.mem_map.mp among
    exact List.mem_range.mpr (inv.ofWorker q there)
  have shorter := (once.subperm within).length_le
  rwa [List.length_map, List.length_range] at shorter

/-- A peer that connects to the second port takes the video over. -/
theorem second_connection_takes_over :
    ∃ st, TraceMachine.run (step .useTCP mediaRange) start (firstSetup ++
        [.call 0 0, .call 0 0, .call 0 0, .call 0 0, .call 1 0, .call 1 0, .call 1 0, .call 1 0,
          .message 0 7, .message 1 8]) = some st ∧
      st.acc = some 8 ∧ st.returned.length ≤ 2 := by
  obtain ⟨st, run, peers⟩ : ∃ st, TraceMachine.run (step .useTCP mediaRange) start (firstSetup ++
        [.call 0 0, .call 0 0, .call 0 0, .call 0 0, .call 1 0, .call 1 0, .call 1 0, .call 1 0,
          .message 0 7, .message 1 8]) = some st ∧ st.returned = [(0, 7), (1, 8)] :=
    ⟨_, rfl, rfl⟩
  obtain ⟨connection, limited, _⟩ := connections_limited (by decide +kernel) run
  rw [peers] at connection
  exact ⟨st, run, connection, limited⟩

end MediaPorts
