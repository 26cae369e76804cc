import UnvStream.ClientReceiver
import UnvStream.ListEdits
import UnvStream.TraceMachine
import Mathlib.Logic.Function.Basic

/-!
# The media threads of the client process

Every SETUP creates a socket for each port, stores it in `iUDP_Sock` and starts one more thread in
`startClientUDP`. The threads of earlier SETUPs go on. They read `iUDP_Sock` anew with each pass,
and all threads share `flag` and `cout`, to which they write byte by byte.
-/

namespace ClientThreads

open Vocabulary ClientReceiver ListEdits

/-- `startClientUDP` between its calls: before `recv`, inside it on a socket, behind it, and with
bytes left to write before `flag` is cleared or not. -/
inductive ThreadPc where
  | looping
  | receiving (d : Nat)
  | received (result : RecvResult)
  | writing (bytes : List UInt8) (clears : Bool)

structure Thread where
  iPortNum : Nat
  pc : ThreadPc
  buffers : Receiver

/-- The loop of SETUP over the ports, before and after `socket` in `setupClientUDP`. -/
inductive SetupPc where
  | idle
  | opening (iPortNum : Nat)
  | opened (iPortNum : Nat)

/-- What has arrived at a socket, and what of it no `recv` has returned. -/
structure Socket where
  arrived : List (List UInt8)
  unread : List (List UInt8)

/-- A result of `recv`. -/
structure Taking where
  thread : Nat
  socket : Nat
  result : RecvResult

/-- The threads in the order of their start. What `recv` has returned and what is written is kept
with the thread. -/
structure Client where
  setup : SetupPc
  iUDPSock : Nat → Option Nat
  sockets : List Socket
  threads : List Thread
  flag : Bool
  taken : List Taking
  cout : List (Nat × UInt8)

/-- A step of SETUP, a piece that comes to a socket, the next step of a thread outside `recv`, and
a `recv` that returns a piece or -1. -/
inductive Event where
  | setup
  | arrives (d : Nat) (piece : List UInt8)
  | act (t : Nat)
  | recv (t : Nat)
  | fails (t : Nat)

def start : Client where
  setup := .idle
  iUDPSock := fun _ => none
  sockets := []
  threads := []
  flag := true
  taken := []
  cout := []

def setupStep (iNumUDPPorts : Nat) (st : Client) : Client :=
  match st.setup with
  | .idle => { st with setup := if 0 < iNumUDPPorts then .opening 0 else .idle }
  | .opening i => { st with
      setup := .opened i
      sockets := st.sockets ++ [⟨[], []⟩]
      iUDPSock := Function.update st.iUDPSock i (some st.sockets.length) }
  | .opened i => { st with
      setup := if i + 1 < iNumUDPPorts then .opening (i + 1) else .idle
      threads := st.threads ++ [⟨i, .looping, .cleared⟩] }

/-- `recv` returns no more bytes than the packet has room for. -/
def arrive (st : Client) (d : Nat) (piece : List UInt8) : Option Client := do
  let s ← st.sockets[d]?
  if piece.length ≤ buffSize then
    some { st with sockets := st.sockets.set d ⟨s.arrived ++ [piece], s.unread ++ [piece]⟩ }
  else none

/-- The handlers of `receivePass` read `flag` once and clear it when they have written. -/
def act (tlayer : Transport) (vcodec : VideoCodec) (st : Client) (t : Nat) : Option Client := do
  let th ← st.threads[t]?
  match th.pc with
  | .looping =>
    let d ← st.iUDPSock th.iPortNum
    return { st with threads := st.threads.set t { th with pc := .receiving d } }
  | .receiving _ => none
  | .received result =>
    let (r, out) ← receivePass tlayer vcodec th.iPortNum { th.buffers with flag := st.flag } result
    return { st with
      threads := st.threads.set t ⟨th.iPortNum, .writing out (st.flag && !r.flag), r⟩ }
  | .writing (byte :: bytes) clears => return { st with
      threads := st.threads.set t { th with pc := .writing bytes clears }
      cout := st.cout ++ [(t, byte)] }
  | .writing [] clears => return { st with
      threads := st.threads.set t { th with pc := .looping }
      flag := st.flag && !clears }

/-- Packets leave a socket in the order they have come. -/
def recv (st : Client) (t : Nat) : Option Client := do
  let th ← st.threads[t]?
  match th.pc with
  | .receiving d =>
    let s ← st.sockets[d]?
    let piece ← s.unread.head?
    return { st with
      threads := st.threads.set t { th with pc := .received (.data piece) }
      sockets := st.sockets.set d { s with unread := s.unread.tail }
      taken := st.taken ++ [⟨t, d, .data piece⟩] }
  | .looping | .received _ | .writing _ _ => none

def fail (st : Client) (t : Nat) : Option Client := do
  let th ← st.threads[t]?
  match th.pc with
  | .receiving d => return { st with
      threads := st.threads.set t { th with pc := .received .error }
      taken := st.taken ++ [⟨t, d, .error⟩] }
  | .looping | .received _ | .writing _ _ => none

def step (tlayer : Transport) (vcodec : VideoCodec) (iNumUDPPorts : Nat) (st : Client) :
    Event → Option Client
  | .setup => some (setupStep iNumUDPPorts st)
  | .arrives d piece => arrive st d piece
  | .act t => act tlayer vcodec st t
  | .recv t => recv st t
  | .fails t => fail st t

/-- All that an event can do, with what it finds. -/
inductive Stepped (tlayer : Transport) (vcodec : VideoCodec) (st : Client) : Client → Prop where
  | turns (setup : SetupPc) : Stepped tlayer vcodec st { st with setup := setup }
  | opens (i : Nat) : Stepped tlayer vcodec st { st with
      setup := .opened i
      sockets := st.sockets ++ [⟨[], []⟩]
      iUDPSock := Function.update st.iUDPSock i (some st.sockets.length) }
  | starts (i : Nat) (setup : SetupPc) : Stepped tlayer vcodec st { st with
      setup := setup
      threads := st.threads ++ [⟨i, .looping, .cleared⟩] }
  | arrives (d : Nat) (piece : List UInt8) (s : Socket) (there : st.sockets[d]? = some s) :
      Stepped tlayer vcodec st
        { st with sockets := st.sockets.set d ⟨s.arrived ++ [piece], s.unread ++ [piece]⟩ }
  | blocks (t d : Nat) (th : Thread) (here : st.threads[t]? = some th) (pc : th.pc = .looping)
      (current : st.iUDPSock th.iPortNum = some d) : Stepped tlayer vcodec st
        { st with threads := st.threads.set t { th with pc := .receiving d } }
  | handles (t : Nat) (th : Thread) (result : RecvResult) (r : Receiver) (out : List UInt8)
      (here : st.threads[t]? = some th) (pc : th.pc = .received result)
      (handled : receivePass tlayer vcodec th.iPortNum { th.buffers with flag := st.flag } result =
        some (r, out)) : Stepped tlayer vcodec st { st with
          threads := st.threads.set t ⟨th.iPortNum, .writing out (st.flag && !r.flag), r⟩ }
  | writes (t : Nat) (th : Thread) (byte : UInt8) (bytes : List UInt8) (clears : Bool)
      (here : st.threads[t]? = some th) (pc : th.pc = .writing (byte :: bytes) clears) :
      Stepped tlayer vcodec st { st with
        threads := st.threads.set t { th with pc := .writing bytes clears }
        cout := st.cout ++ [(t, byte)] }
  | loops (t : Nat) (th : Thread) (clears : Bool) (here : st.threads[t]? = some th)
      (pc : th.pc = .writing [] clears) : Stepped tlayer vcodec st { st with
        threads := st.threads.set t { th with pc := .looping }
        flag := st.flag && !clears }
  | takes (t d : Nat) (th : Thread) (s : Socket) (piece : List UInt8)
      (unread : List (List UInt8)) (here : st.threads[t]? = some th) (pc : th.pc = .receiving d)
      (there : st.sockets[d]? = some s) (first : s.unread = piece :: unread) :
      Stepped tlayer vcodec st { st with
        threads := st.threads.set t { th with pc := .received (.data piece) }
        sockets := st.sockets.set d { s with unread := unread }
        taken := st.taken ++ [⟨t, d, .data piece⟩] }
  | fails (t d : Nat) (th : Thread) (here : st.threads[t]? = some th)
      (pc : th.pc = .receiving d) : Stepped tlayer vcodec st { st with
        threads := st.threads.set t { th with pc := .received .error }
        taken := st.taken ++ [⟨t, d, .error⟩] }

section
variable {tlayer : Transport} {vcodec : VideoCodec} {iNumUDPPorts : Nat} {st st' : Client}

theorem stepped_of_setup : Stepped tlayer vcodec st (setupStep iNumUDPPorts st) := by
  unfold setupStep
  split
  · exact .turns _
  · exact .opens _
  · exact .starts _ _

theorem stepped_of_act {t : Nat} (h : act tlayer vcodec st t = some st') :
    Stepped tlayer vcodec st st' := by
  obtain ⟨th, here, rest⟩ := Option.bind_eq_some_iff.mp h
  cases pc : th.pc with
  | looping =>
    simp only [pc] at rest
    obtain ⟨d, current, same⟩ := Option.bind_eq_some_iff.mp rest
    obtain rfl := Option.some.inj same
    exact .blocks t d th here pc current
  | receiving d =>
    simp only [pc] at rest
    cases rest
  | received result =>
    simp only [pc] at rest
    obtain ⟨⟨r, out⟩, handled, same⟩ := Option.bind_eq_some_iff.mp rest
    obtain rfl := Option.some.inj same
    exact .handles t th result r out here pc handled
  | writing bytes clears =>
    cases bytes with
    | nil =>
      simp only [pc] at rest
      obtain rfl := Option.some.inj rest
      exact .loops t th clears here pc
    | cons byte bytes =>
      simp only [pc] at rest
      obtain rfl := Option.some.inj rest
      exact .writes t th byte bytes clears here pc

theorem stepped_of_recv {t : Nat} (h : recv st t = some st') : Stepped tlayer vcodec st st' := by
  obtain ⟨th, here, rest⟩ := Option.bind_eq_some_iff.mp h
  cases pc : th.pc with
  | receiving d =>
    simp only [pc] at rest
    obtain ⟨s, there, rest⟩ := Option.bind_eq_some_iff.mp rest
    obtain ⟨piece, head, same⟩ := Option.bind_eq_some_iff.mp rest
    obtain rfl := Option.some.inj same
    exact .takes t d th s piece s.unread.tail here pc there (List.eq_cons_of_mem_head? head)
  | looping | received | writing =>
    simp only [pc] at rest
    cases rest

theorem stepped_of_fail {t : Nat} (h : fail st t = some st') : Stepped tlayer vcodec st st' := by
  obtain ⟨th, here, rest⟩ := Option.bind_eq_some_iff.mp h
  cases pc : th.pc with
  | receiving d =>
    simp only [pc] at rest
    obtain rfl := Option.some.inj rest
    exact .fails t d th here pc
  | looping | received | writing =>
    simp only [pc] at rest
    cases rest

theorem stepped_of_step {e : Event} (h : step tlayer vcodec iNumUDPPorts st e = some st') :
    Stepped tlayer vcodec st st' := by
  cases e with
  | setup =>
    obtain rfl := Option.some.inj h
    exact stepped_of_setup
  | arrives d piece =>
    obtain ⟨s, there, rest⟩ := Option.bind_eq_some_iff.mp h
    split at rest
    · obtain rfl := Option.some.inj rest
      exact .arrives d piece s there
    · cases rest
  | act t => exact stepped_of_act h
  | recv t => exact stepped_of_recv h
  | fails t => exact stepped_of_fail h

end

/-- The results a thread has taken. -/
def takenBy (taken : List Taking) (t : Nat) : List RecvResult :=
  (taken.filter fun x => x.thread == t).map Taking.result

/-- The bytes a thread has written. -/
def writtenBy (cout : List (Nat × UInt8)) (t : Nat) : List UInt8 :=
  (cout.filter fun x => x.1 == t).map Prod.snd

/-- The packet of a result. -/
def packet : RecvResult → Option (List UInt8)
  | .error => none
  | .data bytes => some bytes

/-- The packets that any thread has taken from a socket. -/
def takenFrom (taken : List Taking) (d : Nat) : List (List UInt8) :=
  (taken.filter fun x => x.socket == d).filterMap fun x => packet x.result

/-- A result that a thread has not handled yet. -/
def inHand : ThreadPc → List RecvResult
  | .received result => [result]
  | .looping | .receiving _ | .writing _ _ => []

/-- Bytes that a thread is still to write. -/
def unwritten : ThreadPc → List UInt8
  | .writing bytes _ => bytes
  | .looping | .receiving _ | .received _ => []

/-- A thread is where a lone `startClientUDP` is behind the same results, but for the flag. -/
def Handled (tlayer : Transport) (vcodec : VideoCodec) (results : List RecvResult)
    (written : List UInt8) (th : Thread) : Prop :=
  ∃ done outs b, results = done ++ inHand th.pc ∧
    receiveAll tlayer vcodec th.iPortNum .cleared done =
      some ({ th.buffers with flag := b }, outs) ∧
    outs.flatten = written ++ unwritten th.pc

section
variable {tlayer : Transport} {vcodec : VideoCodec} {results : List RecvResult}
  {written : List UInt8} {iPortNum : Nat} {buffers : Receiver}

theorem Handled.handles {result : RecvResult} {flag : Bool} {r : Receiver} {out : List UInt8}
    (h : Handled tlayer vcodec results written ⟨iPortNum, .received result, buffers⟩)
    (handled : receivePass tlayer vcodec iPortNum { buffers with flag := flag } result =
      some (r, out)) (clears : Bool) :
    Handled tlayer vcodec results written ⟨iPortNum, .writing out clears, r⟩ := by
  obtain ⟨done, outs, b, rfl, before, bytes⟩ := h
  obtain ⟨b', last⟩ := receivePass_flag handled b
  refine ⟨done ++ [result], outs ++ [out], b', (List.append_nil _).symm,
    receiveAll_append before (receiveAll_single last), ?_⟩
  rw [List.flatten_append, bytes]
  simp [unwritten]

theorem Handled.writes {byte : UInt8} {bytes : List UInt8} {clears : Bool}
    (h : Handled tlayer vcodec results written
      ⟨iPortNum, .writing (byte :: bytes) clears, buffers⟩) :
    Handled tlayer vcodec results (written ++ [byte])
      ⟨iPortNum, .writing bytes clears, buffers⟩ := by
  obtain ⟨done, outs, b, same, before, joined⟩ := h
  refine ⟨done, outs, b, same, before, ?_⟩
  rw [joined, List.append_assoc]
  rfl

theorem Handled.takes {d : Nat}
    (h : Handled tlayer vcodec results written ⟨iPortNum, .receiving d, buffers⟩)
    (result : RecvResult) : Handled tlayer vcodec (results ++ [result]) written
      ⟨iPortNum, .received result, buffers⟩ := by
  obtain ⟨done, outs, b, rfl, before, joined⟩ := h
  refine ⟨done, outs, b, ?_, before, joined⟩
  exact congrArg (· ++ [result]) (List.append_nil done)

end

/-- All threads are where they would be alone, and nothing is due to a thread to come. -/
structure Separate (tlayer : Transport) (vcodec : VideoCodec) (threads : List Thread)
    (taken : List Taking) (cout : List (Nat × UInt8)) : Prop where
  handled : ∀ (t : Nat) th, threads[t]? = some th →
    Handled tlayer vcodec (takenBy taken t) (writtenBy cout t) th
  taken : ∀ x ∈ taken, x.thread < threads.length
  cout : ∀ x ∈ cout, x.1 < threads.length

theorem takenBy_new {taken : List Taking} {n : Nat} (old : ∀ x ∈ taken, x.thread < n) :
    takenBy taken n = [] := by
  rw [takenBy, List.map_eq_nil_iff, List.filter_eq_nil_iff]
  intro x among
  simpa using Nat.ne_of_lt (old x among)

theorem writtenBy_new {cout : List (Nat × UInt8)} {n : Nat} (old : ∀ x ∈ cout, x.1 < n) :
    writtenBy cout n = [] := by
  rw [writtenBy, List.map_eq_nil_iff, List.filter_eq_nil_iff]
  intro x among
  simpa using Nat.ne_of_lt (old x among)

section
variable {tlayer : Transport} {vcodec : VideoCodec} {threads : List Thread}
  {taken : List Taking} {cout : List (Nat × UInt8)}

/-- A step of one thread, with what it takes and writes. -/
theorem Separate.moved (inv : Separate tlayer vcodec threads taken cout) {t : Nat}
    {th th' : Thread} (here : threads[t]? = some th) (results : List RecvResult)
    (bytes : List UInt8) (d : Nat)
    (next : Handled tlayer vcodec (takenBy taken t) (writtenBy cout t) th →
      Handled tlayer vcodec (takenBy taken t ++ results) (writtenBy cout t ++ bytes) th') :
    Separate tlayer vcodec (threads.set t th') (taken ++ results.map fun result => ⟨t, d, result⟩)
      (cout ++ bytes.map fun byte => (t, byte)) := by
  have inside : t < threads.length := (List.getElem?_eq_some_iff.mp here).1
  refine ⟨fun u v there => ?_, fun x among => ?_, fun x among => ?_⟩
  · rcases of_set there with ⟨rfl, rfl⟩ | ⟨apart, there⟩
    · have took : takenBy (taken ++ results.map fun result => ⟨u, d, result⟩) u =
          takenBy taken u ++ results := by
        simp [takenBy, List.filter_map, Function.comp_def]
      have wrote : writtenBy (cout ++ bytes.map fun byte => (u, byte)) u =
          writtenBy cout u ++ bytes := by
        simp [writtenBy, List.filter_map, Function.comp_def]
      rw [took, wrote]
      exact next (inv.handled u th here)
    · have took : takenBy (taken ++ results.map fun result => ⟨t, d, result⟩) u =
          takenBy taken u := by
        simp [takenBy, List.filter_map, Function.comp_def, Ne.symm apart]
      have wrote : writtenBy (cout ++ bytes.map fun byte => (t, byte)) u = writtenBy cout u := by
        simp [writtenBy, List.filter_map, Function.comp_def, Ne.symm apart]
      rw [took, wrote]
      exact inv.handled u v there
  · rw [List.length_set]
    rcases List.mem_append.mp among with old | new
    · exact inv.taken x old
    · obtain ⟨_, _, rfl⟩ := List.mem_map.mp new
      exact inside
  · rw [List.length_set]
    rcases List.mem_append.mp among with old | new
    · exact inv.cout x old
    · obtain ⟨_, _, rfl⟩ := List.mem_map.mp new
      exact inside

/-- A step in which a thread takes and writes nothing. -/
theorem Separate.moves (inv : Separate tlayer vcodec threads taken cout) {t : Nat}
    {th th' : Thread} (here : threads[t]? = some th)
    (next : Handled tlayer vcodec (takenBy taken t) (writtenBy cout t) th →
      Handled tlayer vcodec (takenBy taken t) (writtenBy cout t) th') :
    Separate tlayer vcodec (threads.set t th') taken cout := by
  have moved := @Separate.moved _ _ _ _ _ inv t th th' here [] [] 0
    (by simpa only [List.append_nil] using next)
  simpa only [List.map_nil, List.append_nil] using moved

theorem Separate.started (inv : Separate tlayer vcodec threads taken cout) (i : Nat) :
    Separate tlayer vcodec (threads ++ [⟨i, .looping, .cleared⟩]) taken cout := by
  have longer : threads.length ≤ (threads ++ [Thread.mk i .looping .cleared]).length := by simp
  refine ⟨fun t th there => ?_, fun x among => Nat.lt_of_lt_of_le (inv.taken x among) longer,
    fun x among => Nat.lt_of_lt_of_le (inv.cout x among) longer⟩
  rcases of_concat there with old | ⟨rfl, rfl⟩
  · exact inv.handled t th old
  · rw [takenBy_new inv.taken, writtenBy_new inv.cout]
    exact ⟨[], [], true, rfl, rfl, rfl⟩

end

/-- What has come to a socket has been taken from it in order, but for what is still there. -/
structure Queued (sockets : List Socket) (taken : List Taking) : Prop where
  arrived : ∀ (d : Nat) s, sockets[d]? = some s → s.arrived = takenFrom taken d ++ s.unread
  unused : ∀ d, sockets.length ≤ d → takenFrom taken d = []

theorem Queued.opened {sockets : List Socket} {taken : List Taking} (inv : Queued sockets taken) :
    Queued (sockets ++ [⟨[], []⟩]) taken := by
  refine ⟨fun d s there => ?_, fun d outside => inv.unused d ?_⟩
  · rcases of_concat there with old | ⟨rfl, rfl⟩
    · exact inv.arrived d s old
    · rw [inv.unused sockets.length (Nat.le_refl _)]
      rfl
  · rw [List.length_append] at outside
    exact Nat.le_trans (Nat.le_add_right _ _) outside

/-- One socket and what is taken from it change. -/
theorem Queued.changed {sockets : List Socket} {taken : List Taking} (inv : Queued sockets taken)
    {d : Nat} {s : Socket} (there : sockets[d]? = some s) (s' : Socket) (more : List Taking)
    (same : ∀ x ∈ more, x.socket = d)
    (next : s'.arrived = takenFrom taken d ++ takenFrom more d ++ s'.unread) :
    Queued (sockets.set d s') (taken ++ more) := by
  have inside : d < sockets.length := (List.getElem?_eq_some_iff.mp there).1
  have split : ∀ e, takenFrom (taken ++ more) e = takenFrom taken e ++ takenFrom more e := by
    intro e
    rw [takenFrom, List.filter_append, List.filterMap_append]
    rfl
  have elsewhere : ∀ e, d ≠ e → takenFrom more e = [] := by
    intro e apart
    rw [takenFrom, List.filter_eq_nil_iff.mpr, List.filterMap_nil]
    intro x among
    simpa [same x among] using apart
  refine ⟨fun e v found => ?_, fun e outside => ?_⟩
  · rw [split]
    rcases of_set found with ⟨rfl, rfl⟩ | ⟨apart, found⟩
    · exact next
    · rw [elsewhere e (Ne.symm apart), List.append_nil]
      exact inv.arrived e v found
  · rw [List.length_set] at outside
    have apart : d ≠ e := by omega
    rw [split, elsewhere e apart, inv.unused e outside]
    rfl

/-- A `recv` that fails takes no packet. -/
theorem Queued.failed {sockets : List Socket} {taken : List Taking} (inv : Queued sockets taken)
    (t d : Nat) : Queued sockets (taken ++ [⟨t, d, .error⟩]) := by
  have same : ∀ e, takenFrom (taken ++ [⟨t, d, .error⟩]) e = takenFrom taken e := by
    intro e
    by_cases here : d = e <;> simp [takenFrom, packet, here]
  exact ⟨fun e s there => same e ▸ inv.arrived e s there,
    fun e outside => (same e).trans (inv.unused e outside)⟩

structure Accounted (tlayer : Transport) (vcodec : VideoCodec) (st : Client) : Prop where
  separate : Separate tlayer vcodec st.threads st.taken st.cout
  queued : Queued st.sockets st.taken

theorem start_accounted (tlayer : Transport) (vcodec : VideoCodec) :
    Accounted tlayer vcodec start where
  separate := ⟨nofun, nofun, nofun⟩
  queued := ⟨nofun, fun _ _ => rfl⟩

theorem stepped_accounted {tlayer : Transport} {vcodec : VideoCodec} {st st' : Client}
    (inv : Accounted tlayer vcodec st) (h : Stepped tlayer vcodec st st') :
    Accounted tlayer vcodec st' := by
  obtain ⟨separate, queued⟩ := inv
  cases h with
  | turns setup => exact ⟨separate, queued⟩
  | opens i => exact ⟨separate, queued.opened⟩
  | starts i setup => exact ⟨separate.started i, queued⟩
  | arrives d piece s there =>
    refine ⟨separate, ?_⟩
    have arrived := queued.arrived d s there
    have next := queued.changed there ⟨s.arrived ++ [piece], s.unread ++ [piece]⟩ [] nofun
      (by simp [takenFrom, arrived])
    rwa [List.append_nil] at next
  | blocks t d th here pc current =>
    obtain ⟨iPortNum, _, buffers⟩ := th
    obtain rfl := pc
    exact ⟨separate.moves here id, queued⟩
  | handles t th result r out here pc handled =>
    obtain ⟨iPortNum, _, buffers⟩ := th
    obtain rfl := pc
    exact ⟨separate.moves here fun h => h.handles handled _, queued⟩
  | writes t th byte bytes clears here pc =>
    obtain ⟨iPortNum, _, buffers⟩ := th
    obtain rfl := pc
    have moved := separate.moved here [] [byte] 0 fun h => by
      simpa only [List.append_nil] using h.writes
    exact ⟨by simpa only [List.map_cons, List.map_nil, List.append_nil] using moved, queued⟩
  | loops t th clears here pc =>
    obtain ⟨iPortNum, _, buffers⟩ := th
    obtain rfl := pc
    exact ⟨separate.moves here id, queued⟩
  | takes t d th s piece unread here pc there first =>
    obtain ⟨iPortNum, _, buffers⟩ := th
    obtain rfl := pc
    have moved := separate.moved here [.data piece] [] d fun h => by
      simpa only [List.append_nil] using h.takes (.data piece)
    refine ⟨by simpa only [List.map_cons, List.map_nil, List.append_nil] using moved,
      queued.changed there { s with unread := unread } _ (by simp) ?_⟩
    rw [queued.arrived d s there, first]
    simp [takenFrom, packet]
  | fails t d th here pc =>
    obtain ⟨iPortNum, _, buffers⟩ := th
    obtain rfl := pc
    have moved := separate.moved here [.error] [] d fun h => by
      simpa only [List.append_nil] using h.takes .error
    exact ⟨by simpa only [List.map_cons, List.map_nil, List.append_nil] using moved,
      queued.failed t d⟩

theorem run_accounted {tlayer : Transport} {vcodec : VideoCodec} {iNumUDPPorts : Nat}
    {es : List Event} {st : Client}
    (run : TraceMachine.run (step tlayer vcodec iNumUDPPorts) start es = some st) :
    Accounted tlayer vcodec st :=
  TraceMachine.invariant_of_run _
    (fun _ _ _ inv h => stepped_accounted inv (stepped_of_step h))
    (start_accounted tlayer vcodec) run

/-- In every run, whatever SETUP replaces and however the threads interleave: what has come to a
socket has been taken from it in order, each packet by one thread, but for what is still there, and
each thread has written what a lone `startClientUDP` writes of the packets the thread has taken, but
for the packet and the bytes that it still holds. -/
theorem packets_accounted {tlayer : Transport} {vcodec : VideoCodec} {iNumUDPPorts : Nat}
    {es : List Event} {st : Client}
    (run : TraceMachine.run (step tlayer vcodec iNumUDPPorts) start es = some st) :
    (∀ (d : Nat) s, st.sockets[d]? = some s →
      s.arrived = takenFrom st.taken d ++ s.unread) ∧
    (∀ x ∈ st.taken, x.thread < st.threads.length) ∧
    (∀ x ∈ st.cout, x.1 < st.threads.length) ∧
    ∀ (t : Nat) th, st.threads[t]? = some th → ∃ handled r outs,
      takenBy st.taken t = handled ++ inHand th.pc ∧
      receiveAll tlayer vcodec th.iPortNum .cleared handled = some (r, outs) ∧
      outs.flatten = writtenBy st.cout t ++ unwritten th.pc := by
  have inv := run_accounted run
  refine ⟨inv.queued.arrived, inv.separate.taken, inv.separate.cout, fun t th here => ?_⟩
  obtain ⟨handled, outs, b, same, ran, joined⟩ := inv.separate.handled t th here
  exact ⟨handled, _, outs, same, ran, joined⟩

/-- The threads of two SETUPs handle a packet each and write in turns; one has a byte left. -/
theorem bytes_written_in_turns : ∃ st,
    TraceMachine.run (step .useTCP .useH264 1) start [.setup, .setup, .setup, .act 0, .setup,
        .setup, .setup, .act 1, .arrives 0 [31, 32], .arrives 1 [41], .recv 1, .recv 0, .act 1,
        .act 0, .act 0, .act 1] = some st ∧
      st.cout = [(0, 31), (1, 41)] ∧
      (∃ r outs, receiveAll .useTCP .useH264 0 .cleared [.data [31, 32]] = some (r, outs) ∧
        outs.flatten = [31] ++ [32]) ∧
      ∃ r outs, receiveAll .useTCP .useH264 0 .cleared [.data [41]] = some (r, outs) ∧
        outs.flatten = [41] ++ [] := by
  obtain ⟨st, run, cout, taken, th, th', here, here', port, port', held, held', left, left'⟩ :
      ∃ st, TraceMachine.run (step .useTCP .useH264 1) start [.setup, .setup, .setup, .act 0,
          .setup, .setup, .setup, .act 1, .arrives 0 [31, 32], .arrives 1 [41], .recv 1, .recv 0,
          .act 1, .act 0, .act 0, .act 1] = some st ∧
        st.cout = [(0, 31), (1, 41)] ∧
        st.taken = [⟨1, 1, .data [41]⟩, ⟨0, 0, .data [31, 32]⟩] ∧
        ∃ th th', st.threads[0]? = some th ∧ st.threads[1]? = some th' ∧
          th.iPortNum = 0 ∧ th'.iPortNum = 0 ∧ inHand th.pc = [] ∧ inHand th'.pc = [] ∧
          unwritten th.pc = [32] ∧ unwritten th'.pc = [] :=
    ⟨_, rfl, rfl, rfl, _, _, rfl, rfl, rfl, rfl, rfl, rfl, rfl, rfl⟩
  obtain ⟨_, _, _, threads⟩ := packets_accounted run
  obtain ⟨handled, r, outs, all, ran, joined⟩ := threads 0 th here
  obtain ⟨handled', r', outs', all', ran', joined'⟩ := threads 1 th' here'
  rw [taken, held, List.append_nil] at all
  rw [taken, held', List.append_nil] at all'
  rw [← all, port] at ran
  rw [← all', port'] at ran'
  rw [cout, left] at joined
  rw [cout, left'] at joined'
  exact ⟨st, run, cout, ⟨r, outs, ran, joined⟩, r', outs', ran', joined'⟩

/-- The results taken from a socket, and the threads inside `recv` on it. -/
def takings (taken : List Taking) (d : Nat) : Nat := taken.countP fun x => x.socket == d

def inside (d : Nat) : ThreadPc → Bool
  | .receiving e => e == d
  | .looping | .received _ | .writing _ _ => false

def waiting (threads : List Thread) (d : Nat) : Nat := threads.countP fun th => inside d th.pc

/-- A socket that SETUP has replaced on its port. -/
structure Replaced (st : Client) (d : Nat) : Prop where
  created : d < st.sockets.length
  notCurrent : ∀ i, st.iUDPSock i ≠ some d

theorem waiting_set {threads : List Thread} {t : Nat} {th : Thread} (here : threads[t]? = some th)
    (th' : Thread) (d : Nat) :
    waiting (threads.set t th') d + (if inside d th.pc = true then 1 else 0) =
      waiting threads d + (if inside d th'.pc = true then 1 else 0) :=
  countP_set here th'

theorem waiting_kept {threads : List Thread} {t : Nat} {th th' : Thread}
    (here : threads[t]? = some th) {d : Nat} (same : inside d th'.pc = inside d th.pc) :
    waiting (threads.set t th') d = waiting threads d := by
  have counted := waiting_set here th' d
  rw [same] at counted
  exact Nat.add_right_cancel counted

theorem takings_append (taken : List Taking) (x : Taking) (d : Nat) :
    takings (taken ++ [x]) d = takings taken d + if (x.socket == d) = true then 1 else 0 := by
  rw [takings, List.countP_append, List.countP_singleton]
  rfl

/-- A thread comes out of `recv` with what it takes. -/
theorem left_recv {threads : List Thread} {t d : Nat} {th : Thread} (here : threads[t]? = some th)
    (pc : th.pc = .receiving d) (taken : List Taking) (result : RecvResult) (e : Nat) :
    takings (taken ++ [⟨t, d, result⟩]) e +
        waiting (threads.set t { th with pc := .received result }) e =
      takings taken e + waiting threads e := by
  have counted := waiting_set here { th with pc := .received result } e
  have grown := takings_append taken ⟨t, d, result⟩ e
  simp only [pc, inside, Bool.false_eq_true, if_false] at counted grown
  omega

/-- A replaced socket stays replaced, and a thread that takes from it has been inside `recv`. -/
theorem stepped_replaced {tlayer : Transport} {vcodec : VideoCodec} {st st' : Client} {d : Nat}
    (replaced : Replaced st d) (h : Stepped tlayer vcodec st st') :
    Replaced st' d ∧ takings st'.taken d + waiting st'.threads d =
      takings st.taken d + waiting st.threads d := by
  obtain ⟨created, notCurrent⟩ := replaced
  cases h with
  | turns setup => exact ⟨⟨created, notCurrent⟩, rfl⟩
  | opens i =>
    refine ⟨⟨by rw [List.length_append]; exact Nat.lt_succ_of_lt created, fun j => ?_⟩, rfl⟩
    change Function.update st.iUDPSock i (some st.sockets.length) j ≠ some d
    by_cases same : j = i
    · subst same
      rw [Function.update_self]
      exact fun current => Nat.ne_of_gt created (Option.some.inj current)
    · rw [Function.update_of_ne same]
      exact notCurrent j
  | starts i setup =>
    refine ⟨⟨created, notCurrent⟩, ?_⟩
    simp [waiting, inside]
  | arrives e piece s there =>
    exact ⟨⟨by rw [List.length_set]; exact created, notCurrent⟩, rfl⟩
  | blocks t e th here pc current =>
    have apart : (e == d) = false := by
      rw [beq_eq_false_iff_ne]
      rintro rfl
      exact notCurrent th.iPortNum current
    exact ⟨⟨created, notCurrent⟩,
      congrArg (takings st.taken d + ·) (waiting_kept here (by rw [pc]; exact apart))⟩
  | handles t th result r out here pc handled =>
    exact ⟨⟨created, notCurrent⟩,
      congrArg (takings st.taken d + ·) (waiting_kept here (by rw [pc]; rfl))⟩
  | writes t th byte bytes clears here pc =>
    exact ⟨⟨created, notCurrent⟩,
      congrArg (takings st.taken d + ·) (waiting_kept here (by rw [pc]; rfl))⟩
  | loops t th clears here pc =>
    exact ⟨⟨created, notCurrent⟩,
      congrArg (takings st.taken d + ·) (waiting_kept here (by rw [pc]; rfl))⟩
  | takes t e th s piece unread here pc there first =>
    exact ⟨⟨by rw [List.length_set]; exact created, notCurrent⟩,
      left_recv here pc st.taken (.data piece) d⟩
  | fails t e th here pc =>
    exact ⟨⟨created, notCurrent⟩, left_recv here pc st.taken .error d⟩

theorem run_replaced {tlayer : Transport} {vcodec : VideoCodec} {iNumUDPPorts : Nat}
    {es : List Event} {st st' : Client} {d : Nat} (replaced : Replaced st d)
    (run : TraceMachine.run (step tlayer vcodec iNumUDPPorts) st es = some st') :
    Replaced st' d ∧ takings st'.taken d + waiting st'.threads d =
      takings st.taken d + waiting st.threads d := by
  induction es generalizing st with
  | nil =>
    cases run
    exact ⟨replaced, rfl⟩
  | cons e es ih =>
    obtain ⟨next, stepped, rest⟩ := (TraceMachine.run_cons _).mp run
    obtain ⟨kept, same⟩ := stepped_replaced replaced (stepped_of_step stepped)
    obtain ⟨replaced', later⟩ := ih kept rest
    exact ⟨replaced', later.trans same⟩

theorem takenFrom_length (taken : List Taking) (d : Nat) :
    (takenFrom taken d).length ≤ takings taken d := by
  rw [takings, List.countP_eq_length_filter]
  exact List.length_filterMap_le _ _

/-- Once SETUP has stored another socket for its port, a socket gives one more packet at most to
each thread that is inside `recv` on it, and all others that come to it stay there. -/
theorem replaced_socket_drains {tlayer : Transport} {vcodec : VideoCodec} {iNumUDPPorts : Nat}
    {es later : List Event} {st st' : Client} {d : Nat}
    (run : TraceMachine.run (step tlayer vcodec iNumUDPPorts) start es = some st)
    (replaced : Replaced st d)
    (run' : TraceMachine.run (step tlayer vcodec iNumUDPPorts) st later = some st') :
    Replaced st' d ∧
      takings st'.taken d + waiting st'.threads d = takings st.taken d + waiting st.threads d ∧
      ∀ s, st'.sockets[d]? = some s →
        s.arrived.length ≤ s.unread.length + takings st.taken d + waiting st.threads d := by
  obtain ⟨replaced', balance⟩ := run_replaced replaced run'
  refine ⟨replaced', balance, fun s there => ?_⟩
  have inv := run_accounted (TraceMachine.run_trans _ run run')
  have short := takenFrom_length st'.taken d
  rw [inv.queued.arrived d s there, List.length_append]
  omega

/-- A thread waits on the first socket while the second SETUP replaces it, and takes one packet. -/
theorem second_packet_stays : ∃ st st',
    TraceMachine.run (step .useUDP .useMJPEG 1) start
        [.setup, .setup, .setup, .act 0, .setup, .setup] = some st ∧
      TraceMachine.run (step .useUDP .useMJPEG 1) st
        [.arrives 0 [127, 33], .recv 0, .arrives 0 [127, 34]] = some st' ∧
      takings st'.taken 0 + waiting st'.threads 0 = takings st.taken 0 + waiting st.threads 0 := by
  obtain ⟨st, st', run, run', created, current⟩ : ∃ st st',
      TraceMachine.run (step .useUDP .useMJPEG 1) start
          [.setup, .setup, .setup, .act 0, .setup, .setup] = some st ∧
        TraceMachine.run (step .useUDP .useMJPEG 1) st
          [.arrives 0 [127, 33], .recv 0, .arrives 0 [127, 34]] = some st' ∧
        0 < st.sockets.length ∧ st.iUDPSock =
          Function.update (Function.update (fun _ => none) 0 (some 0)) 0 (some 1) :=
    ⟨_, _, rfl, rfl, Nat.zero_lt_succ 1, rfl⟩
  have notCurrent : ∀ i, st.iUDPSock i ≠ some 0 := by
    intro i
    rw [current]
    by_cases first : i = 0
    · subst first
      rw [Function.update_self]
      exact fun same => Nat.one_ne_zero (Option.some.inj same)
    · rw [Function.update_of_ne first, Function.update_of_ne first]
      exact (Option.some_ne_none 0).symm
  exact ⟨st, st', run, run', (replaced_socket_drains run ⟨created, notCurrent⟩ run').2.1⟩

end ClientThreads
