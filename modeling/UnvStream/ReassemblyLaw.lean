import UnvStream.ClientReceiver

/-!
# What the client makes of any sequence of datagrams

The fragmented handler writes out the payloads of all datagrams up to the last marked one
and holds those after it. Nothing of what happened before a marked datagram matters.
-/

namespace ReassemblyLaw

open CheckedMemory MarkedFraming Vocabulary FragmentLoop ClientReceiver

/-- The datagrams up to and including the last one whose first byte is 127. -/
def upToMark (received : List (List UInt8)) : List (List UInt8) :=
  received.rdropWhile fun d => !closesUnit d

def afterMark (received : List (List UInt8)) : List (List UInt8) :=
  received.rtakeWhile fun d => !closesUnit d

/-- From the state `r` the client writes `outs` for the datagrams and then holds the
payloads that came after the last mark. -/
def Reassembles (received outs : List (List UInt8)) (r : Receiver) : Prop :=
  ∃ r', receiveAll .useUDP .useMJPEG 0 r (received.map .data) = some (r', outs) ∧
    r'.iRTPPacketSizeLocal = (payload List.tail (afterMark received)).length ∧
    region r'.cRTPPayloadLocal 0 (payload List.tail (afterMark received)).length =
      payload List.tail (afterMark received)

theorem reassembles_of_empty {received : List (List UInt8)}
    (datagrams : ∀ d ∈ received, 1 ≤ d.length ∧ d.length ≤ buffSize)
    (room : Bounded closesUnit List.tail buffSize 0 received) {r : Receiver}
    (empty : r.iRTPPacketSizeLocal = 0) :
    Reassembles received (outputs closesUnit List.tail [] received) r := by
  have start : Collects r (payload List.tail []) := collects_nil empty
  obtain ⟨r', run, held⟩ := receiveAll_datagrams (show (0 : Nat) ≠ 1 by decide) received
    (fun d hd => List.length_pos_iff.mp (datagrams d hd).1) (fun d hd => (datagrams d hd).2)
    start room
  rw [leftover_eq_rtakeWhile] at held
  exact ⟨r', run, held.size, held.bytes⟩

/-- The header byte the handler tests is the first byte of the datagram. -/
theorem load_header {packet packet' : Vector UInt8 buffSize} {header : UInt8}
    {rest : List UInt8} (stored : storeAll packet 0 (header :: rest) = some packet') :
    load packet' 0 = some header := by
  have inside : 0 < buffSize := by decide
  have fits := (storeAll_isSome_iff packet 0 (header :: rest)).mp
    (Option.isSome_iff_exists.mpr ⟨packet', stored⟩)
  obtain ⟨packet'', stored', block, _⟩ := storeAll_spec packet 0 (header :: rest)
    (fits.resolve_left (List.cons_ne_nil _ _))
  obtain rfl := Option.some.inj (stored.symm.trans stored')
  exact (load_of_region inside block).1

theorem fragmentedBody_marked {r r' : Receiver} {iReceived : Int} {out : List UInt8}
    (header : load r.cRTPPacket 0 = some 127)
    (body : fragmentedBody r iReceived = some (r', out)) : r'.iRTPPacketSizeLocal = 0 := by
  obtain ⟨_, _, body⟩ := Option.bind_eq_some_iff.mp body
  simp only [header, Option.bind_eq_bind, Option.bind_some, if_true] at body
  obtain ⟨_, _, body⟩ := Option.bind_eq_some_iff.mp body
  exact (congrArg (fun p => p.1.iRTPPacketSizeLocal) (Option.some.inj body)).symm

/-- After a marked datagram nothing is held, whatever state the client was in. -/
theorem receivePass_marked {r r' : Receiver} {d out : List UInt8}
    (marked : closesUnit d = true)
    (pass : receivePass .useUDP .useMJPEG 0 r (.data d) = some (r', out)) :
    r'.iRTPPacketSizeLocal = 0 := by
  obtain ⟨packet, stored, pass⟩ := Option.bind_eq_some_iff.mp pass
  obtain ⟨header, rest, rfl⟩ : ∃ header rest, d = header :: rest := by
    cases d with
    | nil => cases marked
    | cons header rest => exact ⟨header, rest, rfl⟩
  obtain rfl : header = 127 := by simpa [closesUnit] using marked
  have first := load_header stored
  simp only [and_self, if_true, fragmentedHandler, ne_eq, Nat.zero_ne_one, not_false_eq_true]
    at pass
  by_cases hflag : r.flag = true
  · rw [if_pos hflag] at pass
    obtain ⟨⟨r1, out1⟩, body, same⟩ := Option.map_eq_some_iff.mp pass
    have cleared : r1.iRTPPacketSizeLocal = 0 := fragmentedBody_marked first body
    exact (congrArg (fun p => p.1.iRTPPacketSizeLocal) same).symm.trans cleared
  · rw [if_neg hflag] at pass
    exact fragmentedBody_marked first pass

/-- The reassembly law: one output for every state that holds nothing, whatever its flag
and its memory, and for every state a marked datagram leads to. -/
theorem reassembly_law (received : List (List UInt8))
    (datagrams : ∀ d ∈ received, 1 ≤ d.length ∧ d.length ≤ buffSize)
    (room : Bounded closesUnit List.tail buffSize 0 received) :
    ∃ outs, outs.flatten = payload List.tail (upToMark received) ∧
      (∀ r, r.iRTPPacketSizeLocal = 0 → Reassembles received outs r) ∧
      ∀ r marked r' out, closesUnit marked = true →
        receivePass .useUDP .useMJPEG 0 r (.data marked) = some (r', out) →
        Reassembles received outs r' := by
  refine ⟨outputs closesUnit List.tail [] received, ?_, ?_, ?_⟩
  · rw [outputs_flatten, groups_flatten_eq_rdropWhile]
    rfl
  · exact fun _ => reassembles_of_empty datagrams room
  · intro r marked r' out closing pass
    exact reassembles_of_empty datagrams room (receivePass_marked closing pass)

theorem three_datagrams_reassembled :
    ∃ outs, outs.flatten = [6, 7] ∧
      Reassembles [[3, 6], [127, 7], [0, 8]] outs Receiver.cleared := by
  obtain ⟨outs, written, fromEmpty, _⟩ := reassembly_law [[3, 6], [127, 7], [0, 8]]
    (by decide) (bounded_of_total closesUnit List.tail (by decide))
  exact ⟨outs, written.trans rfl, fromEmpty Receiver.cleared rfl⟩

end ReassemblyLaw
