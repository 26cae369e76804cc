import UnvStream.RtpPacket
import UnvStream.TraceMachine

/-!
# Several `RTPpacket` objects at a time

Any number of objects is constructed and asked in any order. The class has no fields: the
accessors of every object read the globals, which the constructor that ran last has set.
-/

namespace PacketObjects

open CheckedMemory RtpPacket

variable {side : Side}

/-- An accessor, with the array it is given to fill. -/
inductive Accessor where
  | getpayload (n : Nat) (data : Vector Int8 n)
  | getpayloadLength
  | getlength
  | getpacket (n : Nat) (packet : Vector Int8 n)
  | gettimestamp
  | getsequencenumber
  | getpayloadtype

/-- What an accessor leaves in its array and returns. -/
def observe (g : Globals side) : Accessor → Option (List Int8 × Int32)
  | .getpayload _ data => (getpayload g data).map fun result => (result.1.toList, result.2)
  | .getpayloadLength => some ([], getpayloadLength g)
  | .getlength => some ([], getlength g)
  | .getpacket _ packet => (getpacket g packet).map fun result => (result.1.toList, result.2)
  | .gettimestamp => some ([], gettimestamp g)
  | .getsequencenumber => some ([], getsequencenumber g)
  | .getpayloadtype => some ([], getpayloadtype g)

/-- An object by the globals its constructor left, and whether the constructor set what the
accessors read. -/
structure Object (side : Side) where
  fields : Globals side
  filled : Bool

structure Objects (side : Side) where
  globals : Globals side
  constructed : List (Object side)

inductive Event where
  | build (pType framenb time : Int32) (m : Nat) (arrIn : Vector Int8 m) (size : Int32)
  | parse (m : Nat) (packet : Vector Int8 m) (packetSize : Int32)
  | access (id : Nat) (accessor : Accessor)

/-- Objects are numbered in the order of their construction. -/
def step (st : Objects side) : Event → Option (Objects side)
  | .build pType framenb time _ arrIn size =>
    (buildRTPpacket st.globals pType framenb time arrIn size).map fun g =>
      ⟨g, st.constructed ++ [⟨g, true⟩]⟩
  | .parse _ packet packetSize =>
    (parseRTPpacket st.globals packet packetSize).map fun g =>
      ⟨g, st.constructed ++ [⟨g, decide (headerSize ≤ packetSize)⟩]⟩
  | .access id accessor =>
    if id < st.constructed.length then (observe st.globals accessor).map fun _ => st else none

/-- An accessor returns what it would have returned right after its object was constructed. -/
def ReturnsAsConstructed (st : Objects side) : Event → Prop
  | .build .. | .parse .. => True
  | .access id accessor => ∀ object, st.constructed[id]? = some object →
      observe st.globals accessor = observe object.fields accessor

/-- The object asked was constructed after the last constructor that set the fields, or by
that constructor. -/
def Undisturbed (st : Objects side) : Event → Prop
  | .build .. | .parse .. => True
  | .access id _ => ∀ later ∈ st.constructed.drop (id + 1), later.filled = false

/-- An object that no later constructor has disturbed is still in the globals. -/
def Kept (st : Objects side) : Prop :=
  ∀ id object, st.constructed[id]? = some object →
    (∀ later ∈ st.constructed.drop (id + 1), later.filled = false) →
    ∀ accessor, observe st.globals accessor = observe object.fields accessor

/-- A packet shorter than a header changes nothing an accessor reads. -/
theorem parse_short {g g' : Globals side} {m : Nat} {packet : Vector Int8 m}
    {packetSize : Int32} (short : ¬ headerSize ≤ packetSize)
    (parsed : parseRTPpacket g packet packetSize = some g') (accessor : Accessor) :
    observe g' accessor = observe g accessor := by
  simp only [parseRTPpacket, if_neg short, Option.pure_def] at parsed
  obtain rfl := Option.some.inj parsed
  cases accessor <;> rfl

/-- The constructor that ran last keeps its own object, and the others unless it set the
fields. -/
theorem kept_construct {st : Objects side} {g : Globals side} {filled : Bool} (kept : Kept st)
    (same : filled = false → ∀ accessor, observe g accessor = observe st.globals accessor) :
    Kept ⟨g, st.constructed ++ [⟨g, filled⟩]⟩ := by
  intro id object there undisturbed accessor
  by_cases old : id < st.constructed.length
  · have drop : (st.constructed ++ [Object.mk g filled]).drop (id + 1) =
        st.constructed.drop (id + 1) ++ [⟨g, filled⟩] := List.drop_append_of_le_length old
    simp only [drop] at undisturbed
    rw [List.getElem?_append_left old] at there
    have quiet : filled = false := undisturbed ⟨g, filled⟩ (by simp)
    have earlier : ∀ later ∈ st.constructed.drop (id + 1), later.filled = false :=
      fun later hlater => undisturbed later (List.mem_append_left _ hlater)
    exact (same quiet accessor).trans (kept id object there earlier accessor)
  · rw [List.getElem?_append_right (Nat.le_of_not_lt old)] at there
    obtain rfl := List.mem_singleton.mp (List.mem_of_getElem? there)
    rfl

theorem kept_step {st st' : Objects side} {e : Event} (kept : Kept st)
    (stepped : step st e = some st') : Kept st' := by
  cases e with
  | build pType framenb time m arrIn size =>
    simp only [step] at stepped
    obtain ⟨g, _, rfl⟩ := Option.map_eq_some_iff.mp stepped
    exact kept_construct kept nofun
  | parse m packet packetSize =>
    simp only [step] at stepped
    obtain ⟨g, parsed, rfl⟩ := Option.map_eq_some_iff.mp stepped
    exact kept_construct kept fun short accessor =>
      parse_short (of_decide_eq_false short) parsed accessor
  | access id accessor =>
    simp only [step] at stepped
    split at stepped
    · obtain ⟨_, _, rfl⟩ := Option.map_eq_some_iff.mp stepped
      exact kept
    · cases stepped

theorem kept_start (g : Globals side) : Kept ⟨g, []⟩ := by
  intro id object there
  cases there

theorem build_timeStamp {g g' : Globals side} {pType framenb time size : Int32} {m : Nat}
    {arrIn : Vector Int8 m} (built : buildRTPpacket g pType framenb time arrIn size = some g') :
    g'.timeStamp = time := by
  obtain ⟨_, _, built⟩ := Option.bind_eq_some_iff.mp built
  obtain ⟨_, _, built⟩ := Option.bind_eq_some_iff.mp built
  obtain ⟨_, _, built⟩ := Option.bind_eq_some_iff.mp built
  obtain ⟨_, _, built⟩ := Option.bind_eq_some_iff.mp built
  exact (congrArg Globals.timeStamp (Option.some.inj built)).symm

/-- A packet without payload can be built in any state. -/
theorem build_empty (g : Globals side) (time : Int32) :
    ∃ g', buildRTPpacket g 26 0 time (#v[] : Vector Int8 0) 0 = some g' ∧ g'.timeStamp = time := by
  obtain ⟨g', built, _⟩ := build_spec g 26 0 time (#v[] : Vector Int8 0) (by decide : 0 < 2 ^ 31)
    (Nat.le_refl 0) (fun _ => Nat.zero_le _)
  exact ⟨g', built, build_timeStamp built⟩

theorem step_build_empty (st : Objects side) (time : Int32) :
    ∃ g, step st (.build 26 0 time 0 #v[] 0) = some ⟨g, st.constructed ++ [⟨g, true⟩]⟩ ∧
      g.timeStamp = time := by
  obtain ⟨g, built, stamped⟩ := build_empty st.globals time
  exact ⟨g, congrArg (Option.map _) built, stamped⟩

/-- An object answers with the time of the packet that was constructed over it. -/
theorem overwritten {st : Objects side} {g : Globals side} {filled : Bool} {id : Nat}
    {object : Object side} (there : st.constructed[id]? = some object)
    (stamps : g.timeStamp ≠ object.fields.timeStamp) :
    ¬ ReturnsAsConstructed ⟨g, st.constructed ++ [⟨g, filled⟩]⟩ (.access id .gettimestamp) := by
  intro returns
  have old : id < st.constructed.length := (List.getElem?_eq_some_iff.mp there).1
  have same := returns object ((List.getElem?_append_left old).trans there)
  exact stamps (congrArg Prod.snd (Option.some.inj same))

/-- Accessors return what they would have returned right after the construction of their
object, in every run that asks undisturbed objects only; and any object can be disturbed at
any time by one more construction. -/
theorem independent_while_undisturbed (side : Side) :
    (∀ (g : Globals side) (es : List Event),
      TraceMachine.Along step Undisturbed ⟨g, []⟩ es →
      TraceMachine.Along step ReturnsAsConstructed ⟨g, []⟩ es) ∧
    ∀ (st : Objects side) (id : Nat) (object : Object side), st.constructed[id]? = some object →
      ∃ e st', step st e = some st' ∧ ¬ ReturnsAsConstructed st' (.access id .gettimestamp) := by
  constructor
  · intro g es along
    refine TraceMachine.along_of_invariant step (fun _ _ _ => kept_step) ?_ (kept_start g) along
    intro st e kept undisturbed
    cases e with
    | build | parse => trivial
    | access id accessor => exact fun object there => kept id object there undisturbed accessor
  · intro st id object there
    obtain ⟨g, built, stamped⟩ := step_build_empty st (object.fields.timeStamp + 1)
    refine ⟨_, _, built, overwritten there ?_⟩
    rw [stamped]
    simp

/-- A packet is built and asked for its time after a datagram too short to parse. -/
theorem object_beside_short_packet : ∃ st,
    TraceMachine.run step ⟨Globals.cleared .client, []⟩
      [.build 26 0 7 0 #v[] 0, .parse 2 #v[1, 2] 2, .access 0 .gettimestamp] = some st ∧
    TraceMachine.Along step ReturnsAsConstructed ⟨Globals.cleared .client, []⟩
      [.build 26 0 7 0 #v[] 0, .parse 2 #v[1, 2] 2, .access 0 .gettimestamp] := by
  obtain ⟨g, built, _⟩ := step_build_empty ⟨Globals.cleared .client, []⟩ 7
  refine ⟨_, (TraceMachine.run_cons step).mpr ⟨_, built, rfl⟩,
    (independent_while_undisturbed .client).1 _ _ ⟨trivial, fun st1 stepped1 => ?_⟩⟩
  obtain rfl := Option.some.inj (built.symm.trans stepped1)
  refine ⟨trivial, fun st2 stepped2 => ?_⟩
  obtain rfl := Option.some.inj stepped2
  refine ⟨fun later among => ?_, fun _ _ => trivial⟩
  obtain rfl := List.mem_singleton.mp among
  exact decide_eq_false (by decide : ¬ headerSize ≤ 2)

/-- Two packets are built, and the first is asked for its time. -/
theorem first_of_two_overwritten :
    ¬ TraceMachine.Along step ReturnsAsConstructed ⟨Globals.cleared .server, []⟩
      [.build 26 0 1 0 #v[] 0, .build 26 0 2 0 #v[] 0, .access 0 .gettimestamp] := by
  intro along
  obtain ⟨g1, built1, stamped1⟩ := step_build_empty ⟨Globals.cleared .server, []⟩ 1
  obtain ⟨g2, built2, stamped2⟩ := step_build_empty ⟨g1, [⟨g1, true⟩]⟩ 2
  have returns := (((along.2 _ built1).2 _ built2).1 :
    ReturnsAsConstructed ⟨g2, [⟨g1, true⟩] ++ [⟨g2, true⟩]⟩ (.access 0 .gettimestamp))
  have stamps : g2.timeStamp ≠ g1.timeStamp := by
    rw [stamped1, stamped2]
    decide
  exact @overwritten _ ⟨g1, [⟨g1, true⟩]⟩ g2 true 0 ⟨g1, true⟩ rfl stamps returns

end PacketObjects
