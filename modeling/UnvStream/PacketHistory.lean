import UnvStream.PacketObjects
import UnvStream.RtpRoundTrip

/-!
# What a parsed packet owes to earlier ones

Two programs construct different packets and then parse the same bytes. From a packet that
holds a header the accessors return the same in both, and from a shorter one they return
what each program had before. A packet beyond its buffer, or beyond the client's arrays, is
not parsed at all.
-/

namespace PacketHistory

open CheckedMemory RtpPacket PacketObjects

variable {side : Side}

/-- The array that an accessor fills has room for a packet of this size. -/
def HasRoom (packetSize : Int32) : Accessor → Prop
  | .getpayload n _ => packetSize.toInt ≤ n + 12
  | .getpacket n _ => packetSize.toInt ≤ n
  | _ => True

/-- The packet is parsed whatever has been constructed before, and the accessors called right
behind return, and return the same. -/
def HistoryFree (side : Side) {m : Nat} (packet : Vector Int8 m) (packetSize : Int32) : Prop :=
  ∀ (before1 before2 : List Event) (st1 st2 : Objects side),
    TraceMachine.run step ⟨Globals.cleared side, []⟩ before1 = some st1 →
    TraceMachine.run step ⟨Globals.cleared side, []⟩ before2 = some st2 →
    ∃ g1 g2, parseRTPpacket st1.globals packet packetSize = some g1 ∧
      parseRTPpacket st2.globals packet packetSize = some g2 ∧
      ∀ accessor, HasRoom packetSize accessor →
        ∃ result, observe g1 accessor = some result ∧ observe g2 accessor = some result

/-- The accessors read the header and payload bytes and the three interpreted fields. -/
theorem observe_packed {g1 g2 : Globals side} {front body : List Int8}
    (packed1 : Packed g1 front body) (packed2 : Packed g2 front body) (len : front.length = 12)
    (small : body.length < 2 ^ 31) (type : g1.payloadType = g2.payloadType)
    (sequence : g1.sequenceNumber = g2.sequenceNumber) (time : g1.timeStamp = g2.timeStamp)
    (accessor : Accessor) : observe g1 accessor = observe g2 accessor := by
  have size := packed1.size.trans packed2.size.symm
  have count : passes g2.payloadSize = body.length := by
    rw [packed2.size, passes_ofNat small]
  have twelve : passes headerSize = front.length := len.symm
  cases accessor with
  | getpayload n data =>
    simp only [observe, getpayload, size, count, packed1.payload.copy, packed2.payload.copy]
  | getpayloadLength => exact congrArg (fun x => some ([], x)) size
  | getlength => exact congrArg (fun x => some ([], x + headerSize)) size
  | getpacket n packet =>
    simp only [observe, getpacket, size, count, twelve, packed1.header.copy, packed2.header.copy,
      packed1.payload.copy, packed2.payload.copy]
  | gettimestamp => exact congrArg (fun x => some ([], x)) time
  | getsequencenumber => exact congrArg (fun x => some ([], x)) sequence
  | getpayloadtype => exact congrArg (fun x => some ([], x)) type

/-- A packet with a header is parsed inside its own bytes and the arrays of its side. -/
theorem parse_inside {g g' : Globals side} {m : Nat} {packet : Vector Int8 m} {n : Nat}
    (small : n + 12 < 2 ^ 31)
    (parsed : parseRTPpacket g packet (Int32.ofNat (n + 12)) = some g') :
    12 + n ≤ m ∧ (side = .client → n ≤ maxBuff) := by
  obtain ⟨long, left⟩ := packet_size small
  have twelve : passes headerSize = 12 := rfl
  simp only [parseRTPpacket, if_pos long, left, twelve,
    passes_ofNat (by omega : n < 2 ^ 31)] at parsed
  obtain ⟨header, _, parsed⟩ := Option.bind_eq_some_iff.mp parsed
  obtain ⟨header', headed, parsed⟩ := Option.bind_eq_some_iff.mp parsed
  obtain ⟨payload, _, parsed⟩ := Option.bind_eq_some_iff.mp parsed
  obtain ⟨payload', loaded, _⟩ := Option.bind_eq_some_iff.mp parsed
  obtain ⟨_, headed, _⟩ := Option.map_eq_some_iff.mp headed
  obtain ⟨_, loaded, _⟩ := Option.map_eq_some_iff.mp loaded
  have front := copy_inside headed
  have behind := copy_inside loaded
  refine ⟨by omega, fun client => ?_⟩
  have fixed := payload.fixed client
  omega

theorem header_cells {front : List Int8} (len : front.length = 12) :
    ∃ (b0 b1 b2 b3 b4 b5 b6 b7 : Int8) (rest : List Int8), rest.length = 4 ∧
      front = b0 :: b1 :: b2 :: b3 :: b4 :: b5 :: b6 :: b7 :: rest := by
  match front, len with
  | b0 :: b1 :: b2 :: b3 :: b4 :: b5 :: b6 :: b7 :: rest, len =>
    simp only [List.length_cons] at len
    exact ⟨b0, b1, b2, b3, b4, b5, b6, b7, rest, by omega, rfl⟩

theorem observe_returns {g : Globals side} {front body : List Int8}
    (packed : Packed g front body) (len : front.length = 12) (small : body.length + 12 < 2 ^ 31)
    {accessor : Accessor} (room : HasRoom (Int32.ofNat (body.length + 12)) accessor) :
    ∃ result, observe g accessor = some result := by
  cases accessor with
  | getpayload n data =>
    rw [HasRoom, Int32.toInt_ofNat_of_lt small] at room
    obtain ⟨_, copied, _⟩ :=
      RtpRoundTrip.getpayload_spec packed (by omega) data (by omega : body.length ≤ n)
    exact ⟨_, congrArg (Option.map _) copied⟩
  | getpacket n packet =>
    rw [HasRoom, Int32.toInt_ofNat_of_lt small] at room
    obtain ⟨_, copied, _⟩ :=
      getpacket_spec packed len (by omega) packet (by omega : 12 + body.length ≤ n)
    exact ⟨_, congrArg (Option.map _) copied⟩
  | getpayloadLength | getlength | gettimestamp | getsequencenumber | getpayloadtype =>
    exact ⟨_, rfl⟩

/-- A packet with a header leaves the accessors nothing of the globals before it. -/
theorem parse_long (g1 g2 : Globals side) {m : Nat} (packet : Vector Int8 m) {n : Nat}
    (small : n + 12 < 2 ^ 31) (readable : 12 + n ≤ m) (fits : side = .client → n ≤ maxBuff) :
    ∃ g1' g2', parseRTPpacket g1 packet (Int32.ofNat (n + 12)) = some g1' ∧
      parseRTPpacket g2 packet (Int32.ofNat (n + 12)) = some g2' ∧
      ∀ accessor, HasRoom (Int32.ofNat (n + 12)) accessor →
        ∃ result, observe g1' accessor = some result ∧ observe g2' accessor = some result := by
  obtain ⟨b0, b1, b2, b3, b4, b5, b6, b7, rest, four, front⟩ :=
    header_cells (region_length packet (by omega : 0 + 12 ≤ m))
  obtain ⟨body, len, content⟩ :
      ∃ body, body.length = n ∧ region packet 0 (12 + n) = region packet 0 12 ++ body :=
    ⟨region packet 12 n, region_length packet readable, region_append packet 0 12 n⟩
  subst len
  rw [front] at content
  have twelve : (b0 :: b1 :: b2 :: b3 :: b4 :: b5 :: b6 :: b7 :: rest).length = 12 := by
    simp only [List.length_cons, four]
  obtain ⟨g1', parsed1, packed1, type1, sequence1, time1⟩ :=
    parse_spec g1 packet four small readable fits content
  obtain ⟨g2', parsed2, packed2, type2, sequence2, time2⟩ :=
    parse_spec g2 packet four small readable fits content
  refine ⟨g1', g2', parsed1, parsed2, fun accessor room => ?_⟩
  obtain ⟨result, observed⟩ := observe_returns packed1 twelve small room
  have same := observe_packed packed1 packed2 twelve (by omega) (type1.trans type2.symm)
    (sequence1.trans sequence2.symm) (time1.trans time2.symm) accessor
  exact ⟨result, observed, same ▸ observed⟩

/-- After a packet without a header, the time is the one of the last packet built. -/
theorem short_keeps_time (side : Side) (time : Int32) {m : Nat} (packet : Vector Int8 m)
    {packetSize : Int32} (short : ¬ headerSize ≤ packetSize) :
    ∃ st, TraceMachine.run step ⟨Globals.cleared side, []⟩ [.build 26 0 time 0 #v[] 0] = some st ∧
      ∀ g, parseRTPpacket st.globals packet packetSize = some g →
        observe g .gettimestamp = some ([], time) := by
  obtain ⟨g, built, stamped⟩ := step_build_empty ⟨Globals.cleared side, []⟩ time
  refine ⟨_, (TraceMachine.run_cons step).mpr ⟨_, built, rfl⟩, fun g' parsed => ?_⟩
  rw [parse_short short parsed]
  simp only [observe, gettimestamp, stamped]

/-- Two histories, of a packet of time 1 and of a packet of time 2, are told apart. -/
theorem short_not_free (side : Side) {m : Nat} (packet : Vector Int8 m) {packetSize : Int32}
    (short : ¬ headerSize ≤ packetSize) : ¬ HistoryFree side packet packetSize := by
  intro free
  obtain ⟨st1, ran1, first⟩ := short_keeps_time side 1 packet short
  obtain ⟨st2, ran2, second⟩ := short_keeps_time side 2 packet short
  obtain ⟨g1, g2, parsed1, parsed2, same⟩ := free _ _ st1 st2 ran1 ran2
  obtain ⟨result, observed1, observed2⟩ := same .gettimestamp trivial
  have one := (first g1 parsed1).symm.trans observed1
  have two := (second g2 parsed2).symm.trans observed2
  have times : (1 : Int32) = 2 := congrArg Prod.snd (Option.some.inj (one.trans two.symm))
  exact absurd times (by decide)

/-- A packet is parsed independently of earlier ones exactly if it holds a header and lies in
its buffer and, on the client, in the arrays of the class. -/
theorem history_free_iff (side : Side) {m : Nat} (packet : Vector Int8 m) (packetSize : Int32) :
    HistoryFree side packet packetSize ↔
      headerSize ≤ packetSize ∧ packetSize.toInt ≤ m ∧
        (side = .client → packetSize.toInt ≤ 64012) := by
  have counted (long : headerSize ≤ packetSize) :
      ∃ n, n + 12 < 2 ^ 31 ∧ packetSize = Int32.ofNat (n + 12) := by
    have covers : 12 ≤ packetSize.toInt := Int32.le_iff_toInt_le.mp long
    have bounded := packetSize.toInt_lt
    refine ⟨packetSize.toInt.toNat - 12, by omega, Int32.toInt_inj.mp ?_⟩
    rw [Int32.toInt_ofNat_of_lt (by omega)]
    omega
  constructor
  · intro free
    by_cases long : headerSize ≤ packetSize
    · obtain ⟨n, small, rfl⟩ := counted long
      obtain ⟨g, _, parsed, _⟩ := free [] [] _ _ rfl rfl
      obtain ⟨readable, fits⟩ := parse_inside small parsed
      have arrays : maxBuff = 64000 := rfl
      rw [Int32.toInt_ofNat_of_lt small]
      exact ⟨long, by omega, fun client => by have := fits client; omega⟩
    · exact absurd free (short_not_free side packet long)
  · rintro ⟨long, readable, fits⟩ before1 before2 st1 st2 _ _
    obtain ⟨n, small, rfl⟩ := counted long
    rw [Int32.toInt_ofNat_of_lt small] at readable fits
    have arrays : maxBuff = 64000 := rfl
    exact parse_long st1.globals st2.globals packet small (by omega)
      fun client => by have := fits client; omega

/-- The client parses an empty datagram. -/
theorem empty_datagram_keeps_fields : ¬ HistoryFree .client (#v[] : Vector Int8 0) 0 :=
  short_not_free .client #v[] (by decide : ¬ headerSize ≤ (0 : Int32))

end PacketHistory
