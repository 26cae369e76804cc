import UnvStream.RtpPacket

/-!
# From one copy of `RTPpacket` to the other

The header bytes of the building constructor, read by the parsing one. The packets
go from either side to either side, whatever packets the two had before.
-/

namespace RtpRoundTrip

open CheckedMemory SignedBytes RtpPacket

/-- The sign repair gives the byte back as a number from 0 to 255. -/
theorem unsignedInt_char (c : Int8) :
    unsignedInt c.toInt32 = Int32.ofInt (c.toInt % 256) := by
  have low := c.le_toInt
  have high := c.toInt_lt
  have same : Int32.ofInt c.toInt = c.toInt32 := by
    rw [← Int8.toInt_toInt32, Int32.ofInt_toInt]
  have sign : (0 : Int32) ≤ c.toInt32 ↔ 0 ≤ c.toInt := by
    rw [Int32.le_iff_toInt_le, Int8.toInt_toInt32]
    rfl
  by_cases nonneg : (0 : Int32) ≤ c.toInt32
  · have value : c.toInt % 256 = c.toInt := by
      have := sign.mp nonneg
      omega
    rw [unsignedInt, if_pos nonneg, value, same]
  · have value : c.toInt % 256 = 256 + c.toInt := by
      have := mt sign.mpr nonneg
      omega
    rw [unsignedInt, if_neg nonneg, value, Int32.ofInt_add, same]
    rfl

theorem typeOf_encoded (pType : Int32) :
    (typeOf ((128 : Int32) ||| pType).toInt8).toInt = pType.toInt % 128 := by
  rw [typeOf, marked_low_bits, and_low_bits]

theorem sequenceOf_encoded (framenb : Int32) :
    (sequenceOf (byteAt framenb 8) framenb.toInt8).toInt = framenb.toInt % 65536 := by
  have sum : sequenceOf (byteAt framenb 8) framenb.toInt8 =
      Int32.ofInt (framenb.toInt % 2 ^ 16) := by
    rw [sequenceOf, unsignedInt_char, unsignedInt_char, toInt8_emod,
      byteAt_emod framenb (by omega), ← two_digits, Int32.ofInt_add, Int32.ofInt_mul]
    rfl
  rw [sum]
  exact Int32.toInt_ofInt_of_le (by omega) (by omega)

theorem timeOf_encoded (time : Int32) :
    timeOf (byteAt time 24) (byteAt time 16) (byteAt time 8) (byteAt time 0) = time := by
  have lowest : (byteAt time 0).toInt % 256 = time.toInt % 256 := by
    rw [byteAt_emod time (by omega), Int.pow_zero, Int.ediv_one]
  have sum : timeOf (byteAt time 24) (byteAt time 16) (byteAt time 8) (byteAt time 0) =
      Int32.ofInt (time.toInt % 2 ^ 32) := by
    simp only [timeOf, unsignedInt_char, lowest, byteAt_emod time (by omega : 8 < 32),
      byteAt_emod time (by omega : 16 < 32), byteAt_emod time (by omega : 24 < 32)]
    rw [← four_digits, Int32.ofInt_add, Int32.ofInt_add, Int32.ofInt_add, Int32.ofInt_mul,
      Int32.ofInt_mul, Int32.ofInt_mul]
    rfl
  rw [sum, ofInt_emod]

theorem getpayload_spec {side : Side} {n : Nat} {g : Globals side} {front body : List Int8}
    (packed : Packed g front body) (small : body.length < 2 ^ 31) (data : Vector Int8 n)
    (room : body.length ≤ n) :
    ∃ data', getpayload g data = some (data', Int32.ofNat body.length) ∧
      region data' 0 body.length = body := by
  have payloadRoom := packed.payload.room
  obtain ⟨data', copied, block, _⟩ := copy_spec g.payload.cells data
    (by omega : 0 + body.length ≤ g.payload.size) (by omega : 0 + body.length ≤ n)
  refine ⟨data', ?_, block.trans packed.payload.content⟩
  simp only [getpayload, packed.size, passes_ofNat small, copied, Option.bind_eq_bind,
    Option.bind_some, Option.pure_def]

/-- What one side builds, the other side parses: for all fields and every payload that
fits the client's arrays. -/
theorem packet_round_trip (near far : Side) (g : Globals near) (h : Globals far)
    (pType framenb time : Int32) {m n k : Nat} (arr : Vector Int8 m) (size : Nat)
    (bound : size ≤ maxBuff) (given : size ≤ m) (packet : Vector Int8 n)
    (room : size + 12 ≤ n) (data : Vector Int8 k) (dataRoom : size ≤ k) :
    ∃ g' packet' h' data',
      buildRTPpacket g pType framenb time arr (Int32.ofNat size) = some g' ∧
      getpacket g' packet = some (packet', Int32.ofNat (size + 12)) ∧
      parseRTPpacket h packet' (Int32.ofNat (size + 12)) = some h' ∧
      (getpayloadtype h').toInt = pType.toInt % 128 ∧
      (getsequencenumber h').toInt = framenb.toInt % 65536 ∧
      gettimestamp h' = time ∧
      getpayload h' data = some (data', Int32.ofNat size) ∧
      region data' 0 size = region arr 0 size ∧
      getpayloadLength h' = Int32.ofNat size := by
  have max : maxBuff = 64000 := rfl
  have len : (region arr 0 size).length = size := region_length arr (by omega)
  obtain ⟨g', built, packed⟩ :=
    build_spec g pType framenb time arr (by omega) given (fun _ => bound)
  obtain ⟨packet', got, content⟩ := getpacket_spec packed (encoded_length pType framenb time)
    (by omega) packet (by omega)
  obtain ⟨h', parsed, packed', type, sequence, timeStamp⟩ :=
    parse_spec h packet' (bigEndian_length 305419896 0 4) (by omega) (by omega)
      (fun _ => by omega) content
  obtain ⟨data', loaded, payload⟩ := getpayload_spec packed' (by omega) data (by omega)
  rw [len] at parsed loaded payload
  have total : g'.payloadSize + headerSize = Int32.ofNat (size + 12) := by
    rw [packed.size, len, Int32.ofNat_add]
    rfl
  refine ⟨g', packet', h', data', built, total ▸ got, parsed, ?_, ?_, ?_, loaded, payload, ?_⟩
  · exact (congrArg Int32.toInt type).trans (typeOf_encoded pType)
  · exact (congrArg Int32.toInt sequence).trans (sequenceOf_encoded framenb)
  · exact timeStamp.trans (timeOf_encoded time)
  · exact packed'.size.trans (congrArg Int32.ofNat len)

/-- A negative time and a sequence number that wraps. -/
theorem wrapped_fields_round_trip :
    ∃ g' packet' h',
      buildRTPpacket (Globals.cleared .server) 26 65539 (-2) #v[-1, 0, 127] 3 = some g' ∧
      getpacket g' (Vector.replicate 15 0) = some (packet', 15) ∧
      parseRTPpacket (Globals.cleared .client) packet' 15 = some h' ∧
      (getpayloadtype h').toInt = 26 ∧ (getsequencenumber h').toInt = 3 ∧
      gettimestamp h' = -2 := by
  obtain ⟨g', packet', h', _, built, got, parsed, type, sequence, time, _⟩ :=
    packet_round_trip .server .client (Globals.cleared .server) (Globals.cleared .client) 26
      65539 (-2) #v[-1, 0, 127] 3 (by decide) (by decide) (Vector.replicate 15 0) (by decide)
      (Vector.replicate 3 0) (by decide)
  exact ⟨g', packet', h', built, got, parsed, type, sequence, time⟩

end RtpRoundTrip
