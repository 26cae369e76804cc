import UnvStream.RtpRoundTrip

/-!
# The encoder's format

What `RTPpacket` writes, as a predicate on bytes. Parsing bytes of this form and building
a packet from what was parsed writes the same bytes again.
-/

namespace RtpReencoding

open CheckedMemory SignedBytes RtpPacket RtpRoundTrip

/-- Version 2 and nothing else in the first byte, the marker bit, any seven bits of type,
any sequence number and time, and the fixed source 305419896. -/
structure EncoderFormat (p : List Int8) : Prop where
  long : 12 ≤ p.length
  version : p.head? = some (-128)
  marked : ∀ b, p[1]? = some b → b.toBitVec.msb = true
  source : (p.drop 8).take 4 = [0x12, 0x34, 0x56, 0x78]

theorem ext_emod {a b : Int8} (same : a.toInt % 256 = b.toInt % 256) : a = b := by
  have := a.le_toInt
  have := a.toInt_lt
  have := b.le_toInt
  have := b.toInt_lt
  exact Int8.toInt_inj.mp (by omega)

/-- A byte of a word is known by its digit. -/
theorem byteAt_eq {x : Int32} {k : Nat} {b : Int8} (short : k < 32)
    (digit : x.toInt / 2 ^ k % 256 = b.toInt % 256) : byteAt x k = b :=
  ext_emod ((byteAt_emod x short).trans digit)

/-- The marker bit and the seven bits of the type are the whole byte. -/
theorem type_encoded {b : Int8} (marked : b.toBitVec.msb = true) :
    ((128 : Int32) ||| typeOf b).toInt8 = b := by
  apply Int8.toBitVec_inj.mp
  change (128#32 ||| (b.toBitVec.signExtend 32 &&& 127#32)).signExtend 8 = b.toBitVec
  apply BitVec.eq_of_getLsbD_eq
  intro i hi
  have wide : i < 32 := by omega
  rw [BitVec.getLsbD_signExtend, BitVec.getLsbD_or, BitVec.getLsbD_and, low_bits i wide,
    BitVec.getLsbD_signExtend]
  by_cases seven : i < 7
  · simp only [mark_bit i seven, seven, hi, wide, decide_true, if_true, Bool.true_and,
      Bool.and_true, Bool.false_or]
  · obtain rfl : i = 7 := by omega
    exact marked.symm

theorem marked_type (pType : Int32) : ((128 : Int32) ||| pType).toInt8.toBitVec.msb = true := by
  change ((128#32 ||| pType.toBitVec).signExtend 8).getLsbD 7 = true
  rw [BitVec.getLsbD_signExtend, BitVec.getLsbD_or]
  rfl

theorem sequenceOf_toInt (b2 b3 : Int8) :
    (sequenceOf b2 b3).toInt = b3.toInt % 256 + 256 * (b2.toInt % 256) := by
  have sum : sequenceOf b2 b3 = Int32.ofInt (b3.toInt % 256 + 256 * (b2.toInt % 256)) := by
    rw [sequenceOf, unsignedInt_char, unsignedInt_char, Int32.ofInt_add, Int32.ofInt_mul]
    rfl
  rw [sum]
  exact Int32.toInt_ofInt_of_le (by omega) (by omega)

theorem sequence_encoded (b2 b3 : Int8) :
    byteAt (sequenceOf b2 b3) 8 = b2 ∧ (sequenceOf b2 b3).toInt8 = b3 := by
  have value := sequenceOf_toInt b2 b3
  constructor
  · apply byteAt_eq (by omega)
    rw [value]
    omega
  · apply ext_emod
    rw [toInt8_emod, value]
    omega

theorem timeOf_emod (b4 b5 b6 b7 : Int8) :
    (timeOf b4 b5 b6 b7).toInt % 2 ^ 32 = b7.toInt % 256 + 256 * (b6.toInt % 256) +
      65536 * (b5.toInt % 256) + 16777216 * (b4.toInt % 256) := by
  have sum : timeOf b4 b5 b6 b7 = Int32.ofInt (b7.toInt % 256 + 256 * (b6.toInt % 256) +
      65536 * (b5.toInt % 256) + 16777216 * (b4.toInt % 256)) := by
    simp only [timeOf, unsignedInt_char, Int32.ofInt_add, Int32.ofInt_mul]
    rfl
  rw [sum, Int32.toInt_ofInt]
  exact Int.bmod_emod.trans (Int.emod_eq_of_lt (by omega) (by simp only [Int32.size]; omega))

theorem time_encoded (b4 b5 b6 b7 : Int8) :
    bigEndian (timeOf b4 b5 b6 b7) 0 4 = [b4, b5, b6, b7] := by
  have value := timeOf_emod b4 b5 b6 b7
  have first : byteAt (timeOf b4 b5 b6 b7) 24 = b4 := byteAt_eq (by omega) (by omega)
  have second : byteAt (timeOf b4 b5 b6 b7) 16 = b5 := byteAt_eq (by omega) (by omega)
  have third : byteAt (timeOf b4 b5 b6 b7) 8 = b6 := byteAt_eq (by omega) (by omega)
  have fourth : byteAt (timeOf b4 b5 b6 b7) 0 = b7 := byteAt_eq (by omega) (by omega)
  simp only [bigEndian, Nat.zero_add, Nat.mul_zero, Nat.mul_one, Nat.reduceAdd, Nat.reduceMul,
    first, second, third, fourth, List.nil_append, List.cons_append]

theorem source_bytes : bigEndian 305419896 0 4 = [0x12, 0x34, 0x56, 0x78] := by decide

/-- The bytes of a packet in the encoder's format, and the fields they hold. -/
theorem format_iff (p : List Int8) :
    EncoderFormat p ↔ ∃ (b1 b2 b3 b4 b5 b6 b7 : Int8) (body : List Int8),
      b1.toBitVec.msb = true ∧
      p = (-128 :: b1 :: b2 :: b3 :: b4 :: b5 :: b6 :: b7 :: [0x12, 0x34, 0x56, 0x78]) ++ body := by
  constructor
  · rintro ⟨long, version, marked, source⟩
    match p, long with
    | b0 :: b1 :: b2 :: b3 :: b4 :: b5 :: b6 :: b7 :: b8 :: b9 :: b10 :: b11 :: body, _ =>
      obtain rfl : b0 = -128 := Option.some.inj version
      have word : [b8, b9, b10, b11] = [0x12, 0x34, 0x56, 0x78] := source
      exact ⟨b1, b2, b3, b4, b5, b6, b7, body, marked b1 rfl, by rw [← word]; rfl⟩
  · rintro ⟨b1, b2, b3, b4, b5, b6, b7, body, marked, rfl⟩
    refine ⟨?_, rfl, fun b there => ?_, rfl⟩
    · simp only [List.length_append, List.length_cons]
      omega
    · obtain rfl : b1 = b := Option.some.inj there
      exact marked

/-- The building constructor writes the header bytes that were parsed. -/
theorem header_encoded {b1 : Int8} (marked : b1.toBitVec.msb = true)
    (b2 b3 b4 b5 b6 b7 : Int8) :
    encoded (typeOf b1) (sequenceOf b2 b3) (timeOf b4 b5 b6 b7) =
      -128 :: b1 :: b2 :: b3 :: b4 :: b5 :: b6 :: b7 :: [0x12, 0x34, 0x56, 0x78] := by
  obtain ⟨high, low⟩ := sequence_encoded b2 b3
  rw [encoded, type_encoded marked, high, low, time_encoded, source_bytes]
  rfl

theorem encoded_format (pType framenb time : Int32) (body : List Int8) :
    EncoderFormat (encoded pType framenb time ++ body) := by
  have time4 : bigEndian time 0 4 =
      [byteAt time 24, byteAt time 16, byteAt time 8, byteAt time 0] := rfl
  rw [encoded, time4, source_bytes]
  exact (format_iff _).mpr ⟨_, _, _, _, _, _, _, body, marked_type pType, rfl⟩

/-- What `getpacket` writes after any construction that succeeds. -/
theorem built_format {side : Side} {m n : Nat} {g g' : Globals side}
    {pType framenb time size len : Int32} {arrIn : Vector Int8 m} {packet packet' : Vector Int8 n}
    (built : buildRTPpacket g pType framenb time arrIn size = some g')
    (got : getpacket g' packet = some (packet', len)) :
    EncoderFormat (region packet' 0 (12 + passes size)) ∧ 12 + passes size ≤ n ∧
      len = size + 12 ∧ (side = .client → passes size ≤ maxBuff) := by
  obtain ⟨front, sized⟩ := build_header built
  have headerRoom := encoded_length pType framenb time ▸ front.room
  simp only [getpacket, sized] at got
  obtain ⟨p1, headed, got⟩ := Option.bind_eq_some_iff.mp got
  obtain ⟨p2, loaded, got⟩ := Option.bind_eq_some_iff.mp got
  obtain ⟨rfl, rfl⟩ := Prod.mk.inj (Option.some.inj got)
  have twelve : passes headerSize = 12 := rfl
  rw [twelve] at headed loaded
  have room : 12 ≤ n := by
    rcases copy_inside headed with none | inside <;> omega
  have bounds : 12 + passes size ≤ n ∧ passes size ≤ g'.payload.size := by
    rcases copy_inside loaded with none | inside <;> omega
  obtain ⟨q1, headed', first, _⟩ := copy_spec g'.header.cells packet
    (by omega : 0 + 12 ≤ g'.header.size) (by omega : 0 + 12 ≤ n)
  obtain rfl := Option.some.inj (headed.symm.trans headed')
  obtain ⟨q2, loaded', _, frame⟩ := copy_spec g'.payload.cells p1
    (by omega : 0 + passes size ≤ g'.payload.size) bounds.1
  obtain rfl := Option.some.inj (loaded.symm.trans loaded')
  have kept : region p2 0 12 = encoded pType framenb time := by
    rw [frame 0 12 (Or.inl (by omega)), first]
    exact encoded_length pType framenb time ▸ front.content
  refine ⟨?_, bounds.1, rfl, fun client => ?_⟩
  · rw [region_append, kept]
    exact encoded_format pType framenb time _
  · exact Nat.le_trans bounds.2 (Nat.le_of_eq (g'.payload.fixed client))

/-- Whatever one side has parsed from bytes in the encoder's format, either side encodes to
the same bytes; and everything that either side encodes is in this format. -/
theorem reencoding_identity (near far : Side) :
    (∀ (h : Globals near) (m : Nat) (packet : Vector Int8 m) (len : Nat), len ≤ m →
      len ≤ 64012 → EncoderFormat (region packet 0 len) →
      ∀ (k : Nat) (data : Vector Int8 k), len ≤ k + 12 →
      ∃ h' data' size, parseRTPpacket h packet (Int32.ofNat len) = some h' ∧
        getpayload h' data = some (data', size) ∧
        ∀ (g : Globals far) (n : Nat) (out : Vector Int8 n), len ≤ n →
        ∃ g' out',
          buildRTPpacket g (getpayloadtype h') (getsequencenumber h') (gettimestamp h') data'
            size = some g' ∧
          getpacket g' out = some (out', Int32.ofNat len) ∧
          region out' 0 len = region packet 0 len) ∧
    ∀ (g g' : Globals far) (pType framenb time size : Int32) (m : Nat) (arrIn : Vector Int8 m),
      buildRTPpacket g pType framenb time arrIn size = some g' →
      ∀ (n : Nat) (packet packet' : Vector Int8 n) (len : Int32),
      getpacket g' packet = some (packet', len) →
      EncoderFormat (region packet' 0 (12 + passes size)) ∧ 12 + passes size ≤ n ∧
        len = size + 12 ∧ (far = .client → 12 + passes size ≤ 64012) := by
  constructor
  · intro h m packet len readable bound format k data room
    obtain ⟨b1, b2, b3, b4, b5, b6, b7, body, marked, content⟩ := (format_iff _).mp format
    have count : len = 12 + body.length := by
      have lengths := congrArg List.length content
      rw [region_length packet (by omega)] at lengths
      simp only [List.length_append, List.length_cons, List.length_nil] at lengths
      omega
    subst count
    have max : maxBuff = 64000 := rfl
    obtain ⟨h', parsed, packed, type, sequence, time⟩ := parse_spec h packet rfl
      (by omega) readable (fun _ => by omega) content
    obtain ⟨data', loaded, payload⟩ := getpayload_spec packed (by omega) data (by omega)
    rw [Nat.add_comm] at parsed
    refine ⟨h', data', _, parsed, loaded, fun g n out space => ?_⟩
    obtain ⟨g', built, packed'⟩ := build_spec g (getpayloadtype h') (getsequencenumber h')
      (gettimestamp h') data' (by omega : body.length < 2 ^ 31) (by omega) (fun _ => by omega)
    rw [payload] at packed'
    obtain ⟨out', got, written⟩ := getpacket_spec packed' (encoded_length _ _ _) (by omega) out
      (by omega)
    refine ⟨g', out', built, ?_, ?_⟩
    · have total : g'.payloadSize + headerSize = Int32.ofNat (12 + body.length) := by
        rw [packed'.size, Nat.add_comm, Int32.ofNat_add]
        rfl
      exact total ▸ got
    · rw [written, content, getpayloadtype, getsequencenumber, gettimestamp, type, sequence, time,
        header_encoded marked]
  · intro g g' pType framenb time size m arrIn built n packet packet' len got
    obtain ⟨format, room, total, fits⟩ := built_format built got
    have max : maxBuff = 64000 := rfl
    exact ⟨format, room, total, fun client => by have := fits client; omega⟩

/-- A packet with a type, sequence number and time of negative bytes, and two bytes of
payload. -/
theorem negative_bytes_reencoded :
    ∃ h' data' size g' out',
      parseRTPpacket (Globals.cleared .client)
        #v[-128, -30, -1, -2, -3, -128, 127, -4, 0x12, 0x34, 0x56, 0x78, 7, -7] 14 = some h' ∧
      getpayload h' (Vector.replicate 2 0) = some (data', size) ∧
      buildRTPpacket (Globals.cleared .server) (getpayloadtype h') (getsequencenumber h')
        (gettimestamp h') data' size = some g' ∧
      getpacket g' (Vector.replicate 14 0) = some (out', 14) ∧
      region out' 0 14 =
        [-128, -30, -1, -2, -3, -128, 127, -4, 0x12, 0x34, 0x56, 0x78, 7, -7] := by
  have format : EncoderFormat (region
      #v[-128, -30, -1, -2, -3, -128, 127, -4, 0x12, 0x34, 0x56, 0x78, 7, -7] 0 14) :=
    (format_iff _).mpr ⟨-30, -1, -2, -3, -128, 127, -4, [7, -7], by decide, rfl⟩
  obtain ⟨h', data', size, parsed, loaded, encodes⟩ :=
    (reencoding_identity .client .server).1 (Globals.cleared .client) 14 _ 14 (Nat.le_refl 14)
      (by decide) format 2 (Vector.replicate 2 0) (by decide)
  obtain ⟨g', out', built, got, written⟩ :=
    encodes (Globals.cleared .server) 14 (Vector.replicate 14 0) (Nat.le_refl 14)
  exact ⟨h', data', size, g', out', parsed, loaded, built, got, written⟩

end RtpReencoding
