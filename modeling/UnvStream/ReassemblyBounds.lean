import UnvStream.ClientReceiver

/-!
# Bounds of the client's reassembly buffer

Every pass of the fragmented handler moves the offset by `iReceived - 1`, also when
`recv` failed or the datagram was empty, and only the marker 127 in `cRTP_Packet[0]`
takes it back to 0. A `recv` that delivers nothing leaves the marker of the datagram
before it in place.
-/

namespace ReassemblyBounds

open CheckedMemory Vocabulary ClientReceiver

/-- Every pass leaves `iRTP_PacketSize_local` between 0 and `BUFFSIZE`, with no index
outside an array on the way. -/
def StaysInBounds (iPortNum : Nat) : Receiver → List RecvResult → Prop
  | _, [] => True
  | r, result :: results => ∃ r' out,
      receivePass .useUDP .useMJPEG iPortNum r result = some (r', out) ∧
      0 ≤ r'.iRTPPacketSizeLocal ∧ r'.iRTPPacketSizeLocal ≤ buffSize ∧
      StaysInBounds iPortNum r' results

/-- `cRTP_Packet[0]`. -/
def headerByte (r : Receiver) : UInt8 := r.cRTPPacket.get ⟨0, by decide⟩

/-- The results of `recv` that keep the offset inside the buffer when `held` bytes are
collected and `cRTP_Packet[0]` is `header`: a datagram fits behind what is held, and a
failed or empty `recv` finds a marked datagram before it or enough bytes to take back. -/
def WithinBounds : Nat → UInt8 → List RecvResult → Prop
  | _, _, [] => True
  | held, header, .error :: results =>
      (header = 127 ∨ 2 ≤ held) ∧
        WithinBounds (if header = 127 then 0 else held - 2) header results
  | held, header, .data [] :: results =>
      (header = 127 ∨ 1 ≤ held) ∧
        WithinBounds (if header = 127 then 0 else held - 1) header results
  | held, _, .data (first :: body) :: results =>
      held + body.length ≤ buffSize ∧
        WithinBounds (if first = 127 then 0 else held + body.length) first results

theorem load_headerByte (r : Receiver) : load r.cRTPPacket 0 = some (headerByte r) := by
  rw [load, Vector.getElem?_eq_getElem (show 0 < buffSize by decide)]
  rfl

theorem moved_bytes (result : RecvResult) :
    (result.iReceived - 1).toNat = result.bytes.length - 1 := by
  cases result with
  | error => rfl
  | data bytes =>
    simp only [RecvResult.iReceived, RecvResult.bytes]
    omega

theorem iReceived_le {result : RecvResult} (short : result.bytes.length ≤ buffSize) :
    result.iReceived ≤ buffSize := by
  cases result with
  | error => exact Int.le_of_lt (by decide)
  | data bytes => exact Int.ofNat_le.mpr short

/-- The bytes of a pass find room in the buffer exactly when they fit behind those held. -/
theorem collectPayload_isSome_iff (packet payload : Vector UInt8 buffSize) {held count : Nat}
    (room : held ≤ buffSize) (readable : 1 + count ≤ buffSize) :
    (collectPayload packet held count 1 payload).isSome ↔ held + count ≤ buffSize := by
  have length := region_length packet readable
  rw [collectPayload_eq_storeAll packet held count 1 payload (Nat.le_refl 1) readable,
    storeAll_isSome_iff, length]
  constructor
  · rintro (none | fits)
    · rw [none] at length
      rw [← length]
      exact room
    · exact fits
  · exact fun fits => Or.inr fits

/-- What either copy of the handler does with the offset. -/
theorem fragmentedBody_step {r : Receiver} {held : Nat} (size : r.iRTPPacketSizeLocal = held)
    (room : held ≤ buffSize) {iReceived : Int} (short : iReceived ≤ buffSize)
    (fits : held + (iReceived - 1).toNat ≤ buffSize) :
    ∃ payload out, fragmentedBody r iReceived = some ({ r with
      cRTPPayloadLocal := payload
      iRTPPacketSizeLocal := if headerByte r = 127 then 0 else held + (iReceived - 1) }, out) := by
  have readable : 1 + (iReceived - 1).toNat ≤ buffSize := by
    have pos : 0 < buffSize := by decide
    omega
  obtain ⟨payload, copied⟩ := Option.isSome_iff_exists.mp
    ((collectPayload_isSome_iff r.cRTPPacket r.cRTPPayloadLocal room readable).mpr fits)
  have inside : 0 + ((held : Int) + (iReceived - 1)).toNat ≤ buffSize := by omega
  by_cases marked : headerByte r = 127
  · refine ⟨payload, region payload 0 ((held : Int) + (iReceived - 1)).toNat, ?_⟩
    simp only [fragmentedBody, copied, load_headerByte, marked, size, read_of_le payload inside,
      Option.bind_eq_bind, Option.bind_some, if_true, Option.pure_def]
  · refine ⟨payload, [], ?_⟩
    simp only [fragmentedBody, copied, load_headerByte, marked, size, Option.bind_eq_bind,
      Option.bind_some, if_false, Option.pure_def]

theorem fragmentedBody_overruns {r : Receiver} {held : Nat} (size : r.iRTPPacketSizeLocal = held)
    (room : held ≤ buffSize) {iReceived : Int} (short : iReceived ≤ buffSize)
    (overrun : ¬ held + (iReceived - 1).toNat ≤ buffSize) : fragmentedBody r iReceived = none := by
  have readable : 1 + (iReceived - 1).toNat ≤ buffSize := by
    have pos : 0 < buffSize := by decide
    omega
  have stuck : collectPayload r.cRTPPacket r.iRTPPacketSizeLocal (iReceived - 1).toNat 1
      r.cRTPPayloadLocal = none := by
    rw [size]
    exact Option.not_isSome_iff_eq_none.mp fun copied => overrun
      ((collectPayload_isSome_iff r.cRTPPacket r.cRTPPayloadLocal room readable).mp copied)
  rw [fragmentedBody, stuck]
  rfl

theorem fragmentedHandler_overruns {iPortNum : Nat} (port : iPortNum ≠ 1) {r : Receiver}
    {iReceived : Int} (body : fragmentedBody r iReceived = none) :
    fragmentedHandler iPortNum r iReceived = none := by
  by_cases hflag : r.flag = true
  · simp only [fragmentedHandler, if_pos port, if_pos hflag, body, Option.map_none]
  · simp only [fragmentedHandler, if_pos port, if_neg hflag, body]

/-- The header byte after a `recv`: the first byte delivered, if there is one. -/
theorem headerByte_received (r : Receiver) {bytes : List UInt8}
    (short : bytes.length ≤ buffSize) : ∃ packet, storeAll r.cRTPPacket 0 bytes = some packet ∧
      headerByte { r with cRTPPacket := packet } = bytes.headD (headerByte r) := by
  cases bytes with
  | nil => exact ⟨r.cRTPPacket, rfl, rfl⟩
  | cons first body =>
    have inside : 0 < buffSize := by decide
    obtain ⟨packet, stored, block, _⟩ := storeAll_spec r.cRTPPacket 0 (first :: body) (by omega)
    have loaded := (load_of_region inside block).1
    exact ⟨packet, stored, Option.some.inj ((load_headerByte _).symm.trans loaded)⟩

/-- One pass that fits, by what it leaves in the offset and in the header byte. -/
theorem receivePass_step {iPortNum : Nat} (port : iPortNum ≠ 1) {r : Receiver} {held : Nat}
    (size : r.iRTPPacketSizeLocal = held) (room : held ≤ buffSize) {result : RecvResult}
    (short : result.bytes.length ≤ buffSize)
    (fits : held + (result.bytes.length - 1) ≤ buffSize) :
    ∃ r' out, receivePass .useUDP .useMJPEG iPortNum r result = some (r', out) ∧
      headerByte r' = result.bytes.headD (headerByte r) ∧
      r'.iRTPPacketSizeLocal = if result.bytes.headD (headerByte r) = 127 then 0
        else held + (result.iReceived - 1) := by
  obtain ⟨packet, stored, header⟩ := headerByte_received r short
  obtain ⟨payload, out, body⟩ := fragmentedBody_step (r := { r with cRTPPacket := packet }) size
    room (iReceived_le short) (moved_bytes result ▸ fits)
  rw [header] at body
  obtain ⟨b, handled⟩ := fragmentedHandler_eq_body port body
  refine ⟨{ r with
    flag := b
    cRTPPacket := packet
    cRTPPayloadLocal := payload
    iRTPPacketSizeLocal := if result.bytes.headD (headerByte r) = 127 then 0
      else held + (result.iReceived - 1) }, out, ?_, header, rfl⟩
  simp only [receivePass, stored, Option.bind_eq_bind, Option.bind_some, and_self, if_true, handled]

theorem receivePass_overruns {iPortNum : Nat} (port : iPortNum ≠ 1) {r : Receiver} {held : Nat}
    (size : r.iRTPPacketSizeLocal = held) (room : held ≤ buffSize) {result : RecvResult}
    (short : result.bytes.length ≤ buffSize)
    (overrun : ¬ held + (result.bytes.length - 1) ≤ buffSize) :
    receivePass .useUDP .useMJPEG iPortNum r result = none := by
  obtain ⟨packet, stored, _⟩ := headerByte_received r short
  have stuck := fragmentedHandler_overruns port (fragmentedBody_overruns
    (r := { r with cRTPPacket := packet }) size room (iReceived_le short)
    (moved_bytes result ▸ overrun))
  simp only [receivePass, stored, Option.bind_eq_bind, Option.bind_some, and_self, if_true, stuck]

/-- A pass that fits stays in bounds when its offset is not negative and the rest of the
run stays in bounds. -/
theorem staysInBounds_cons {iPortNum : Nat} (port : iPortNum ≠ 1) {r : Receiver} {held : Nat}
    (size : r.iRTPPacketSizeLocal = held) (room : held ≤ buffSize) {result : RecvResult}
    (results : List RecvResult) (short : result.bytes.length ≤ buffSize)
    (fits : held + (result.bytes.length - 1) ≤ buffSize) :
    ∃ r', headerByte r' = result.bytes.headD (headerByte r) ∧
      r'.iRTPPacketSizeLocal = (if result.bytes.headD (headerByte r) = 127 then 0
        else held + (result.iReceived - 1)) ∧
      (StaysInBounds iPortNum r (result :: results) ↔
        0 ≤ r'.iRTPPacketSizeLocal ∧ StaysInBounds iPortNum r' results) := by
  obtain ⟨r', out, pass, header, size'⟩ := receivePass_step port size room short fits
  have moved := moved_bytes result
  have below : r'.iRTPPacketSizeLocal ≤ buffSize := by
    rw [size']
    split <;> omega
  refine ⟨r', header, size', ?_⟩
  constructor
  · rintro ⟨r1, out1, pass1, lower, _, rest⟩
    obtain ⟨rfl, rfl⟩ := Prod.mk.inj (Option.some.inj (pass.symm.trans pass1))
    exact ⟨lower, rest⟩
  · rintro ⟨lower, rest⟩
    exact ⟨r', out, pass, lower, below, rest⟩

/-- A `recv` that delivers nothing takes back `lost` bytes unless it finds a marker. -/
theorem staysInBounds_idle {iPortNum : Nat} (port : iPortNum ≠ 1) {results : List RecvResult}
    (within : ∀ {r : Receiver} {held : Nat}, r.iRTPPacketSizeLocal = held → held ≤ buffSize →
      (StaysInBounds iPortNum r results ↔ WithinBounds held (headerByte r) results))
    {r : Receiver} {held lost : Nat} (size : r.iRTPPacketSizeLocal = held)
    (room : held ≤ buffSize) {result : RecvResult} (nothing : result.bytes = [])
    (moved : result.iReceived - 1 = -(lost : Int)) :
    StaysInBounds iPortNum r (result :: results) ↔ (headerByte r = 127 ∨ lost ≤ held) ∧
      WithinBounds (if headerByte r = 127 then 0 else held - lost) (headerByte r) results := by
  have short : result.bytes.length ≤ buffSize := by simp [nothing]
  have fits : held + (result.bytes.length - 1) ≤ buffSize := by simpa [nothing] using room
  obtain ⟨r', header, size', stays⟩ := staysInBounds_cons port size room results short fits
  rw [nothing, List.headD_nil] at header size'
  rw [stays, ← header]
  rw [← header] at size'
  by_cases marked : headerByte r' = 127
  · rw [if_pos marked] at size' ⊢
    rw [within size' (Nat.zero_le _), size']
    exact ⟨fun both => ⟨Or.inl marked, both.2⟩, fun both => ⟨Int.le_refl 0, both.2⟩⟩
  · rw [if_neg marked] at size' ⊢
    by_cases enough : lost ≤ held
    · have left : r'.iRTPPacketSizeLocal = (held - lost : Nat) := by omega
      rw [within left (by omega), left]
      exact ⟨fun both => ⟨Or.inr enough, both.2⟩, fun both => ⟨Int.natCast_nonneg _, both.2⟩⟩
    · constructor
      · rintro ⟨lower, _⟩
        omega
      · rintro ⟨covered, _⟩
        exact absurd covered (not_or.mpr ⟨marked, enough⟩)

/-- The received bytes decide which runs stay in bounds. -/
theorem staysInBounds_iff_within {iPortNum : Nat} (port : iPortNum ≠ 1) (results : List RecvResult)
    (short : ∀ result ∈ results, result.bytes.length ≤ buffSize) {r : Receiver} {held : Nat}
    (size : r.iRTPPacketSizeLocal = held) (room : held ≤ buffSize) :
    StaysInBounds iPortNum r results ↔ WithinBounds held (headerByte r) results := by
  induction results generalizing r held with
  | nil => exact Iff.rfl
  | cons result results ih =>
    have within := fun {r : Receiver} {held : Nat} => @ih
      (fun next hnext => short next (List.mem_cons_of_mem result hnext)) r held
    match result, short result List.mem_cons_self with
    | .error, _ => exact staysInBounds_idle port within size room rfl rfl
    | .data [], _ => exact staysInBounds_idle port within size room rfl rfl
    | .data (first :: body), shortHead =>
      by_cases fits : held + body.length ≤ buffSize
      · obtain ⟨r', header, size', stays⟩ :=
          staysInBounds_cons port size room results shortHead fits
        have left : r'.iRTPPacketSizeLocal =
            (if first = 127 then 0 else held + body.length : Nat) := by
          change r'.iRTPPacketSizeLocal =
            if first = 127 then 0 else held + (((body.length + 1 : Nat) : Int) - 1) at size'
          by_cases marked : first = 127
          · rw [size', if_pos marked, if_pos marked]
            rfl
          · rw [size', if_neg marked, if_neg marked]
            omega
        have rest := within left (by split <;> omega)
        rw [stays, rest, left, header]
        exact ⟨fun both => ⟨fits, both.2⟩, fun both => ⟨Int.natCast_nonneg _, both.2⟩⟩
      · constructor
        · rintro ⟨r', out, pass, _⟩
          rw [receivePass_overruns port size room shortHead fits] at pass
          cases pass
        · exact fun both => absurd both.1 fits

/-- On port 1 the handler does nothing. -/
theorem staysInBounds_of_port_one (results : List RecvResult)
    (short : ∀ result ∈ results, result.bytes.length ≤ buffSize) {r : Receiver}
    (empty : r.iRTPPacketSizeLocal = 0) : StaysInBounds 1 r results := by
  induction results generalizing r with
  | nil => trivial
  | cons result results ih =>
    obtain ⟨packet, stored, _⟩ := headerByte_received r (short result List.mem_cons_self)
    refine ⟨{ r with cRTPPacket := packet }, [], ?_, Int.le_of_eq empty.symm, ?_, ?_⟩
    · simp only [receivePass, stored, fragmentedHandler, Option.bind_eq_bind, Option.bind_some,
        and_self, if_true, ne_eq, not_true_eq_false, if_false]
    · rw [empty]
      exact Int.natCast_nonneg _
    · exact ih (fun next hnext => short next (List.mem_cons_of_mem result hnext)) empty

/-- The offset and every index into the reassembly buffer stay in bounds in exactly the
runs whose received bytes do, on any port but the one whose packets are left alone. -/
theorem in_bounds_iff_within (iPortNum : Nat) (r : Receiver) (empty : r.iRTPPacketSizeLocal = 0)
    (results : List RecvResult) (short : ∀ result ∈ results, result.bytes.length ≤ buffSize) :
    StaysInBounds iPortNum r results ↔ iPortNum = 1 ∨ WithinBounds 0 (headerByte r) results := by
  by_cases port : iPortNum = 1
  · subst port
    exact ⟨fun _ => Or.inl rfl, fun _ => staysInBounds_of_port_one results short empty⟩
  · rw [staysInBounds_iff_within port results short empty (Nat.zero_le _)]
    exact ⟨Or.inr, fun covered => covered.resolve_left port⟩

theorem marked_datagram_in_bounds :
    StaysInBounds 0 Receiver.cleared [.data [127, 5], .error, .data []] := by
  refine (in_bounds_iff_within 0 Receiver.cleared rfl _ (by decide)).mpr (Or.inr ?_)
  exact ⟨by decide, Or.inl rfl, Or.inl rfl, trivial⟩

/-- A failed `recv` after an unmarked datagram of one payload byte takes back two. -/
theorem failed_recv_out_of_bounds : ¬ StaysInBounds 0 Receiver.cleared [.data [1, 5], .error] := by
  intro stays
  have within := (staysInBounds_iff_within (by decide) _ (by decide) rfl (Nat.zero_le _)).mp stays
  exact absurd within.2.1 (by decide)

end ReassemblyBounds
