import UnvStream.CheckedMemory
import UnvStream.SignedBytes
import Mathlib.Algebra.Ring.Nat

/-!
# The two copies of `RTPpacket`

The fields of a packet are globals of the file, so a constructor overwrites what the
one before it left. The copies differ in the arrays only: the server's constructors
allocate them, the client's are given MAX_BUFF cells once. A `char` is a signed byte
and `int` arithmetic wraps.
-/

namespace RtpPacket

open CheckedMemory SignedBytes

inductive Side where
  | server
  | client
  deriving DecidableEq

def maxBuff : Nat := 64000

def headerSize : Int32 := 12

/-- What `header` and `payload` point to. -/
structure Buffer (side : Side) where
  size : Nat
  cells : Vector Int8 size
  fixed : side = .client → size = maxBuff

structure Globals (side : Side) where
  version : Int32
  padding : Int32
  extension : Int32
  cc : Int32
  marker : Int32
  payloadType : Int32
  sequenceNumber : Int32
  timeStamp : Int32
  ssrc : Int32
  header : Buffer side
  payloadSize : Int32
  payload : Buffer side

/-- The globals before the first packet. -/
def Globals.cleared : (side : Side) → Globals side
  | .server => ⟨0, 0, 0, 0, 0, 0, 0, 0, 0, ⟨0, #v[], fun h => by cases h⟩, 0,
      ⟨0, #v[], fun h => by cases h⟩⟩
  | .client => ⟨0, 0, 0, 0, 0, 0, 0, 0, 0, ⟨maxBuff, Vector.replicate maxBuff 0, fun _ => rfl⟩, 0,
      ⟨maxBuff, Vector.replicate maxBuff 0, fun _ => rfl⟩⟩

/-- The passes of `for (int i=0; i < n; i++)`. -/
def passes (n : Int32) : Nat := n.toInt.toNat

/-- `new char[n]` in the server, which throws on a negative size. The client has no
such statement. Every new cell is written before it is read. -/
def Buffer.renew : {side : Side} → Buffer side → Int32 → Option (Buffer side)
  | .server, _, n =>
    if 0 ≤ n then some ⟨passes n, Vector.replicate (passes n) 0, fun h => by cases h⟩ else none
  | .client, buf, _ => some buf

def Buffer.update {side : Side} (buf : Buffer side)
    (write : Vector Int8 buf.size → Option (Vector Int8 buf.size)) : Option (Buffer side) :=
  (write buf.cells).map fun cells => { buf with cells := cells }

/-- The loop over `header[last-i] = value>>(8*i)`, from `i` on. -/
def fillWord {n : Nat} (value : Int32) (last : Nat) :
    Nat → Nat → Vector Int8 n → Option (Vector Int8 n)
  | 0, _, header => some header
  | count + 1, i, header => do
    let header ← store header (last - i) (byteAt value (8 * i))
    fillWord value last count (i + 1) header

/-- The first four header bytes. -/
def leadingBytes {side : Side} (g : Globals side) : List Int8 :=
  [(g.version <<< 6 ||| g.padding <<< 5 ||| g.extension <<< 4 ||| g.cc).toInt8,
    (g.marker <<< 7 ||| g.payloadType).toInt8, byteAt g.sequenceNumber 8,
    g.sequenceNumber.toInt8]

def fillHeader {side : Side} {n : Nat} (g : Globals side) (header : Vector Int8 n) :
    Option (Vector Int8 n) := do
  let header ← storeAll header 0 (leadingBytes g)
  let header ← fillWord g.timeStamp 7 4 0 header
  fillWord g.ssrc 11 4 0 header

/-- `RTPpacket(PType, Framenb, Time, arrIn, size)`. -/
def buildRTPpacket {side : Side} {m : Nat} (g : Globals side) (pType framenb time : Int32)
    (arrIn : Vector Int8 m) (size : Int32) : Option (Globals side) := do
  let g := { g with
    version := 2, padding := 0, extension := 0, cc := 0, marker := 1, ssrc := 305419896
    sequenceNumber := framenb, timeStamp := time, payloadType := pType }
  let header ← g.header.renew headerSize
  let header ← header.update (fillHeader g)
  let payload ← g.payload.renew size
  let payload ← payload.update fun cells => copy arrIn 0 cells 0 (passes size)
  return { g with header := header, payloadSize := size, payload := payload }

def unsignedInt (nb : Int32) : Int32 := if 0 ≤ nb then nb else 256 + nb

def typeOf (b1 : Int8) : Int32 := b1.toInt32 &&& 127

def sequenceOf (b2 b3 : Int8) : Int32 := unsignedInt b3.toInt32 + 256 * unsignedInt b2.toInt32

def timeOf (b4 b5 b6 b7 : Int8) : Int32 :=
  unsignedInt b7.toInt32 + 256 * unsignedInt b6.toInt32 + 65536 * unsignedInt b5.toInt32 +
    16777216 * unsignedInt b4.toInt32

/-- The statements that interpret the header, by the bytes they load. -/
def interpret {side : Side} {n : Nat} (g : Globals side) (header : Vector Int8 n) :
    Option (Globals side) := do
  let b1 ← load header 1
  let b2 ← load header 2
  let b3 ← load header 3
  let b4 ← load header 4
  let b5 ← load header 5
  let b6 ← load header 6
  let b7 ← load header 7
  return { g with
    payloadType := typeOf b1, sequenceNumber := sequenceOf b2 b3
    timeStamp := timeOf b4 b5 b6 b7 }

/-- `RTPpacket(packet, packet_size)`; a packet shorter than a header leaves the fields
of the packet before it. -/
def parseRTPpacket {side : Side} {m : Nat} (g : Globals side) (packet : Vector Int8 m)
    (packetSize : Int32) : Option (Globals side) := do
  let g := { g with
    version := 2, padding := 0, extension := 0, cc := 0, marker := 0, ssrc := 0 }
  if headerSize ≤ packetSize then
    let header ← g.header.renew headerSize
    let header ← header.update fun cells => copy packet 0 cells 0 (passes headerSize)
    let payload ← g.payload.renew (packetSize - headerSize)
    let payload ← payload.update fun cells =>
      copy packet (passes headerSize) cells 0 (passes (packetSize - headerSize))
    interpret { g with
      header := header, payloadSize := packetSize - headerSize, payload := payload } header.cells
  else return g

def getpayload {side : Side} {n : Nat} (g : Globals side) (data : Vector Int8 n) :
    Option (Vector Int8 n × Int32) := do
  let data ← copy g.payload.cells 0 data 0 (passes g.payloadSize)
  return (data, g.payloadSize)

def getpayloadLength {side : Side} (g : Globals side) : Int32 := g.payloadSize

def getlength {side : Side} (g : Globals side) : Int32 := g.payloadSize + headerSize

def getpacket {side : Side} {n : Nat} (g : Globals side) (packet : Vector Int8 n) :
    Option (Vector Int8 n × Int32) := do
  let packet ← copy g.header.cells 0 packet 0 (passes headerSize)
  let packet ← copy g.payload.cells 0 packet (passes headerSize) (passes g.payloadSize)
  return (packet, g.payloadSize + headerSize)

def gettimestamp {side : Side} (g : Globals side) : Int32 := g.timeStamp

def getsequencenumber {side : Side} (g : Globals side) : Int32 := g.sequenceNumber

def getpayloadtype {side : Side} (g : Globals side) : Int32 := g.payloadType

theorem passes_ofNat {n : Nat} (small : n < 2 ^ 31) : passes (Int32.ofNat n) = n := by
  rw [passes, Int32.toInt_ofNat_of_lt small, Int.toNat_natCast]

/-- An array starts with the bytes. -/
structure Holds {side : Side} (buf : Buffer side) (bytes : List Int8) : Prop where
  room : bytes.length ≤ buf.size
  content : region buf.cells 0 bytes.length = bytes

/-- The globals of a packet with these header and payload bytes. -/
structure Packed {side : Side} (g : Globals side) (front body : List Int8) : Prop where
  header : Holds g.header front
  payload : Holds g.payload body
  size : g.payloadSize = Int32.ofNat body.length

theorem Holds.load {side : Side} {buf : Buffer side} {bytes : List Int8} (h : Holds buf bytes)
    {k : Nat} (inside : k < bytes.length) : load buf.cells k = bytes[k]? := by
  have cell := region_getElem? buf.cells 0 bytes.length k inside
  rw [h.content, Nat.zero_add] at cell
  exact cell.symm

theorem Holds.copy {side : Side} {n : Nat} {buf : Buffer side} {bytes : List Int8}
    (h : Holds buf bytes) (dst : Vector Int8 n) (j : Nat) :
    copy buf.cells 0 dst j bytes.length = storeAll dst j bytes := by
  have room := h.room
  rw [copy_eq_storeAll buf.cells dst j (by omega), h.content]

theorem renew_spec {side : Side} (buf : Buffer side) {n : Nat} (small : n < 2 ^ 31)
    (fits : side = .client → n ≤ maxBuff) :
    ∃ buf', buf.renew (Int32.ofNat n) = some buf' ∧ n ≤ buf'.size := by
  cases side with
  | server =>
    have nonneg : (0 : Int32) ≤ Int32.ofNat n := by
      rw [Int32.le_iff_toInt_le, Int32.toInt_ofNat_of_lt small]
      exact Int.natCast_nonneg n
    exact ⟨_, if_pos nonneg, Nat.le_of_eq (passes_ofNat small).symm⟩
  | client => exact ⟨buf, rfl, Nat.le_trans (fits rfl) (Nat.le_of_eq (buf.fixed rfl).symm)⟩

theorem copied_holds {side : Side} {m : Nat} (buf : Buffer side) (src : Vector Int8 m)
    {i count : Nat} (readable : i + count ≤ m) (room : count ≤ buf.size) :
    ∃ buf', buf.update (fun cells => copy src i cells 0 count) = some buf' ∧
      Holds buf' (region src i count) := by
  obtain ⟨cells, copied, block, _⟩ :=
    copy_spec src buf.cells readable (by omega : 0 + count ≤ buf.size)
  have len := region_length src readable
  refine ⟨{ buf with cells := cells }, ?_, ?_, ?_⟩
  · simp only [Buffer.update, copied, Option.map_some]
  · exact len.symm ▸ room
  · rw [len]
    exact block

/-- The word ends at `last`; the bytes beside those written stay. -/
theorem fillWord_spec {n : Nat} (value : Int32) {last base : Nat} (room : last < n)
    (count i : Nat) (header : Vector Int8 n) (place : base + (i + count) = last + 1) :
    ∃ header', fillWord value last count i header = some header' ∧
      region header' base count = bigEndian value i count ∧
      ∀ o l, o + l ≤ base ∨ base + count ≤ o → region header' o l = region header o l := by
  induction count generalizing i header with
  | zero => exact ⟨header, rfl, region_zero header base, fun _ _ _ => rfl⟩
  | succ count ih =>
    have inside : last - i < n := by omega
    have index : base + count = last - i := by omega
    obtain ⟨first, stored, cell, frame⟩ := store_spec header (byteAt value (8 * i)) inside
    obtain ⟨header', filled, word, frame'⟩ := ih (i + 1) first (by omega)
    refine ⟨header', ?_, ?_, ?_⟩
    · simp only [fillWord, stored, filled, Option.bind_eq_bind, Option.bind_some]
    · have lowest : region header' (base + count) 1 = [byteAt value (8 * i)] := by
        rw [frame' (base + count) 1 (Or.inr (Nat.le_refl _)), index, cell 0, region_zero]
      rw [region_append, word, lowest, bigEndian]
    · intro o l side
      rw [frame' o l (by omega), frame o l (by omega)]

def headerBytes {side : Side} (g : Globals side) : List Int8 :=
  leadingBytes g ++ (bigEndian g.timeStamp 0 4 ++ bigEndian g.ssrc 0 4)

theorem fillHeader_spec {side : Side} {n : Nat} (g : Globals side) (header : Vector Int8 n)
    (room : 12 ≤ n) :
    ∃ header', fillHeader g header = some header' ∧ region header' 0 12 = headerBytes g := by
  have four : (leadingBytes g).length = 4 := rfl
  obtain ⟨h1, stored, leading, _⟩ := storeAll_spec header 0 (leadingBytes g) (by omega)
  obtain ⟨h2, timed, time, frame2⟩ :=
    fillWord_spec g.timeStamp (by omega : 7 < n) 4 0 h1 (by omega : 4 + (0 + 4) = 7 + 1)
  obtain ⟨h3, sourced, ssrc, frame3⟩ :=
    fillWord_spec g.ssrc (by omega : 11 < n) 4 0 h2 (by omega : 8 + (0 + 4) = 11 + 1)
  refine ⟨h3, ?_, ?_⟩
  · simp only [fillHeader, stored, timed, sourced, Option.bind_eq_bind, Option.bind_some]
  · have first : region h3 0 4 = leadingBytes g := by
      rw [frame3 0 4 (by omega), frame2 0 4 (by omega)]
      exact leading
    have second : region h3 4 4 = bigEndian g.timeStamp 0 4 := by
      rw [frame3 4 4 (by omega)]
      exact time
    rw [headerBytes, ← first, ← second, ← ssrc]
    exact (region_append h3 0 4 8).trans (congrArg _ (region_append h3 4 4 4))

/-- The header of a packet as its fields give it. -/
def encoded (pType framenb time : Int32) : List Int8 :=
  [-128, (128 ||| pType).toInt8, byteAt framenb 8, framenb.toInt8] ++
    (bigEndian time 0 4 ++ bigEndian 305419896 0 4)

@[simp] theorem encoded_length (pType framenb time : Int32) :
    (encoded pType framenb time).length = 12 := by
  simp [encoded]

/-- The header that the building constructor writes, whatever else the globals hold. -/
theorem fields_filled {side : Side} (g : Globals side) (pType framenb time : Int32)
    (header : Buffer side) (room : 12 ≤ header.size) :
    ∃ header', header.update (fillHeader { g with
        version := 2, padding := 0, extension := 0, cc := 0, marker := 1, ssrc := 305419896
        sequenceNumber := framenb, timeStamp := time, payloadType := pType }) = some header' ∧
      Holds header' (encoded pType framenb time) := by
  let fields : Globals side := { g with
    version := 2, padding := 0, extension := 0, cc := 0, marker := 1, ssrc := 305419896
    sequenceNumber := framenb, timeStamp := time, payloadType := pType }
  obtain ⟨cells, filled, front⟩ := fillHeader_spec fields header.cells room
  have version : ((2 : Int32) <<< (6 : Int32) ||| (0 : Int32) <<< (5 : Int32) |||
      (0 : Int32) <<< (4 : Int32) ||| (0 : Int32)).toInt8 = -128 := by decide
  have mark : (1 : Int32) <<< 7 = 128 := by decide
  have bytes : headerBytes fields = encoded pType framenb time := by
    simp only [headerBytes, leadingBytes, encoded, fields, version, mark]
  refine ⟨{ header with cells := cells }, ?_, ?_, ?_⟩
  · exact congrArg (Option.map _) filled
  · exact (encoded_length pType framenb time).symm ▸ room
  · rw [encoded_length]
    exact front.trans bytes

theorem build_spec {side : Side} {m : Nat} (g : Globals side) (pType framenb time : Int32)
    (arrIn : Vector Int8 m) {size : Nat} (small : size < 2 ^ 31) (given : size ≤ m)
    (fits : side = .client → size ≤ maxBuff) :
    ∃ g', buildRTPpacket g pType framenb time arrIn (Int32.ofNat size) = some g' ∧
      Packed g' (encoded pType framenb time) (region arrIn 0 size) := by
  obtain ⟨header, renewed, room⟩ :=
    renew_spec g.header (by decide : 12 < 2 ^ 31) (fun _ => by decide)
  obtain ⟨header', updated, front⟩ := fields_filled g pType framenb time header room
  obtain ⟨payload, renewed', room'⟩ := renew_spec g.payload small fits
  obtain ⟨payload', copied, body⟩ := copied_holds payload arrIn (by omega : 0 + size ≤ m) room'
  have head : g.header.renew headerSize = some header := renewed
  refine ⟨{ g with
    version := 2, padding := 0, extension := 0, cc := 0, marker := 1, ssrc := 305419896
    sequenceNumber := framenb, timeStamp := time, payloadType := pType
    header := header', payloadSize := Int32.ofNat size, payload := payload' }, ?_, front, body, ?_⟩
  · simp only [buildRTPpacket, head, updated, renewed', passes_ofNat small, copied,
      Option.bind_eq_bind, Option.bind_some, Option.pure_def]
  · rw [region_length arrIn (by omega)]

/-- Whatever arguments the building constructor accepts, the header is written. -/
theorem build_header {side : Side} {m : Nat} {g g' : Globals side}
    {pType framenb time size : Int32} {arrIn : Vector Int8 m}
    (built : buildRTPpacket g pType framenb time arrIn size = some g') :
    Holds g'.header (encoded pType framenb time) ∧ g'.payloadSize = size := by
  obtain ⟨header, renewed, room⟩ :=
    renew_spec g.header (by decide : 12 < 2 ^ 31) (fun _ => by decide)
  obtain ⟨header', updated, front⟩ := fields_filled g pType framenb time header room
  have head : g.header.renew headerSize = some header := renewed
  simp only [buildRTPpacket, head, updated, Option.bind_eq_bind, Option.bind_some] at built
  obtain ⟨payload, _, built⟩ := Option.bind_eq_some_iff.mp built
  obtain ⟨payload', _, built⟩ := Option.bind_eq_some_iff.mp built
  obtain rfl := Option.some.inj built
  exact ⟨front, rfl⟩

theorem getpacket_spec {side : Side} {n : Nat} {g : Globals side} {front body : List Int8}
    (packed : Packed g front body) (len : front.length = 12) (small : body.length < 2 ^ 31)
    (packet : Vector Int8 n) (room : 12 + body.length ≤ n) :
    ∃ packet', getpacket g packet = some (packet', g.payloadSize + headerSize) ∧
      region packet' 0 (12 + body.length) = front ++ body := by
  have headerRoom := packed.header.room
  have payloadRoom := packed.payload.room
  have size : passes g.payloadSize = body.length := by
    rw [packed.size, passes_ofNat small]
  obtain ⟨p1, headed, first, _⟩ := copy_spec g.header.cells packet
    (by omega : 0 + 12 ≤ g.header.size) (by omega : 0 + 12 ≤ n)
  obtain ⟨p2, loaded, second, frame⟩ := copy_spec g.payload.cells p1
    (by omega : 0 + body.length ≤ g.payload.size) room
  have twelve : passes headerSize = 12 := rfl
  refine ⟨p2, ?_, ?_⟩
  · simp only [getpacket, twelve, size, headed, loaded, Option.bind_eq_bind, Option.bind_some,
      Option.pure_def]
  · have kept : region p2 0 12 = front := by
      rw [frame 0 12 (Or.inl (by omega)), first, ← len]
      exact packed.header.content
    have behind : region p2 (0 + 12) body.length = body := second.trans packed.payload.content
    rw [region_append, kept, behind]

theorem interpret_spec {side : Side} {buf : Buffer side} {b0 b1 b2 b3 b4 b5 b6 b7 : Int8}
    {rest : List Int8} (g : Globals side)
    (holds : Holds buf (b0 :: b1 :: b2 :: b3 :: b4 :: b5 :: b6 :: b7 :: rest)) :
    interpret g buf.cells = some { g with
      payloadType := typeOf b1, sequenceNumber := sequenceOf b2 b3
      timeStamp := timeOf b4 b5 b6 b7 } := by
  have inside {k : Nat} (low : k < 8) :
      k < (b0 :: b1 :: b2 :: b3 :: b4 :: b5 :: b6 :: b7 :: rest).length := by
    simp only [List.length_cons]
    omega
  have l1 : load buf.cells 1 = some b1 := holds.load (inside (by omega))
  have l2 : load buf.cells 2 = some b2 := holds.load (inside (by omega))
  have l3 : load buf.cells 3 = some b3 := holds.load (inside (by omega))
  have l4 : load buf.cells 4 = some b4 := holds.load (inside (by omega))
  have l5 : load buf.cells 5 = some b5 := holds.load (inside (by omega))
  have l6 : load buf.cells 6 = some b6 := holds.load (inside (by omega))
  have l7 : load buf.cells 7 = some b7 := holds.load (inside (by omega))
  simp only [interpret, l1, l2, l3, l4, l5, l6, l7, Option.bind_eq_bind, Option.bind_some,
    Option.pure_def]

/-- A packet size that covers the header leaves the payload size. -/
theorem packet_size {n : Nat} (small : n + 12 < 2 ^ 31) :
    headerSize ≤ Int32.ofNat (n + 12) ∧ Int32.ofNat (n + 12) - headerSize = Int32.ofNat n := by
  constructor
  · have header : headerSize.toInt = 12 := rfl
    rw [Int32.le_iff_toInt_le, Int32.toInt_ofNat_of_lt small]
    omega
  · rw [Int32.ofNat_add]
    exact Int32.add_sub_cancel _ _

theorem packet_parts {m : Nat} {packet : Vector Int8 m} {front body : List Int8}
    (len : front.length = 12) (readable : 12 + body.length ≤ m)
    (content : region packet 0 (12 + body.length) = front ++ body) :
    region packet 0 12 = front ∧ region packet 12 body.length = body := by
  have split := (region_append packet 0 12 body.length).symm.trans content
  rw [Nat.zero_add] at split
  exact List.append_inj split ((region_length packet (by omega)).trans len.symm)

/-- Parsing a packet of a header and a payload keeps both and interprets the header. -/
theorem parse_spec {side : Side} {m : Nat} (g : Globals side) (packet : Vector Int8 m)
    {b0 b1 b2 b3 b4 b5 b6 b7 : Int8} {rest body : List Int8} (four : rest.length = 4)
    (small : body.length + 12 < 2 ^ 31) (readable : 12 + body.length ≤ m)
    (fits : side = .client → body.length ≤ maxBuff)
    (content : region packet 0 (12 + body.length) =
      (b0 :: b1 :: b2 :: b3 :: b4 :: b5 :: b6 :: b7 :: rest) ++ body) :
    ∃ g', parseRTPpacket g packet (Int32.ofNat (body.length + 12)) = some g' ∧
      Packed g' (b0 :: b1 :: b2 :: b3 :: b4 :: b5 :: b6 :: b7 :: rest) body ∧
      g'.payloadType = typeOf b1 ∧ g'.sequenceNumber = sequenceOf b2 b3 ∧
      g'.timeStamp = timeOf b4 b5 b6 b7 := by
  have twelve : (b0 :: b1 :: b2 :: b3 :: b4 :: b5 :: b6 :: b7 :: rest).length = 12 := by
    simp only [List.length_cons, four]
  obtain ⟨front, behind⟩ := packet_parts twelve readable content
  obtain ⟨header, renewed, room⟩ :=
    renew_spec g.header (by decide : 12 < 2 ^ 31) (fun _ => by decide)
  obtain ⟨header', copied, held⟩ := copied_holds header packet (by omega : 0 + 12 ≤ m) room
  obtain ⟨payload, renewed', room'⟩ :=
    renew_spec g.payload (by omega : body.length < 2 ^ 31) fits
  obtain ⟨payload', copied', held'⟩ := copied_holds payload packet readable room'
  rw [front] at held
  rw [behind] at held'
  obtain ⟨long, left⟩ := packet_size small
  have count : passes headerSize = 12 := rfl
  have size : passes (Int32.ofNat body.length) = body.length := passes_ofNat (by omega)
  have head : g.header.renew headerSize = some header := renewed
  let parsed : Globals side := { g with
    version := 2, padding := 0, extension := 0, cc := 0, marker := 0, ssrc := 0
    header := header', payloadSize := Int32.ofNat body.length, payload := payload' }
  refine ⟨{ parsed with
    payloadType := typeOf b1, sequenceNumber := sequenceOf b2 b3
    timeStamp := timeOf b4 b5 b6 b7 }, ?_, ⟨held, held', rfl⟩, rfl, rfl, rfl⟩
  simp only [parseRTPpacket, if_pos long, head, left, renewed', count, size, copied, copied',
    Option.bind_eq_bind, Option.bind_some]
  exact interpret_spec parsed held

end RtpPacket
