import UnvStream.CheckedMemory
import UnvStream.MarkedFraming
import UnvStream.FragmentLoop

/-!
# The receive loop of `startClientUDP`

One pass receives into `cRTP_Packet` and runs the fragmented or the whole-packet
handler. Both handlers exist twice in the program, before and after the global
`flag` is cleared. The timing log of the testing mode is not part of a pass.
-/

namespace ClientReceiver

open CheckedMemory MarkedFraming Vocabulary FragmentLoop

def buffSize : Nat := 100000

/-- The outcome of `recv`: -1, or the bytes received (none at end of stream). -/
inductive RecvResult where
  | error
  | data (bytes : List UInt8)

def RecvResult.iReceived : RecvResult → Int
  | .error => -1
  | .data bytes => bytes.length

def RecvResult.bytes : RecvResult → List UInt8
  | .error => []
  | .data bytes => bytes

structure Receiver where
  flag : Bool
  cRTPPacket : Vector UInt8 buffSize
  cRTPPayloadLocal : Vector UInt8 buffSize
  iRTPPacketSizeLocal : Int

def Receiver.cleared : Receiver :=
  ⟨true, Vector.replicate buffSize 0, Vector.replicate buffSize 0, 0⟩

def storeAt (mem : Vector UInt8 buffSize) (i : Int) (x : UInt8) :
    Option (Vector UInt8 buffSize) :=
  if 0 ≤ i then store mem i.toNat x else none

/-- The loop that moves bytes `i`, `i + 1`, … of the packet behind the payload
collected so far, leaving out the header byte 0. -/
def collectPayload (packet : Vector UInt8 buffSize) (sizeLocal : Int) :
    Nat → Nat → Vector UInt8 buffSize → Option (Vector UInt8 buffSize)
  | 0, _, payload => some payload
  | n + 1, i, payload => do
    let byte ← load packet i
    let payload ← storeAt payload (i - 1 + sizeLocal) byte
    collectPayload packet sizeLocal n (i + 1) payload

/-- Either copy of the fragmented handler. -/
def fragmentedBody (r : Receiver) (iReceived : Int) : Option (Receiver × List UInt8) := do
  let payload ← collectPayload r.cRTPPacket r.iRTPPacketSizeLocal (iReceived - 1).toNat 1
    r.cRTPPayloadLocal
  let size := r.iRTPPacketSizeLocal + (iReceived - 1)
  let header ← load r.cRTPPacket 0
  if header = 127 then
    let out ← read payload 0 size.toNat
    return ({ r with cRTPPayloadLocal := payload, iRTPPacketSizeLocal := 0 }, out)
  else return ({ r with cRTPPayloadLocal := payload, iRTPPacketSizeLocal := size }, [])

def fragmentedHandler (iPortNum : Nat) (r : Receiver) (iReceived : Int) :
    Option (Receiver × List UInt8) :=
  if iPortNum ≠ 1 then
    if r.flag then
      (fragmentedBody r iReceived).map fun (r, out) => ({ r with flag := false }, out)
    else fragmentedBody r iReceived
  else some (r, [])

/-- Either copy of the whole-packet handler. -/
def wholeBody (r : Receiver) (iReceived : Int) : Option (Receiver × List UInt8) :=
  (read r.cRTPPacket 0 iReceived.toNat).map fun out => (r, out)

def wholeHandler (r : Receiver) (iReceived : Int) : Option (Receiver × List UInt8) :=
  if r.flag then
    (wholeBody r iReceived).map fun (r, out) => ({ r with flag := false }, out)
  else wholeBody r iReceived

/-- One pass of the loop; the second component is what it writes to `cout`. -/
def receivePass (tlayer : Transport) (vcodec : VideoCodec) (iPortNum : Nat) (r : Receiver)
    (result : RecvResult) : Option (Receiver × List UInt8) := do
  let packet ← storeAll r.cRTPPacket 0 result.bytes
  let r := { r with cRTPPacket := packet }
  if tlayer = .useUDP ∧ vcodec = .useMJPEG then fragmentedHandler iPortNum r result.iReceived
  else wholeHandler r result.iReceived

/-- A run of the loop, with the bytes written by each pass. -/
def receiveAll (tlayer : Transport) (vcodec : VideoCodec) (iPortNum : Nat) :
    Receiver → List RecvResult → Option (Receiver × List (List UInt8))
  | r, [] => some (r, [])
  | r, result :: results => do
    let (r, out) ← receivePass tlayer vcodec iPortNum r result
    let (r, outs) ← receiveAll tlayer vcodec iPortNum r results
    return (r, out :: outs)

/-- The local payload buffer holds `residue`. -/
structure Collects (r : Receiver) (residue : List UInt8) : Prop where
  size : r.iRTPPacketSizeLocal = residue.length
  bytes : region r.cRTPPayloadLocal 0 residue.length = residue

theorem collects_nil {r : Receiver} (h : r.iRTPPacketSizeLocal = 0) : Collects r [] :=
  ⟨h, rfl⟩

theorem Collects.withFlag {r : Receiver} {residue : List UInt8} (c : Collects r residue)
    (b : Bool) : Collects { r with flag := b } residue := ⟨c.size, c.bytes⟩

/-- The collecting loop is one block of stores behind the residue. -/
theorem collectPayload_eq_storeAll (packet : Vector UInt8 buffSize) (held n i : Nat)
    (payload : Vector UInt8 buffSize) (hi : 1 ≤ i) (fits : i + n ≤ buffSize) :
    collectPayload packet held n i payload =
      storeAll payload (held + (i - 1)) (region packet i n) := by
  induction n generalizing i payload with
  | zero => rw [region_zero]; rfl
  | succ n ih =>
    have inside : i < buffSize := by omega
    have head := region_cons packet n inside
    have index : (i : Int) - 1 + (held : Int) = ((held + (i - 1) : Nat) : Int) := by omega
    rw [head, storeAll, collectPayload, load, Vector.getElem?_eq_getElem inside]
    simp only [Option.bind_eq_bind, Option.bind_some, index, storeAt, Int.natCast_nonneg, if_true,
      Int.toNat_natCast]
    refine congrArg (Option.bind _) (funext fun payload' => ?_)
    rw [ih (i + 1) payload' (by omega) (by omega)]
    congr 1
    omega

/-- Either copy of the handler appends the payload of the datagram and writes out
what it holds when the header byte is 127. -/
theorem fragmentedBody_collects {r : Receiver} {residue : List UInt8} (c : Collects r residue)
    (header : UInt8) (rest : List UInt8)
    (held : region r.cRTPPacket 0 (rest.length + 1) = header :: rest)
    (short : rest.length + 1 ≤ buffSize) (fits : residue.length + rest.length ≤ buffSize) :
    ∃ r', fragmentedBody r (rest.length + 1 : Nat) =
        some (r', if closesUnit (header :: rest) then residue ++ rest else []) ∧
      Collects r' (if closesUnit (header :: rest) then [] else residue ++ rest) := by
  have inside : 0 < buffSize := by decide
  obtain ⟨loaded, hrest⟩ := load_of_region inside held
  obtain ⟨payload, stored, block, frame⟩ :=
    storeAll_spec r.cRTPPayloadLocal residue.length rest fits
  have copied : collectPayload r.cRTPPacket r.iRTPPacketSizeLocal rest.length 1
      r.cRTPPayloadLocal = some payload := by
    rw [c.size, collectPayload_eq_storeAll _ _ _ _ _ (Nat.le_refl 1) (by omega)]
    rw [hrest]
    exact stored
  have whole : region payload 0 (residue ++ rest).length = residue ++ rest := by
    rw [List.length_append, region_append, frame 0 residue.length (Or.inl (by omega)), c.bytes,
      Nat.zero_add, block]
  have count : (((rest.length + 1 : Nat) : Int) - 1).toNat = rest.length := by omega
  have size : r.iRTPPacketSizeLocal + (((rest.length + 1 : Nat) : Int) - 1) =
      (residue ++ rest).length := by
    rw [c.size, List.length_append]
    omega
  have readOut : read payload 0 (residue ++ rest).length = some (residue ++ rest) := by
    rw [read_of_le payload (by rw [List.length_append]; omega), whole]
  by_cases h127 : header = 127
  · subst h127
    refine ⟨{ r with cRTPPayloadLocal := payload, iRTPPacketSizeLocal := 0 }, ?_, rfl, rfl⟩
    simp only [fragmentedBody, count, copied, size, loaded, readOut, Option.bind_eq_bind,
      Option.bind_some, if_true, Int.toNat_natCast, closesUnit_last, Option.pure_def]
  · have notClosing : closesUnit (header :: rest) = false := by simpa [closesUnit] using h127
    refine ⟨{ r with
      cRTPPayloadLocal := payload, iRTPPacketSizeLocal := (residue ++ rest).length }, ?_, ?_, ?_⟩
    · simp only [fragmentedBody, count, copied, size, loaded, Option.bind_eq_bind,
        Option.bind_some, if_neg h127, notClosing, Option.pure_def, Bool.false_eq_true, if_false]
    · simp only [notClosing, Bool.false_eq_true, if_false]
    · simp only [notClosing, Bool.false_eq_true, if_false]
      exact whole

/-- The two copies of the handler differ in the flag they leave only. -/
theorem fragmentedHandler_eq_body {iPortNum : Nat} (port : iPortNum ≠ 1) {r r' : Receiver}
    {iReceived : Int} {out : List UInt8} (body : fragmentedBody r iReceived = some (r', out)) :
    ∃ b, fragmentedHandler iPortNum r iReceived = some ({ r' with flag := b }, out) := by
  by_cases hflag : r.flag = true
  · refine ⟨false, ?_⟩
    simp only [fragmentedHandler, if_pos port, if_pos hflag, body, Option.map_some]
  · refine ⟨r'.flag, ?_⟩
    simp only [fragmentedHandler, if_pos port, if_neg hflag, body]

/-- A pass of the fragmented mode, whichever copy of the handler runs. -/
theorem receivePass_datagram {r : Receiver} {residue : List UInt8} (c : Collects r residue)
    {iPortNum : Nat} (port : iPortNum ≠ 1) {d : List UInt8} (hne : d ≠ [])
    (short : d.length ≤ buffSize) (fits : residue.length + d.tail.length ≤ buffSize) :
    ∃ r', receivePass .useUDP .useMJPEG iPortNum r (.data d) =
        some (r', if closesUnit d then residue ++ d.tail else []) ∧
      Collects r' (if closesUnit d then [] else residue ++ d.tail) := by
  obtain ⟨header, rest, rfl⟩ := List.exists_cons_of_ne_nil hne
  simp only [List.length_cons, List.tail_cons] at short fits ⊢
  obtain ⟨packet, received, held, _⟩ := storeAll_spec r.cRTPPacket 0 (header :: rest)
    (by rw [List.length_cons]; omega)
  have c' : Collects { r with cRTPPacket := packet } residue := ⟨c.size, c.bytes⟩
  obtain ⟨r', body, after⟩ := fragmentedBody_collects c' header rest held short fits
  obtain ⟨b, handled⟩ := fragmentedHandler_eq_body port body
  refine ⟨{ r' with flag := b }, ?_, after.withFlag b⟩
  simp only [receivePass, RecvResult.bytes, RecvResult.iReceived, received, Option.bind_eq_bind,
    Option.bind_some, and_self, if_true, List.length_cons, handled]

/-- The receive loop refines the framing by marks: on datagrams that do not
overrun the payload buffer its outputs are those of the abstract receiver. -/
theorem receiveAll_datagrams {iPortNum : Nat} (port : iPortNum ≠ 1) (ds : List (List UInt8))
    (nonempty : ∀ d ∈ ds, d ≠ []) (short : ∀ d ∈ ds, d.length ≤ buffSize)
    {r : Receiver} {waiting : List (List UInt8)}
    (c : Collects r (payload List.tail waiting))
    (bounded : Bounded closesUnit List.tail buffSize (payload List.tail waiting).length ds) :
    ∃ r', receiveAll .useUDP .useMJPEG iPortNum r (ds.map .data) =
        some (r', outputs closesUnit List.tail waiting ds) ∧
      Collects r' (payload List.tail (leftover closesUnit waiting ds)) := by
  induction ds generalizing r waiting with
  | nil => exact ⟨r, rfl, c⟩
  | cons d ds ih =>
    obtain ⟨fits, rest⟩ := bounded
    obtain ⟨r1, pass, c1⟩ := receivePass_datagram c port (nonempty d List.mem_cons_self)
      (short d List.mem_cons_self) fits
    have nonempty' : ∀ e ∈ ds, e ≠ [] := fun e he => nonempty e (List.mem_cons_of_mem d he)
    have short' : ∀ e ∈ ds, e.length ≤ buffSize := fun e he =>
      short e (List.mem_cons_of_mem d he)
    have grown : payload List.tail (waiting ++ [d]) = payload List.tail waiting ++ d.tail := by
      rw [payload_append, payload_singleton]
    by_cases h : closesUnit d = true
    · rw [if_pos h] at pass c1 rest
      have cleared : Collects r1 (payload List.tail []) := c1
      obtain ⟨r', run, c'⟩ := ih nonempty' short' cleared rest
      refine ⟨r', ?_, ?_⟩
      · simp only [List.map_cons, receiveAll, pass, run, Option.bind_eq_bind, Option.bind_some,
          outputs, if_pos h, grown, Option.pure_def]
      · simpa only [leftover, if_pos h] using c'
    · rw [if_neg h] at pass c1 rest
      rw [← grown] at c1
      have rest' : Bounded closesUnit List.tail buffSize
          (payload List.tail (waiting ++ [d])).length ds := by
        rw [grown, List.length_append]
        exact rest
      obtain ⟨r', run, c'⟩ := ih nonempty' short' c1 rest'
      refine ⟨r', ?_, ?_⟩
      · simp only [List.map_cons, receiveAll, pass, run, Option.bind_eq_bind, Option.bind_some,
          outputs, if_neg h, Option.pure_def]
      · simpa only [leftover, if_neg h] using c'

theorem RecvResult.iReceived_toNat (result : RecvResult) :
    result.iReceived.toNat = result.bytes.length := by
  cases result with
  | error => rfl
  | data bytes => exact Int.toNat_natCast _

/-- A pass of the whole-packet mode writes what it received; an error and an end
of stream write nothing. -/
theorem receivePass_whole {tlayer : Transport} {vcodec : VideoCodec}
    (mode : ¬ (tlayer = .useUDP ∧ vcodec = .useMJPEG)) (iPortNum : Nat) (r : Receiver)
    (result : RecvResult) (short : result.bytes.length ≤ buffSize) :
    ∃ r', receivePass tlayer vcodec iPortNum r result = some (r', result.bytes) := by
  obtain ⟨packet, received, held, _⟩ := storeAll_spec r.cRTPPacket 0 result.bytes (by omega)
  have body : wholeBody { r with cRTPPacket := packet } result.iReceived =
      some ({ r with cRTPPacket := packet }, result.bytes) := by
    rw [wholeBody, result.iReceived_toNat, read_of_le packet (by omega), held]
    rfl
  by_cases hflag : r.flag = true
  · refine ⟨{ r with cRTPPacket := packet, flag := false }, ?_⟩
    simp only [receivePass, received, Option.bind_eq_bind, Option.bind_some, if_neg mode,
      wholeHandler, if_pos hflag, body, Option.map_some]
  · refine ⟨{ r with cRTPPacket := packet }, ?_⟩
    simp only [receivePass, received, Option.bind_eq_bind, Option.bind_some, if_neg mode,
      wholeHandler, if_neg hflag, body]

theorem receiveAll_whole {tlayer : Transport} {vcodec : VideoCodec}
    (mode : ¬ (tlayer = .useUDP ∧ vcodec = .useMJPEG)) (iPortNum : Nat) (r : Receiver)
    (results : List RecvResult) (short : ∀ result ∈ results, result.bytes.length ≤ buffSize) :
    ∃ r', receiveAll tlayer vcodec iPortNum r results =
      some (r', results.map RecvResult.bytes) := by
  induction results generalizing r with
  | nil => exact ⟨r, rfl⟩
  | cons result results ih =>
    obtain ⟨r1, pass⟩ := receivePass_whole mode iPortNum r result
      (short result List.mem_cons_self)
    obtain ⟨r', run⟩ := ih r1 (fun x hx => short x (List.mem_cons_of_mem result hx))
    refine ⟨r', ?_⟩
    simp only [receiveAll, pass, run, Option.bind_eq_bind, Option.bind_some, List.map_cons,
      Option.pure_def]

/-- The handlers use `flag` for the copy of the statements they run only. -/
theorem fragmentedBody_flag (r : Receiver) (iReceived : Int) (b : Bool) :
    fragmentedBody { r with flag := b } iReceived =
      (fragmentedBody r iReceived).map fun x => ({ x.1 with flag := b }, x.2) := by
  simp only [fragmentedBody, Option.bind_eq_bind, Option.pure_def]
  cases collectPayload r.cRTPPacket r.iRTPPacketSizeLocal (iReceived - 1).toNat 1
      r.cRTPPayloadLocal with
  | none => rfl
  | some payload =>
    cases load r.cRTPPacket 0 with
    | none => rfl
    | some header =>
      simp only [Option.bind_some]
      split
      · cases read payload 0 (r.iRTPPacketSizeLocal + (iReceived - 1)).toNat <;> rfl
      · rfl

theorem wholeBody_flag (r : Receiver) (iReceived : Int) (b : Bool) :
    wholeBody { r with flag := b } iReceived =
      (wholeBody r iReceived).map fun x => ({ x.1 with flag := b }, x.2) := by
  simp only [wholeBody, Option.map_map]
  rfl

/-- A handler with its two copies gives the same whichever of them runs, but for the flag. -/
theorem copies_agree (body : Receiver → Option (Receiver × List UInt8))
    (ignores : ∀ r b, body { r with flag := b } =
      (body r).map fun x => ({ x.1 with flag := b }, x.2))
    (r : Receiver) {r' : Receiver} {out : List UInt8}
    (handled : (if r.flag then (body r).map fun (r, out) => ({ r with flag := false }, out)
      else body r) = some (r', out)) (b : Bool) :
    ∃ b', (if b then
        (body { r with flag := b }).map fun (r, out) => ({ r with flag := false }, out)
      else body { r with flag := b }) = some ({ r' with flag := b' }, out) := by
  obtain ⟨r1, ran, same⟩ : ∃ r1, body r = some (r1, out) ∧
      ({ r1 with flag := false } : Receiver) = { r' with flag := false } := by
    split at handled
    · obtain ⟨⟨r1, out1⟩, ran, result⟩ := Option.map_eq_some_iff.mp handled
      obtain ⟨rfl, rfl⟩ := Prod.mk.inj result
      exact ⟨r1, ran, rfl⟩
    · exact ⟨r', handled, rfl⟩
  refine ⟨false, ?_⟩
  rw [ignores, ran, ← same]
  cases b <;> rfl

theorem receivePass_flag {tlayer : Transport} {vcodec : VideoCodec} {iPortNum : Nat}
    {r r' : Receiver} {result : RecvResult} {out : List UInt8}
    (handled : receivePass tlayer vcodec iPortNum r result = some (r', out)) (b : Bool) :
    ∃ b', receivePass tlayer vcodec iPortNum { r with flag := b } result =
      some ({ r' with flag := b' }, out) := by
  obtain ⟨packet, stored, rest⟩ := Option.bind_eq_some_iff.mp handled
  have storedAlso : storeAll { r with flag := b }.cRTPPacket 0 result.bytes =
      some packet := stored
  simp only [receivePass, storedAlso, Option.bind_eq_bind, Option.bind_some]
  by_cases fragments : tlayer = .useUDP ∧ vcodec = .useMJPEG
  · simp only [if_pos fragments, fragmentedHandler] at rest ⊢
    by_cases port : iPortNum ≠ 1
    · simp only [if_pos port] at rest ⊢
      exact copies_agree (fragmentedBody · result.iReceived)
        (fun r b => fragmentedBody_flag r result.iReceived b) { r with cRTPPacket := packet } rest b
    · simp only [if_neg port] at rest ⊢
      obtain ⟨rfl, rfl⟩ := Prod.mk.inj (Option.some.inj rest)
      exact ⟨b, rfl⟩
  · simp only [if_neg fragments, wholeHandler] at rest ⊢
    exact copies_agree (wholeBody · result.iReceived)
      (fun r b => wholeBody_flag r result.iReceived b) { r with cRTPPacket := packet } rest b

theorem receiveAll_single {tlayer : Transport} {vcodec : VideoCodec} {iPortNum : Nat}
    {r r' : Receiver} {result : RecvResult} {out : List UInt8}
    (pass : receivePass tlayer vcodec iPortNum r result = some (r', out)) :
    receiveAll tlayer vcodec iPortNum r [result] = some (r', [out]) := by
  simp only [receiveAll, pass, Option.bind_eq_bind, Option.bind_some, Option.pure_def]

theorem receiveAll_append {tlayer : Transport} {vcodec : VideoCodec} {iPortNum : Nat}
    {r r1 r2 : Receiver} {results later : List RecvResult} {outs outs' : List (List UInt8)}
    (before : receiveAll tlayer vcodec iPortNum r results = some (r1, outs))
    (after : receiveAll tlayer vcodec iPortNum r1 later = some (r2, outs')) :
    receiveAll tlayer vcodec iPortNum r (results ++ later) = some (r2, outs ++ outs') := by
  induction results generalizing r outs with
  | nil =>
    obtain ⟨rfl, rfl⟩ := Prod.mk.inj (Option.some.inj before)
    exact after
  | cons first results ih =>
    obtain ⟨⟨r3, out3⟩, here, rest⟩ := Option.bind_eq_some_iff.mp before
    obtain ⟨⟨r4, outs4⟩, between, same⟩ := Option.bind_eq_some_iff.mp rest
    obtain ⟨rfl, rfl⟩ := Prod.mk.inj (Option.some.inj same)
    simp only [List.cons_append, receiveAll, here, ih between, Option.bind_eq_bind,
      Option.bind_some, Option.pure_def]

end ClientReceiver
