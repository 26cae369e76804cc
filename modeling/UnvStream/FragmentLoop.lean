import UnvStream.CheckedMemory
import UnvStream.MarkedFraming
import UnvStream.Vocabulary
import Mathlib.Data.List.Range
import Mathlib.Tactic.Ring

/-!
# The encoder side of `runVideoLoop`

One pass of the loop takes the bytes the encoder left in `packetBufferVid` and
hands byte strings to `addFrame` or to the output file. On UDP with MJPEG the
pass accumulates frames in `pOutBufferVid` and cuts them into chunks, writing
each chunk's header over the last payload byte of the chunk before it.
-/

namespace FragmentLoop

open CheckedMemory MarkedFraming Vocabulary

def minFlushBuffSize : Nat := 1500
def maxFlushBuffSize : Nat := 20000
def outBufferSize : Nat := 100000

structure CliOpts where
  transport : Transport
  vcodec : VideoCodec
  savevideo : Bool

/-- What `avcodec_encode_video` leaves in `packetBufferVid` when it returns a
positive `iEncodedBytes`; it is given `iOutBufferSize` as the room it has. -/
structure EncodedFrame where
  bytes : List UInt8
  nonempty : bytes ≠ []
  room : bytes.length ≤ outBufferSize

/-- A call of `addFrame` with the bytes it is given, or an `fwrite` to
`pOutputVideo`. -/
inductive Emission where
  | addFrame (frame : List UInt8)
  | saved (data : List UInt8)
  deriving DecidableEq

structure VideoBuffer where
  pOutBufferVid : Vector UInt8 outBufferSize
  pOutBufferVidSize : Nat

def VideoBuffer.cleared : VideoBuffer := ⟨Vector.replicate outBufferSize 0, 0⟩

/-- The copy loop, from index `i` on, for a buffer that held `size` bytes. -/
def copyFrame (size : Nat) (packet : List UInt8) :
    Nat → Nat → Vector UInt8 outBufferSize → Option (Vector UInt8 outBufferSize)
  | 0, _, buf => some buf
  | n + 1, i, buf => do
    let buf ← if size = 0 then (packet[i]?).bind (store buf (i + 1))
      else (packet[i - size]?).bind (store buf i)
    copyFrame size packet n (i + 1) buf

/-- The header byte of an empty buffer is counted with its first frame. -/
def accumulatedSize (size encodedBytes : Nat) : Nat :=
  if size = 0 then size + (encodedBytes + 1) else size + encodedBytes

/-- The chunk of `len` bytes at `off`, header included, goes to `addFrame`;
the file gets the same bytes without the header. -/
def emitChunk (savevideo : Bool) (buf : Vector UInt8 outBufferSize) (off len : Nat) :
    Option Emission :=
  if savevideo then (read buf (off + 1) (len - 1)).map .saved
  else (read buf off len).map .addFrame

/-- `n` intermediate chunks, numbered from `i` on. -/
def middleChunks (savevideo : Bool) :
    Nat → Nat → Vector UInt8 outBufferSize →
      Option (Vector UInt8 outBufferSize × List Emission)
  | 0, _, buf => some (buf, [])
  | n + 1, i, buf => do
    let buf ← store buf (i * maxFlushBuffSize - 1) (UInt8.ofNat i)
    let chunk ← emitChunk savevideo buf (i * maxFlushBuffSize - 1) (maxFlushBuffSize + 1)
    let (buf, chunks) ← middleChunks savevideo n (i + 1) buf
    return (buf, chunk :: chunks)

/-- A flush of `size` bytes. The size is cleared in the branch of the last
chunk only, so a size that leaves no remainder stays as it is. -/
def flush (savevideo : Bool) (packet : List UInt8) (buf : Vector UInt8 outBufferSize)
    (size : Nat) : Option (VideoBuffer × List Emission) :=
  if maxFlushBuffSize < size then do
    let buf ← store buf 0 0
    let first ← emitChunk savevideo buf 0 maxFlushBuffSize
    let (buf, middle) ← middleChunks savevideo (size / maxFlushBuffSize - 1) 1 buf
    if 0 < size % maxFlushBuffSize then do
      let buf ← store buf (size / maxFlushBuffSize * maxFlushBuffSize - 1) 127
      let last ← emitChunk savevideo buf (size / maxFlushBuffSize * maxFlushBuffSize - 1)
        (size % maxFlushBuffSize + 1)
      return (⟨buf, 0⟩, first :: middle ++ [last])
    else return (⟨buf, size⟩, first :: middle)
  else do
    let buf ← store buf 0 127
    if savevideo then return (⟨buf, 0⟩, [.saved packet])
    else
      let whole ← read buf 0 size
      return (⟨buf, 0⟩, [.addFrame whole])

def fragmentFrame (savevideo : Bool) (vid : VideoBuffer) (packet : List UInt8) :
    Option (VideoBuffer × List Emission) := do
  let buf ← copyFrame vid.pOutBufferVidSize packet packet.length vid.pOutBufferVidSize
    vid.pOutBufferVid
  let size := accumulatedSize vid.pOutBufferVidSize packet.length
  if minFlushBuffSize < size then flush savevideo packet buf size
  else return (⟨buf, size⟩, [])

/-- The network part of one pass with `iEncodedBytes > 0`. -/
def videoPass (opts : CliOpts) (vid : VideoBuffer) (packet : List UInt8) :
    Option (VideoBuffer × List Emission) :=
  if opts.transport = .useUDP ∧ opts.vcodec = .useMJPEG then
    fragmentFrame opts.savevideo vid packet
  else some (vid, [.addFrame packet])

/-- The network part of the loop over the encoded frames. -/
def videoRun (opts : CliOpts) :
    VideoBuffer → List EncodedFrame → Option (VideoBuffer × List Emission)
  | vid, [] => some (vid, [])
  | vid, frame :: frames => do
    let (vid, emissions) ← videoPass opts vid frame.bytes
    let (vid, later) ← videoRun opts vid frames
    return (vid, emissions ++ later)

/-- The byte strings that reach `addFrame`. -/
def addFrameCalls (emissions : List Emission) : List (List UInt8) :=
  emissions.filterMap fun
    | .addFrame frame => some frame
    | .saved _ => none

/-- A pass of the fragmentation code is a flush when it finds the accumulated
size above the minimum. -/
def passFlushes (vid : VideoBuffer) (packet : List UInt8) : Bool :=
  minFlushBuffSize < accumulatedSize vid.pOutBufferVidSize packet.length

/-- The sizes that are cut without a remainder. -/
def ExactMultiple (size : Nat) : Prop :=
  maxFlushBuffSize < size ∧ size % maxFlushBuffSize = 0

instance (size : Nat) : Decidable (ExactMultiple size) :=
  inferInstanceAs (Decidable (_ ∧ _))

@[simp] theorem addFrameCalls_map (chunks : List (List UInt8)) :
    addFrameCalls (chunks.map .addFrame) = chunks := by
  simp [addFrameCalls, List.filterMap_map]

theorem videoPass_udp_mjpeg (savevideo : Bool) (vid : VideoBuffer) (packet : List UInt8) :
    videoPass ⟨.useUDP, .useMJPEG, savevideo⟩ vid packet = fragmentFrame savevideo vid packet :=
  if_pos ⟨rfl, rfl⟩

/-- Without the fragmentation code every frame is handed over as it is. -/
theorem videoRun_unfragmented {opts : CliOpts}
    (mode : ¬ (opts.transport = .useUDP ∧ opts.vcodec = .useMJPEG)) (vid : VideoBuffer)
    (frames : List EncodedFrame) :
    videoRun opts vid frames =
      some (vid, (frames.map EncodedFrame.bytes).map .addFrame) := by
  induction frames with
  | nil => rfl
  | cons frame frames ih =>
    simp only [videoRun, videoPass, if_neg mode, ih, Option.bind_eq_bind, Option.bind_some,
      List.singleton_append, List.map_cons, Option.pure_def]

theorem passFlushes_iff (vid : VideoBuffer) (packet : List UInt8) :
    passFlushes vid packet = true ↔
      minFlushBuffSize < accumulatedSize vid.pOutBufferVidSize packet.length :=
  decide_eq_true_iff

theorem accumulatedSize_pos (size : Nat) {encodedBytes : Nat} (h : 0 < encodedBytes) :
    0 < accumulatedSize size encodedBytes := by
  unfold accumulatedSize
  split <;> omega

/-- The copy loop is one block of stores behind the bytes already held. -/
theorem copyFrame_eq_storeAll (size : Nat) (packet : List UInt8) (n i : Nat)
    (buf : Vector UInt8 outBufferSize) (hi : size ≤ i) (hn : i - size + n = packet.length) :
    copyFrame size packet n i buf =
      storeAll buf (if size = 0 then i + 1 else i) (packet.drop (i - size)) := by
  induction n generalizing i buf with
  | zero =>
    rw [List.drop_eq_nil_of_le (by omega)]
    rfl
  | succ n ih =>
    have hlt : i - size < packet.length := by omega
    have tail := fun b => ih (i + 1) b (by omega) (by omega)
    rw [show i + 1 - size = i - size + 1 by omega] at tail
    rw [copyFrame, List.drop_eq_getElem_cons hlt, storeAll]
    by_cases hs : size = 0
    · subst hs
      simp only [Nat.sub_zero] at hlt tail
      simp only [if_true, Nat.sub_zero, List.getElem?_eq_getElem hlt, Option.bind_some] at tail ⊢
      exact congrArg (Option.bind _) (funext tail)
    · simp only [if_neg hs, List.getElem?_eq_getElem hlt, Option.bind_some] at tail ⊢
      exact congrArg (Option.bind _) (funext tail)

/-- What a flush of the payload `bytes` puts on the wire. -/
def flushChunks (bytes : List UInt8) : List (List UInt8) :=
  let size := bytes.length + 1
  if maxFlushBuffSize < size then
    (0 :: bytes.take (maxFlushBuffSize - 1)) ::
      (List.range' 1 (size / maxFlushBuffSize - 1)).map (fun k =>
        UInt8.ofNat k :: (bytes.drop (k * maxFlushBuffSize - 1)).take maxFlushBuffSize) ++
      (if 0 < size % maxFlushBuffSize then
        [127 :: bytes.drop (size / maxFlushBuffSize * maxFlushBuffSize - 1)] else [])
  else [127 :: bytes]

theorem region_payload_drop (buf : Vector UInt8 outBufferSize) {size off : Nat}
    (hoff : 1 ≤ off) (hle : off ≤ size) :
    (region buf 1 (size - 1)).drop (off - 1) = region buf off (size - off) := by
  have split : size - 1 = (off - 1) + (size - off) := by omega
  rw [split, region_drop]
  congr 1
  omega

theorem maxFlushBuffSize_pos : 0 < maxFlushBuffSize := by decide

/-- How a chunk leaves the loop: the file gets it without its header byte. -/
def emission (savevideo : Bool) (chunk : List UInt8) : Emission :=
  if savevideo then .saved chunk.tail else .addFrame chunk

theorem emitChunk_eq (savevideo : Bool) (buf : Vector UInt8 outBufferSize) {off len : Nat}
    (pos : 0 < len) (fits : off + len ≤ outBufferSize) :
    emitChunk savevideo buf off len = some (emission savevideo (region buf off len)) := by
  cases savevideo with
  | false =>
    simp only [emitChunk, emission, Bool.false_eq_true, if_false, read_of_le buf fits,
      Option.map_some]
  | true =>
    have body : (region buf off len).tail = region buf (off + 1) (len - 1) := by
      have h := region_drop buf off 1 (len - 1)
      rwa [Nat.add_sub_cancel' pos, List.drop_one] at h
    simp only [emitChunk, emission, if_true, body,
      read_of_le buf (show off + 1 + (len - 1) ≤ outBufferSize by omega), Option.map_some]

/-- The chunks are the same in a buffer that is the same where they lie. -/
theorem emissions_congr {buf buf' : Vector UInt8 outBufferSize} {i : Nat} (n : Nat)
    (same : ∀ k, i ≤ k → region buf' (k * maxFlushBuffSize) maxFlushBuffSize =
      region buf (k * maxFlushBuffSize) maxFlushBuffSize) (savevideo : Bool) :
    ((List.range' i n).map fun k => emission savevideo
        (UInt8.ofNat k :: region buf' (k * maxFlushBuffSize) maxFlushBuffSize)) =
      (List.range' i n).map fun k => emission savevideo
        (UInt8.ofNat k :: region buf (k * maxFlushBuffSize) maxFlushBuffSize) := by
  apply List.map_congr_left
  intro k among
  rw [same k (List.mem_range'_1.mp among).1]

/-- Every intermediate chunk carries the cells the buffer held before the loop:
its own header lies below them and the later headers lie above. -/
theorem middleChunks_sends (n i : Nat) (buf : Vector UInt8 outBufferSize) (hi : 1 ≤ i)
    (fits : (i + n) * maxFlushBuffSize ≤ outBufferSize) :
    ∃ buf', (∀ savevideo, middleChunks savevideo n i buf =
        some (buf', (List.range' i n).map fun k => emission savevideo
          (UInt8.ofNat k :: region buf (k * maxFlushBuffSize) maxFlushBuffSize))) ∧
      ∀ off len, (i + n - 1) * maxFlushBuffSize ≤ off →
        region buf' off len = region buf off len := by
  induction n generalizing i buf with
  | zero => exact ⟨buf, fun _ => rfl, fun _ _ _ => rfl⟩
  | succ n ih =>
    have pos := maxFlushBuffSize_pos
    have first : maxFlushBuffSize ≤ i * maxFlushBuffSize := Nat.le_mul_of_pos_left _ hi
    have last : (i + (n + 1)) * maxFlushBuffSize =
        i * maxFlushBuffSize + n * maxFlushBuffSize + maxFlushBuffSize := by ring
    have inside : i * maxFlushBuffSize - 1 < outBufferSize := by omega
    have chunkFits : i * maxFlushBuffSize - 1 + (maxFlushBuffSize + 1) ≤ outBufferSize := by omega
    obtain ⟨marked, hstore, atHeader, beside⟩ := store_spec buf (UInt8.ofNat i) inside
    have tailFits : (i + 1 + n) * maxFlushBuffSize ≤ outBufferSize := by
      rw [Nat.add_assoc, Nat.add_comm 1 n]
      exact fits
    obtain ⟨buf', run, frame⟩ := ih (i + 1) marked (by omega) tailFits
    have above : ∀ off len, i * maxFlushBuffSize ≤ off →
        region marked off len = region buf off len :=
      fun off len hoff => beside off len (Or.inl (by omega))
    have header : region marked (i * maxFlushBuffSize - 1) (maxFlushBuffSize + 1) =
        UInt8.ofNat i :: region buf (i * maxFlushBuffSize) maxFlushBuffSize := by
      rw [atHeader, Nat.sub_add_cancel (by omega)]
    have rest : ∀ k, i + 1 ≤ k → region marked (k * maxFlushBuffSize) maxFlushBuffSize =
        region buf (k * maxFlushBuffSize) maxFlushBuffSize :=
      fun k later => above _ _ (Nat.mul_le_mul_right _ (Nat.le_of_succ_le later))
    refine ⟨buf', ?_, ?_⟩
    · intro savevideo
      simp only [middleChunks, hstore, emitChunk_eq savevideo marked (Nat.succ_pos _) chunkFits,
        Option.bind_eq_bind, Option.bind_some, run savevideo, header, List.range'_succ,
        List.map_cons, Option.pure_def, emissions_congr n rest savevideo]
    · intro off len hoff
      have hoff' : (i + n) * maxFlushBuffSize ≤ off := hoff
      have hlow : i * maxFlushBuffSize ≤ off :=
        Nat.le_trans (Nat.mul_le_mul_right _ (by omega)) hoff'
      rw [frame off len (by rw [show i + 1 + n - 1 = i + n by omega]; exact hoff'),
        above off len hlow]

theorem quotient_fits {size : Nat} (long : maxFlushBuffSize < size) :
    1 ≤ size / maxFlushBuffSize ∧
      size / maxFlushBuffSize * maxFlushBuffSize + size % maxFlushBuffSize = size := by
  have pos := maxFlushBuffSize_pos
  refine ⟨(Nat.one_le_div_iff pos).mpr (Nat.le_of_lt long), ?_⟩
  have h := Nat.div_add_mod size maxFlushBuffSize
  rw [Nat.mul_comm] at h
  exact h

/-- The chunks of a long payload, read off the buffer that holds it. -/
theorem flushChunks_region (buf : Vector UInt8 outBufferSize) {size : Nat}
    (fits : size ≤ outBufferSize) (long : maxFlushBuffSize < size) :
    flushChunks (region buf 1 (size - 1)) =
      (0 :: region buf 1 (maxFlushBuffSize - 1)) ::
        (List.range' 1 (size / maxFlushBuffSize - 1)).map (fun k =>
          UInt8.ofNat k :: region buf (k * maxFlushBuffSize) maxFlushBuffSize) ++
        (if 0 < size % maxFlushBuffSize then
          [127 :: region buf (size / maxFlushBuffSize * maxFlushBuffSize)
            (size % maxFlushBuffSize)] else []) := by
  have pos := maxFlushBuffSize_pos
  obtain ⟨hq, hsize⟩ := quotient_fits long
  have len : (region buf 1 (size - 1)).length + 1 = size := by
    rw [region_length buf (by omega)]
    omega
  have mul_le : ∀ k, k ≤ size / maxFlushBuffSize →
      k * maxFlushBuffSize ≤ size / maxFlushBuffSize * maxFlushBuffSize :=
    fun k hk => Nat.mul_le_mul_right _ hk
  have le_mul : ∀ k, 1 ≤ k → maxFlushBuffSize ≤ k * maxFlushBuffSize :=
    fun k hk => Nat.le_mul_of_pos_left _ hk
  have middle : ∀ k ∈ List.range' 1 (size / maxFlushBuffSize - 1),
      UInt8.ofNat k :: ((region buf 1 (size - 1)).drop (k * maxFlushBuffSize - 1)).take
          maxFlushBuffSize =
        UInt8.ofNat k :: region buf (k * maxFlushBuffSize) maxFlushBuffSize := by
    intro k hk
    have hk' := List.mem_range'_1.mp hk
    have lower := le_mul k hk'.1
    have upper := mul_le (k + 1) (by omega)
    rw [Nat.add_mul, Nat.one_mul] at upper
    rw [region_payload_drop buf (by omega) (by omega), region_take buf _ (by omega)]
  have lower := le_mul _ hq
  have remainder : size - size / maxFlushBuffSize * maxFlushBuffSize =
      size % maxFlushBuffSize := by omega
  unfold flushChunks
  simp only [len, if_pos long, region_take buf 1 (show maxFlushBuffSize - 1 ≤ size - 1 by omega),
    List.map_congr_left middle, region_payload_drop buf (show 1 ≤ _ by omega)
      (show size / maxFlushBuffSize * maxFlushBuffSize ≤ size by omega), remainder]

/-- The first chunk and the intermediate ones; the last one is still as it was. -/
theorem leadingChunks_sends (buf : Vector UInt8 outBufferSize) {size : Nat}
    (fits : size ≤ outBufferSize) (long : maxFlushBuffSize < size) :
    ∃ b1 b2, store buf 0 0 = some b1 ∧
      region b1 0 maxFlushBuffSize = 0 :: region buf 1 (maxFlushBuffSize - 1) ∧
      (∀ savevideo, middleChunks savevideo (size / maxFlushBuffSize - 1) 1 b1 = some (b2,
        (List.range' 1 (size / maxFlushBuffSize - 1)).map fun k => emission savevideo
          (UInt8.ofNat k :: region buf (k * maxFlushBuffSize) maxFlushBuffSize))) ∧
      ∀ len, region b2 (size / maxFlushBuffSize * maxFlushBuffSize) len =
        region buf (size / maxFlushBuffSize * maxFlushBuffSize) len := by
  have posMax := maxFlushBuffSize_pos
  have inside : 0 < outBufferSize := by omega
  obtain ⟨hq, hsize⟩ := quotient_fits long
  have lower : maxFlushBuffSize ≤ size / maxFlushBuffSize * maxFlushBuffSize :=
    Nat.le_mul_of_pos_left _ hq
  obtain ⟨b1, store1, head1, beside1⟩ := store_spec buf (0 : UInt8) inside
  have above1 : ∀ off len, 1 ≤ off → region b1 off len = region buf off len :=
    fun off len hoff => beside1 off len (Or.inl hoff)
  have first : region b1 0 maxFlushBuffSize = 0 :: region buf 1 (maxFlushBuffSize - 1) := by
    have h := head1 (maxFlushBuffSize - 1)
    rwa [Nat.sub_add_cancel posMax] at h
  have loopFits : (1 + (size / maxFlushBuffSize - 1)) * maxFlushBuffSize ≤ outBufferSize := by
    rw [Nat.add_sub_cancel' hq]
    omega
  obtain ⟨b2, loop, beside2⟩ :=
    middleChunks_sends (size / maxFlushBuffSize - 1) 1 b1 (Nat.le_refl 1) loopFits
  have middle : ∀ k, 1 ≤ k → region b1 (k * maxFlushBuffSize) maxFlushBuffSize =
      region buf (k * maxFlushBuffSize) maxFlushBuffSize :=
    fun k positive => above1 _ _ (Nat.mul_pos positive posMax)
  refine ⟨b1, b2, store1, first, ?_, ?_⟩
  · intro savevideo
    rw [loop savevideo, emissions_congr _ middle savevideo]
  · intro len
    have beyond : (1 + (size / maxFlushBuffSize - 1) - 1) * maxFlushBuffSize ≤
        size / maxFlushBuffSize * maxFlushBuffSize := Nat.mul_le_mul_right _ (by omega)
    exact (beside2 _ len beyond).trans (above1 _ len (by omega))

/-- What a flush of the payload `bytes` emits when `packet` is the last frame: a flush
that is not cut saves that frame and not the payload. -/
def flushEmissions (savevideo : Bool) (packet bytes : List UInt8) : List Emission :=
  if savevideo = true ∧ bytes.length + 1 ≤ maxFlushBuffSize then [.saved packet]
  else (flushChunks bytes).map (emission savevideo)

theorem flushEmissions_sent (packet bytes : List UInt8) :
    flushEmissions false packet bytes = (flushChunks bytes).map .addFrame := by
  simp [flushEmissions, emission]

theorem flush_emits_long (packet : List UInt8) (buf : Vector UInt8 outBufferSize) {size : Nat}
    (fits : size ≤ outBufferSize) (long : maxFlushBuffSize < size) :
    ∃ buf', ∀ savevideo, flush savevideo packet buf size =
      some (⟨buf', if ExactMultiple size then size else 0⟩,
        (flushChunks (region buf 1 (size - 1))).map (emission savevideo)) := by
  have posMax := maxFlushBuffSize_pos
  obtain ⟨hq, hsize⟩ := quotient_fits long
  have lower : maxFlushBuffSize ≤ size / maxFlushBuffSize * maxFlushBuffSize :=
    Nat.le_mul_of_pos_left _ hq
  obtain ⟨b1, b2, store1, first, loop, beyond⟩ := leadingChunks_sends buf fits long
  have firstFits : 0 + maxFlushBuffSize ≤ outBufferSize := by omega
  rw [flushChunks_region buf fits long]
  by_cases rem : 0 < size % maxFlushBuffSize
  · have lastInside : size / maxFlushBuffSize * maxFlushBuffSize - 1 < outBufferSize := by omega
    have lastFits : size / maxFlushBuffSize * maxFlushBuffSize - 1 +
        (size % maxFlushBuffSize + 1) ≤ outBufferSize := by omega
    obtain ⟨b3, store3, head3, _⟩ := store_spec b2 (127 : UInt8) lastInside
    have last : region b3 (size / maxFlushBuffSize * maxFlushBuffSize - 1)
        (size % maxFlushBuffSize + 1) =
        127 :: region buf (size / maxFlushBuffSize * maxFlushBuffSize)
          (size % maxFlushBuffSize) := by
      rw [head3, Nat.sub_add_cancel (by omega), beyond]
    have notExact : ¬ ExactMultiple size := fun h => Nat.ne_of_gt rem h.2
    refine ⟨b3, fun savevideo => ?_⟩
    simp [flush, long, rem, notExact, store1, store3, loop savevideo, first, last,
      emitChunk_eq savevideo b1 posMax firstFits,
      emitChunk_eq savevideo b3 (Nat.succ_pos _) lastFits]
  · have exact' : ExactMultiple size := ⟨long, by omega⟩
    refine ⟨b2, fun savevideo => ?_⟩
    simp [flush, long, rem, exact', store1, loop savevideo, first,
      emitChunk_eq savevideo b1 posMax firstFits]

theorem flush_emits_short (packet : List UInt8) (buf : Vector UInt8 outBufferSize) {size : Nat}
    (pos : 0 < size) (fits : size ≤ outBufferSize) (short : ¬ maxFlushBuffSize < size) :
    ∃ buf', ∀ savevideo, flush savevideo packet buf size =
      some (⟨buf', 0⟩, [if savevideo then .saved packet
        else .addFrame (127 :: region buf 1 (size - 1))]) := by
  have inside : 0 < outBufferSize := by omega
  have wholeFits : 0 + size ≤ outBufferSize := by omega
  obtain ⟨b1, store1, head1, _⟩ := store_spec buf (127 : UInt8) inside
  have whole : region b1 0 size = 127 :: region buf 1 (size - 1) := by
    have h := head1 (size - 1)
    rwa [Nat.sub_add_cancel pos] at h
  refine ⟨b1, fun savevideo => ?_⟩
  cases savevideo with
  | false => simp [flush, short, store1, whole, read_of_le b1 wholeFits]
  | true => simp [flush, short, store1]

/-- A flush emits the chunks of the payload it finds in the buffer, whatever the buffer
held before, and clears the size unless there was no remainder. The buffer it leaves does
not depend on where the chunks went. -/
theorem flush_emits (packet : List UInt8) (buf : Vector UInt8 outBufferSize) {size : Nat}
    (pos : 0 < size) (fits : size ≤ outBufferSize) :
    ∃ buf', ∀ savevideo, flush savevideo packet buf size =
      some (⟨buf', if ExactMultiple size then size else 0⟩,
        flushEmissions savevideo packet (region buf 1 (size - 1))) := by
  have len : (region buf 1 (size - 1)).length + 1 = size := by
    rw [region_length buf (by omega)]
    omega
  by_cases long : maxFlushBuffSize < size
  · obtain ⟨buf', emits⟩ := flush_emits_long packet buf fits long
    refine ⟨buf', fun savevideo => ?_⟩
    have cut : ¬ (savevideo = true ∧ size ≤ maxFlushBuffSize) := fun h =>
      Nat.not_lt.mpr h.2 long
    rw [emits savevideo, flushEmissions, len, if_neg cut]
  · have notExact : ¬ ExactMultiple size := fun h => long h.1
    have chunks : flushChunks (region buf 1 (size - 1)) = [127 :: region buf 1 (size - 1)] := by
      simp only [flushChunks, len, if_neg long]
    obtain ⟨buf', emits⟩ := flush_emits_short packet buf pos fits long
    refine ⟨buf', fun savevideo => ?_⟩
    rw [emits savevideo, if_neg notExact, flushEmissions, len, chunks]
    cases savevideo with
    | false => simp [emission]
    | true => simp [Nat.not_lt.mp long]

/-- The header byte 127 marks a datagram after which nothing of the flush is due. -/
def closesUnit (datagram : List UInt8) : Bool := datagram.head? == some 127

theorem closesUnit_last (rest : List UInt8) : closesUnit (127 :: rest) = true := rfl

theorem closesUnit_numbered {k : Nat} (h : k < 127) (rest : List UInt8) :
    closesUnit (UInt8.ofNat k :: rest) = false := by
  have hne : UInt8.ofNat k ≠ 127 := by
    intro heq
    have hval := congrArg UInt8.toNat heq
    rw [UInt8.toNat_ofNat_of_lt' (by simp only [UInt8.size]; omega)] at hval
    have h127 : (127 : UInt8).toNat = 127 := rfl
    omega
  simpa [closesUnit] using hne

/-- Consecutive intermediate chunks carry one contiguous stretch of the payload. -/
theorem middle_payload (bytes : List UInt8) (n i : Nat) (hi : 1 ≤ i) :
    payload List.tail ((List.range' i n).map fun k =>
        UInt8.ofNat k :: (bytes.drop (k * maxFlushBuffSize - 1)).take maxFlushBuffSize) =
      (bytes.drop (i * maxFlushBuffSize - 1)).take (n * maxFlushBuffSize) := by
  induction n generalizing i with
  | zero => simp
  | succ n ih =>
    have lower : maxFlushBuffSize ≤ i * maxFlushBuffSize := Nat.le_mul_of_pos_left _ hi
    have pos := maxFlushBuffSize_pos
    have next : i * maxFlushBuffSize - 1 + maxFlushBuffSize = (i + 1) * maxFlushBuffSize - 1 := by
      rw [Nat.add_mul, Nat.one_mul]
      omega
    have total : (n + 1) * maxFlushBuffSize = maxFlushBuffSize + n * maxFlushBuffSize := by
      rw [Nat.add_mul, Nat.one_mul, Nat.add_comm]
    rw [List.range'_succ, List.map_cons, payload_cons, ih (i + 1) (by omega), List.tail_cons,
      total, List.take_add, List.drop_drop, next]

/-- No byte of a flush is lost or sent twice, with or without a remainder. -/
theorem flushChunks_payload (bytes : List UInt8) :
    payload List.tail (flushChunks bytes) = bytes := by
  have pos := maxFlushBuffSize_pos
  by_cases long : maxFlushBuffSize < bytes.length + 1
  · obtain ⟨hq, hsize⟩ := quotient_fits long
    have lower : maxFlushBuffSize ≤
        (bytes.length + 1) / maxFlushBuffSize * maxFlushBuffSize := Nat.le_mul_of_pos_left _ hq
    have span : (maxFlushBuffSize - 1) + ((bytes.length + 1) / maxFlushBuffSize - 1) *
        maxFlushBuffSize = (bytes.length + 1) / maxFlushBuffSize * maxFlushBuffSize - 1 := by
      rw [Nat.sub_mul, Nat.one_mul]
      omega
    have front : bytes.take (maxFlushBuffSize - 1) ++
        (bytes.drop (1 * maxFlushBuffSize - 1)).take
          (((bytes.length + 1) / maxFlushBuffSize - 1) * maxFlushBuffSize) =
        bytes.take ((bytes.length + 1) / maxFlushBuffSize * maxFlushBuffSize - 1) := by
      rw [Nat.one_mul, ← List.take_add, span]
    simp only [flushChunks, if_pos long]
    rw [List.cons_append, payload_cons, payload_append, middle_payload _ _ _ (Nat.le_refl 1),
      List.tail_cons, ← List.append_assoc, front]
    by_cases rem : 0 < (bytes.length + 1) % maxFlushBuffSize
    · rw [if_pos rem, payload_singleton, List.tail_cons, List.take_append_drop]
    · rw [if_neg rem, payload_nil, List.append_nil, List.take_of_length_le (by omega)]
  · simp [flushChunks, long]

/-- The chunks before the remainder of a long flush are numbered below 127. -/
theorem numbered_chunks_open (bytes : List UInt8) (fits : bytes.length + 1 ≤ outBufferSize) :
    ∀ c ∈ (0 :: bytes.take (maxFlushBuffSize - 1)) ::
      (List.range' 1 ((bytes.length + 1) / maxFlushBuffSize - 1)).map (fun k =>
        UInt8.ofNat k :: (bytes.drop (k * maxFlushBuffSize - 1)).take maxFlushBuffSize),
      closesUnit c = false := by
  intro c hc
  rcases List.mem_cons.mp hc with rfl | hc
  · exact closesUnit_numbered (by omega : 0 < 127) _
  · obtain ⟨k, hk, rfl⟩ := List.mem_map.mp hc
    have hk' := List.mem_range'_1.mp hk
    apply closesUnit_numbered
    simp only [outBufferSize, maxFlushBuffSize] at fits hk'
    omega

/-- A flush is one chunk, or a first chunk, numbered ones and possibly a remainder. -/
theorem mem_flushChunks {bytes c : List UInt8} (hc : c ∈ flushChunks bytes) :
    (¬ maxFlushBuffSize < bytes.length + 1 ∧ c = 127 :: bytes) ∨
    (maxFlushBuffSize < bytes.length + 1 ∧ (c = 0 :: bytes.take (maxFlushBuffSize - 1) ∨
      (∃ k, 1 ≤ k ∧ k < (bytes.length + 1) / maxFlushBuffSize ∧
        c = UInt8.ofNat k :: (bytes.drop (k * maxFlushBuffSize - 1)).take maxFlushBuffSize) ∨
      (0 < (bytes.length + 1) % maxFlushBuffSize ∧ c =
        127 :: bytes.drop ((bytes.length + 1) / maxFlushBuffSize * maxFlushBuffSize - 1)))) := by
  unfold flushChunks at hc
  by_cases long : maxFlushBuffSize < bytes.length + 1
  · simp only [if_pos long] at hc
    refine Or.inr ⟨long, ?_⟩
    rcases List.mem_append.mp hc with hc | hc
    · rcases List.mem_cons.mp hc with rfl | hc
      · exact Or.inl rfl
      · obtain ⟨k, hk, rfl⟩ := List.mem_map.mp hc
        have hk' := List.mem_range'_1.mp hk
        exact Or.inr (Or.inl ⟨k, hk'.1, by omega, rfl⟩)
    · by_cases rem : 0 < (bytes.length + 1) % maxFlushBuffSize
      · rw [if_pos rem] at hc
        exact Or.inr (Or.inr ⟨rem, List.mem_singleton.mp hc⟩)
      · rw [if_neg rem] at hc
        cases hc
  · simp only [if_neg long] at hc
    exact Or.inl ⟨long, List.mem_singleton.mp hc⟩

theorem flushChunks_nonempty (bytes : List UInt8) : ∀ c ∈ flushChunks bytes, c ≠ [] := by
  intro c hc
  obtain ⟨_, rfl⟩ | ⟨_, rfl | ⟨k, _, _, rfl⟩ | ⟨_, rfl⟩⟩ := mem_flushChunks hc
  all_goals exact List.cons_ne_nil _ _

/-- A datagram is at most one byte longer than the payload of its flush. -/
theorem flushChunks_length_le (bytes : List UInt8) :
    ∀ c ∈ flushChunks bytes, c.length ≤ bytes.length + 1 := by
  intro c hc
  have part := length_body_le List.tail hc
  rw [flushChunks_payload, List.length_tail] at part
  omega

theorem flushChunks_complete (bytes : List UInt8) (fits : bytes.length + 1 ≤ outBufferSize)
    (remainder : ¬ ExactMultiple (bytes.length + 1)) :
    Complete closesUnit (flushChunks bytes) := by
  by_cases long : maxFlushBuffSize < bytes.length + 1
  · have rem : 0 < (bytes.length + 1) % maxFlushBuffSize :=
      Nat.pos_of_ne_zero fun h => remainder ⟨long, h⟩
    refine ⟨_, 127 :: bytes.drop ((bytes.length + 1) / maxFlushBuffSize * maxFlushBuffSize - 1),
      ?_, closesUnit_last _, numbered_chunks_open bytes fits⟩
    simp only [flushChunks, if_pos long, if_pos rem]
  · refine ⟨[], 127 :: bytes, ?_, closesUnit_last _, by simp⟩
    simp only [flushChunks, if_neg long, List.nil_append]

/-- Without a remainder no datagram of the flush is marked. -/
theorem flushChunks_open (bytes : List UInt8) (fits : bytes.length + 1 ≤ outBufferSize)
    (exact' : ExactMultiple (bytes.length + 1)) :
    ∀ c ∈ flushChunks bytes, closesUnit c = false := by
  have noRem : ¬ 0 < (bytes.length + 1) % maxFlushBuffSize := by
    have := exact'.2
    omega
  simp only [flushChunks, if_pos exact'.1, if_neg noRem, List.append_nil]
  exact numbered_chunks_open bytes fits

/-- Where the next frame is copied to. -/
def writeOffset (size : Nat) : Nat := if size = 0 then 1 else size

theorem writeOffset_add (size encodedBytes : Nat) :
    writeOffset size + encodedBytes = accumulatedSize size encodedBytes := by
  unfold writeOffset accumulatedSize
  split <;> omega

theorem copyFrame_whole (vid : VideoBuffer) (packet : List UInt8) :
    copyFrame vid.pOutBufferVidSize packet packet.length vid.pOutBufferVidSize
        vid.pOutBufferVid =
      storeAll vid.pOutBufferVid (writeOffset vid.pOutBufferVidSize) packet := by
  rw [copyFrame_eq_storeAll _ _ _ _ _ (Nat.le_refl _) (by omega), Nat.sub_self, List.drop_zero]
  unfold writeOffset
  by_cases h : vid.pOutBufferVidSize = 0
  · rw [if_pos h, if_pos h, h]
  · rw [if_neg h, if_neg h]

/-- A pass leaves the buffer exactly when the accumulated data does not fit. -/
theorem copyFrame_isSome_iff (vid : VideoBuffer) (packet : List UInt8) (hne : packet ≠ []) :
    (copyFrame vid.pOutBufferVidSize packet packet.length vid.pOutBufferVidSize
        vid.pOutBufferVid).isSome ↔
      accumulatedSize vid.pOutBufferVidSize packet.length ≤ outBufferSize := by
  rw [copyFrame_whole, storeAll_isSome_iff, writeOffset_add]
  exact or_iff_right hne

/-- The accumulator holds the bytes `held` behind the reserved header byte. -/
structure Accumulates (vid : VideoBuffer) (held : List UInt8) : Prop where
  size : vid.pOutBufferVidSize = if held = [] then 0 else held.length + 1
  bytes : region vid.pOutBufferVid 1 held.length = held

theorem accumulates_nil {vid : VideoBuffer} (h : vid.pOutBufferVidSize = 0) :
    Accumulates vid [] := ⟨h, rfl⟩

theorem Accumulates.writeOffset_eq {vid : VideoBuffer} {held : List UInt8}
    (acc : Accumulates vid held) : writeOffset vid.pOutBufferVidSize = held.length + 1 := by
  rw [acc.size, writeOffset]
  by_cases h : held = []
  · simp [h]
  · simp [h]

theorem Accumulates.accumulatedSize_eq {vid : VideoBuffer} {held : List UInt8}
    (acc : Accumulates vid held) (packet : List UInt8) :
    accumulatedSize vid.pOutBufferVidSize packet.length = (held ++ packet).length + 1 := by
  rw [← writeOffset_add, acc.writeOffset_eq, List.length_append]
  omega

/-- The copy loop appends the frame to the bytes held. -/
theorem Accumulates.copies {vid : VideoBuffer} {held packet : List UInt8}
    (acc : Accumulates vid held) (fits : (held ++ packet).length + 1 ≤ outBufferSize) :
    ∃ buf, copyFrame vid.pOutBufferVidSize packet packet.length vid.pOutBufferVidSize
        vid.pOutBufferVid = some buf ∧
      region buf 1 (held ++ packet).length = held ++ packet := by
  rw [List.length_append] at fits ⊢
  obtain ⟨buf, run, block, frame⟩ := storeAll_spec vid.pOutBufferVid (held.length + 1) packet
    (by omega)
  refine ⟨buf, by rw [copyFrame_whole, acc.writeOffset_eq]; exact run, ?_⟩
  rw [region_append, frame 1 held.length (Or.inl (by omega)), acc.bytes, Nat.add_comm 1, block]

/-- A pass that stays at or below the minimum only collects. -/
theorem fragmentFrame_collects {vid : VideoBuffer} {held packet : List UInt8}
    (acc : Accumulates vid held) (hne : packet ≠ [])
    (fits : (held ++ packet).length + 1 ≤ outBufferSize)
    (small : passFlushes vid packet = false) :
    ∃ vid', fragmentFrame false vid packet = some (vid', []) ∧
      Accumulates vid' (held ++ packet) := by
  obtain ⟨buf, copied, bytes⟩ := acc.copies fits
  have size := acc.accumulatedSize_eq packet
  have notFlush : ¬ minFlushBuffSize < (held ++ packet).length + 1 := by
    simpa [passFlushes, size] using small
  refine ⟨⟨buf, (held ++ packet).length + 1⟩, ?_, ?_, bytes⟩
  · simp only [fragmentFrame, copied, size, Option.bind_eq_bind, Option.bind_some,
      if_neg notFlush, Option.pure_def]
  · rw [if_neg (by simp [hne])]

/-- A flush sends everything collected, the new frame included. -/
theorem fragmentFrame_flushes {vid : VideoBuffer} {held packet : List UInt8}
    (acc : Accumulates vid held) (fits : (held ++ packet).length + 1 ≤ outBufferSize)
    (big : passFlushes vid packet = true) :
    ∃ vid', fragmentFrame false vid packet =
        some (vid', (flushChunks (held ++ packet)).map .addFrame) ∧
      vid'.pOutBufferVidSize = if ExactMultiple ((held ++ packet).length + 1)
        then (held ++ packet).length + 1 else 0 := by
  obtain ⟨buf, copied, bytes⟩ := acc.copies fits
  have size := acc.accumulatedSize_eq packet
  have isFlush : minFlushBuffSize < (held ++ packet).length + 1 := by
    simpa [passFlushes, size] using big
  obtain ⟨buf', emits⟩ := flush_emits packet buf
    (show 0 < (held ++ packet).length + 1 by omega) fits
  have sent := emits false
  rw [Nat.add_sub_cancel, bytes, flushEmissions_sent] at sent
  refine ⟨⟨buf', if ExactMultiple ((held ++ packet).length + 1)
    then (held ++ packet).length + 1 else 0⟩, ?_, rfl⟩
  simp only [fragmentFrame, copied, size, Option.bind_eq_bind, Option.bind_some,
    if_pos isFlush, sent]

/-- The size a pass leaves: a flush clears it unless the size has no remainder. -/
def sizeLeft (size encodedBytes : Nat) : Nat :=
  if minFlushBuffSize < accumulatedSize size encodedBytes then
    if ExactMultiple (accumulatedSize size encodedBytes) then accumulatedSize size encodedBytes
    else 0
  else accumulatedSize size encodedBytes

/-- A pass that leaves the buffer fails in the copy loop. -/
theorem fragmentFrame_fits {savevideo : Bool} {vid : VideoBuffer} {packet : List UInt8}
    (hne : packet ≠ []) (ran : (fragmentFrame savevideo vid packet).isSome) :
    accumulatedSize vid.pOutBufferVidSize packet.length ≤ outBufferSize := by
  apply (copyFrame_isSome_iff vid packet hne).mp
  obtain ⟨result, run⟩ := Option.isSome_iff_exists.mp ran
  obtain ⟨buf, copied, _⟩ := Option.bind_eq_some_iff.mp run
  exact Option.isSome_iff_exists.mpr ⟨buf, copied⟩

/-- What a pass does, whatever the accumulator holds and wherever the chunks go: the
payload of a flush is everything behind the header byte, and it is the frame itself when
the frame was copied right behind that byte. -/
theorem fragmentFrame_spec (vid : VideoBuffer) {packet : List UInt8} (hne : packet ≠ [])
    (fits : accumulatedSize vid.pOutBufferVidSize packet.length ≤ outBufferSize) :
    ∃ buf' bytes, bytes.length + 1 = accumulatedSize vid.pOutBufferVidSize packet.length ∧
      (writeOffset vid.pOutBufferVidSize = 1 → bytes = packet) ∧
      ∀ savevideo, fragmentFrame savevideo vid packet =
        some (⟨buf', sizeLeft vid.pOutBufferVidSize packet.length⟩,
          if passFlushes vid packet then flushEmissions savevideo packet bytes else []) := by
  have pos := accumulatedSize_pos vid.pOutBufferVidSize (List.length_pos_iff.mpr hne)
  have span := writeOffset_add vid.pOutBufferVidSize packet.length
  obtain ⟨buf, stored, block, _⟩ := storeAll_spec vid.pOutBufferVid
    (writeOffset vid.pOutBufferVidSize) packet (by omega)
  have copied := (copyFrame_whole vid packet).trans stored
  have length : (region buf 1 (accumulatedSize vid.pOutBufferVidSize packet.length - 1)).length +
      1 = accumulatedSize vid.pOutBufferVidSize packet.length := by
    rw [region_length buf (by omega)]
    omega
  have behind : writeOffset vid.pOutBufferVidSize = 1 →
      region buf 1 (accumulatedSize vid.pOutBufferVidSize packet.length - 1) = packet := by
    intro first
    rw [first] at span block
    rw [← span, Nat.add_sub_cancel_left]
    exact block
  by_cases big : minFlushBuffSize < accumulatedSize vid.pOutBufferVidSize packet.length
  · obtain ⟨buf', emits⟩ := flush_emits packet buf pos fits
    refine ⟨buf', _, length, behind, fun savevideo => ?_⟩
    simp only [fragmentFrame, copied, Option.bind_eq_bind, Option.bind_some, if_pos big,
      emits savevideo, sizeLeft, (passFlushes_iff vid packet).mpr big, if_true]
  · have small : passFlushes vid packet = false := by simp [passFlushes, big]
    refine ⟨buf, _, length, behind, fun savevideo => ?_⟩
    simp only [fragmentFrame, copied, Option.bind_eq_bind, Option.bind_some, if_neg big,
      sizeLeft, small, Bool.false_eq_true, if_false, Option.pure_def]

/-- Whatever the accumulator holds, a pass that does not leave the buffer sends
nothing or the chunks of one payload. -/
theorem fragmentFrame_emits {vid vid' : VideoBuffer} {packet : List UInt8}
    {out : List Emission} (hne : packet ≠ [])
    (run : fragmentFrame false vid packet = some (vid', out)) :
    (passFlushes vid packet = false ∧ out = []) ∨
      (passFlushes vid packet = true ∧
        ∃ bytes, bytes.length + 1 ≤ outBufferSize ∧ out = (flushChunks bytes).map .addFrame) := by
  have fits := fragmentFrame_fits hne (Option.isSome_iff_exists.mpr ⟨_, run⟩)
  obtain ⟨buf', bytes, length, _, pass⟩ := fragmentFrame_spec vid hne fits
  have same := (Prod.mk.inj (Option.some.inj (run.symm.trans (pass false)))).2
  cases flushes : passFlushes vid packet with
  | false =>
    rw [flushes] at same
    exact Or.inl ⟨rfl, same⟩
  | true =>
    rw [flushes, if_pos rfl, flushEmissions_sent] at same
    exact Or.inr ⟨rfl, bytes, by omega, same⟩

end FragmentLoop
