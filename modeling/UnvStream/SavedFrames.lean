import UnvStream.CheckedMemory
import UnvStream.PixmapFormat
import Mathlib.Algebra.Ring.Int.Defs

/-!
# Frames saved as pixmaps

`SaveFrame` writes a header and the rows of a frame, which begin at multiples of its line
size. The multiple is an `int`, which wraps around, and bytes outside the frame cannot be read;
the frame lies in a buffer whose size is an `int` too, so that no multiple in it wraps around.
-/

namespace SavedFrames

open CheckedMemory DecimalText PixmapFormat

/-- `data[0]` and `linesize[0]`. -/
structure AVFrame where
  size : Nat
  data : Vector UInt8 size
  linesize : Int32

/-- "frames/frame%04dB.ppm". -/
def filename (iFrame : Int32) : List Char :=
  "frames/frame".toList ++ printPadded 4 iFrame.toInt ++ "B.ppm".toList

def magicLine : List Char := "P6\n".toList

def commentLine : List Char := "# George Smart, UNV Project, UCL 2010\n".toList

/-- "%d %d\n". -/
def sizeLine (width height : Int32) : List Char :=
  printInt width.toInt ++ ' ' :: (printInt height.toInt ++ ['\n'])

def maximumLine : List Char := "255\n".toList

/-- An `int` as a `size_t`. -/
def sizeT (n : Int32) : Nat := (n.toInt % 2 ^ 64).toNat

/-- The bytes at a distance from a pointer. -/
def bytesAt {n : Nat} (mem : Vector UInt8 n) (off : Int) (len : Nat) : Option (List UInt8) :=
  if 0 ≤ off then read mem off.toNat len else none

/-- The bytes of one `fwrite`. -/
def row (aFrame : AVFrame) (width : Int32) (y : Nat) : Option (List UInt8) :=
  bytesAt aFrame.data (Int32.ofNat y * aFrame.linesize).toInt (sizeT (width * 3))

/-- The loop over the rows from `y` on. -/
def writeRows (aFrame : AVFrame) (width : Int32) (y : Nat) : Nat → Option (List UInt8)
  | 0 => some []
  | count + 1 => do
    let bytes ← row aFrame width y
    let rest ← writeRows aFrame width (y + 1) count
    return bytes ++ rest

/-- `SaveFrame` on a file that opens: the array of the file name, and the bytes of the file. -/
def saveFrame (szFilename : Vector Char 32) (aFrame : AVFrame) (width height iFrame : Int32) :
    Option (Vector Char 32 × List UInt8) := do
  let szFilename ← storeAll szFilename 0 (filename iFrame ++ ['\x00'])
  let text := magicLine ++ commentLine ++ sizeLine width height ++ maximumLine
  let pixels ← writeRows aFrame width 0 height.toInt.toNat
  return (szFilename, asBytes text ++ pixels)

/-- A frame of this size, with a line size that has room for a row. -/
structure Holds (aFrame : AVFrame) (width height : Int32) : Prop where
  wide : 0 < width.toInt
  high : 0 < height.toInt
  stride : 3 * width.toInt ≤ aFrame.linesize.toInt
  room : (height.toInt - 1) * aFrame.linesize.toInt + 3 * width.toInt ≤ aFrame.size

/-- The pixels of the rows from `y` on. -/
def pixelsFrom (aFrame : AVFrame) (width : Int32) (y count : Nat) : List UInt8 :=
  (List.range' y count).flatMap fun y =>
    region aFrame.data (y * aFrame.linesize.toInt.toNat) (3 * width.toInt.toNat)

/-- The file is a pixmap of this size with these pixels, and its name is in the array. -/
def Faithful (szFilename : Vector Char 32) (aFrame : AVFrame) (width height iFrame : Int32) :
    Prop :=
  ∃ szFilename' bytes image,
    saveFrame szFilename aFrame width height iFrame = some (szFilename', bytes) ∧
    region szFilename' 0 ((filename iFrame).length + 1) = filename iFrame ++ ['\x00'] ∧
    readPixmap bytes = some image ∧ (image.width : Int) = width.toInt ∧
    (image.height : Int) = height.toInt ∧
    image.raster = pixelsFrom aFrame width 0 height.toInt.toNat

theorem filename_length (iFrame : Int32) :
    (filename iFrame).length = 12 + (printPadded 4 iFrame.toInt).length + 5 :=
  List.length_append.trans (congrArg (· + 5) List.length_append)

theorem filename_fits {iFrame : Int32} (nonneg : 0 ≤ iFrame.toInt) :
    (filename iFrame).length + 1 ≤ 32 := by
  have small := iFrame.toInt_lt
  have digits : iFrame.toInt.natAbs < 10 ^ 10 := by omega
  have number : (printPadded 4 iFrame.toInt).length ≤ 10 :=
    printPadded_length_le nonneg (by decide) digits (by decide)
  have length := filename_length iFrame
  omega

theorem filename_inj {iFrame iFrame' : Int32} (nonneg : 0 ≤ iFrame.toInt)
    (nonneg' : 0 ≤ iFrame'.toInt) (same : filename iFrame = filename iFrame') :
    iFrame = iFrame' := by
  have numbers := List.append_cancel_left (List.append_cancel_right same)
  exact Int32.toInt_inj.mp (printPadded_inj nonneg nonneg' numbers)

variable {aFrame : AVFrame} {width height : Int32}

theorem rowSize (holds : Holds aFrame width height) :
    sizeT (width * 3) = 3 * width.toInt.toNat := by
  have wide := holds.wide
  have stride := holds.stride
  have small := aFrame.linesize.toInt_lt
  have three : (3 : Int32).toInt = 3 := rfl
  have product : (width * 3).toInt = width.toInt * 3 := by
    rw [Int32.toInt_mul, three, Int.bmod_eq_of_le (by omega) (by omega)]
  rw [sizeT, product, Int.emod_eq_of_lt (by omega) (by omega)]
  omega

/-- The offset of a row, as an exact product that wraps around. -/
theorem offset_eq {y : Nat} (inside : y < height.toInt.toNat) :
    (Int32.ofNat y * aFrame.linesize).toInt =
      ((y : Int) * aFrame.linesize.toInt).bmod (2 ^ 32) := by
  have small := height.toInt_lt
  rw [Int32.toInt_mul, Int32.toInt_ofNat_of_lt (by omega)]

/-- Where no offset reaches 2 ^ 31, each row is written from its own place. -/
theorem row_of_small (holds : Holds aFrame width height)
    (small : (height.toInt - 1) * aFrame.linesize.toInt < 2 ^ 31) {y : Nat}
    (inside : y < height.toInt.toNat) :
    row aFrame width y =
      some (region aFrame.data (y * aFrame.linesize.toInt.toNat) (3 * width.toInt.toNat)) := by
  have wide := holds.wide
  have stride := holds.stride
  have room := holds.room
  have nonneg : 0 ≤ (y : Int) * aFrame.linesize.toInt :=
    Int.mul_nonneg (Int.natCast_nonneg y) (by omega)
  have below : (y : Int) * aFrame.linesize.toInt ≤
      (height.toInt - 1) * aFrame.linesize.toInt :=
    Int.mul_le_mul_of_nonneg_right (by omega) (by omega)
  have place : ((y : Int) * aFrame.linesize.toInt).toNat = y * aFrame.linesize.toInt.toNat := by
    rw [Int.toNat_mul (Int.natCast_nonneg y) (by omega), Int.toNat_natCast]
  rw [row, offset_eq inside, Int.bmod_eq_of_le (by omega) (by omega), rowSize holds, bytesAt,
    if_pos nonneg, ← place]
  exact read_of_le aFrame.data (by omega)

theorem writeRows_of_rows {y count : Nat}
    (rows : ∀ k, y ≤ k → k < y + count → row aFrame width k =
      some (region aFrame.data (k * aFrame.linesize.toInt.toNat) (3 * width.toInt.toNat))) :
    writeRows aFrame width y count = some (pixelsFrom aFrame width y count) := by
  induction count generalizing y with
  | zero => rfl
  | succ count ih =>
    have rest := @ih (y + 1) fun k from_y below => rows k (by omega) (by omega)
    rw [writeRows, rows y (Nat.le_refl y) (by omega), rest]
    rfl

/-- A row that cannot be read ends the program. -/
theorem writeRows_of_missing {y count k : Nat} (from_y : y ≤ k) (below : k < y + count)
    (missing : row aFrame width k = none) : writeRows aFrame width y count = none := by
  induction count generalizing y with
  | zero => omega
  | succ count ih =>
    rw [writeRows]
    by_cases here : y = k
    · rw [here, missing]
      rfl
    · rw [ih (by omega) (by omega)]
      cases row aFrame width y <;> rfl

/-- The first offset that reaches 2 ^ 31 wraps around to one before the frame. -/
theorem row_missing (holds : Holds aFrame width height)
    (large : 2 ^ 31 ≤ (height.toInt - 1) * aFrame.linesize.toInt) :
    ∃ y, y < height.toInt.toNat ∧ row aFrame width y = none := by
  have wide := holds.wide
  have stride := holds.stride
  have positive : 0 < aFrame.linesize.toInt := by omega
  have narrow := aFrame.linesize.toInt_lt
  obtain ⟨q, last⟩ : ∃ q, q = (2 ^ 31 - 1) / aFrame.linesize.toInt := ⟨_, rfl⟩
  have before : q * aFrame.linesize.toInt ≤ 2 ^ 31 - 1 :=
    last ▸ Int.ediv_mul_le _ (Int.ne_of_gt positive)
  have reached : 2 ^ 31 - 1 < (q + 1) * aFrame.linesize.toInt :=
    last ▸ Int.lt_ediv_add_one_mul_self _ positive
  have nonneg : 0 ≤ q := last ▸ Int.ediv_nonneg (by decide) (Int.le_of_lt positive)
  have inside : q < height.toInt - 1 := by
    by_contra past
    have : (height.toInt - 1) * aFrame.linesize.toInt ≤ q * aFrame.linesize.toInt :=
      Int.mul_le_mul_of_nonneg_right (Int.not_lt.mp past) (Int.le_of_lt positive)
    omega
  refine ⟨(q + 1).toNat, by omega, ?_⟩
  have product : (((q + 1).toNat : Nat) : Int) * aFrame.linesize.toInt =
      q * aFrame.linesize.toInt + aFrame.linesize.toInt := by
    rw [Int.toNat_of_nonneg (by omega), Int.add_mul, Int.one_mul]
  rw [Int.add_mul, Int.one_mul] at reached
  rw [row, offset_eq (by omega : (q + 1).toNat < height.toInt.toNat), product, bytesAt, if_neg]
  rw [Int.bmod_def]
  split <;> omega

theorem pixelsFrom_length (holds : Holds aFrame width height) {y count : Nat}
    (inside : y + count ≤ height.toInt.toNat) :
    (pixelsFrom aFrame width y count).length = 3 * width.toInt.toNat * count := by
  induction count generalizing y with
  | zero => rfl
  | succ count ih =>
    have stride := holds.stride
    have wide := holds.wide
    have room := holds.room
    have below : (y : Int) * aFrame.linesize.toInt ≤
        (height.toInt - 1) * aFrame.linesize.toInt :=
      Int.mul_le_mul_of_nonneg_right (by omega) (by omega)
    have place : ((y * aFrame.linesize.toInt.toNat : Nat) : Int) = y * aFrame.linesize.toInt := by
      rw [Int.natCast_mul, Int.toNat_of_nonneg (by omega)]
    have rest := @ih (y + 1) (by omega)
    rw [pixelsFrom] at rest
    rw [pixelsFrom, List.range'_succ, List.flatMap_cons, List.length_append,
      region_length aFrame.data (by omega), rest, Nat.mul_succ, Nat.add_comm]

def comment : List Char := " George Smart, UNV Project, UCL 2010".toList

/-- The text of the file is the header of a pixmap. -/
theorem text_eq_header (holds : Holds aFrame width height) :
    magicLine ++ commentLine ++ sizeLine width height ++ maximumLine =
      header comment width.toInt.toNat height.toInt.toNat 255 := by
  have magic : magicLine = ['P', '6', '\n'] := rfl
  have line : commentLine = '#' :: (comment ++ ['\n']) := rfl
  have maximum : maximumLine = printNat 255 ++ ['\n'] := rfl
  rw [magic, line, maximum, sizeLine, header, printInt_of_nonneg (Int.le_of_lt holds.wide),
    printInt_of_nonneg (Int.le_of_lt holds.high)]
  simp only [List.append_assoc, List.cons_append, List.nil_append]

/-- The image that a frame shows. -/
def imageOf (holds : Holds aFrame width height) : Image where
  width := width.toInt.toNat
  height := height.toInt.toNat
  maxval := 255
  raster := pixelsFrom aFrame width 0 height.toInt.toNat
  sized := pixelsFrom_length holds (Nat.le_of_eq (Nat.zero_add _))
  samples := by decide

/-- The comment is one line of bytes. -/
theorem comment_plain : '\n' ∉ comment ∧ ∀ c ∈ comment, c.toNat < 256 := by
  have plain : comment.all (fun c => c ≠ '\n' && c.toNat < 256) = true := rfl
  simp only [List.all_eq_true, Bool.and_eq_true, decide_eq_true_eq] at plain
  constructor
  · intro among
    exact (plain _ among).1 rfl
  · intro c among
    exact (plain c among).2

theorem faithful_of_small (holds : Holds aFrame width height)
    (small : (height.toInt - 1) * aFrame.linesize.toInt < 2 ^ 31) {iFrame : Int32}
    (nonneg : 0 ≤ iFrame.toInt) (szFilename : Vector Char 32) :
    Faithful szFilename aFrame width height iFrame := by
  have length : (filename iFrame ++ ['\x00']).length = (filename iFrame).length + 1 :=
    List.length_append
  have fits := filename_fits nonneg
  obtain ⟨szFilename', stored, name, _⟩ :=
    storeAll_spec szFilename 0 (filename iFrame ++ ['\x00']) (by omega)
  rw [length] at name
  have rows : writeRows aFrame width 0 height.toInt.toNat = some (imageOf holds).raster :=
    writeRows_of_rows fun y _ below => row_of_small holds small (by omega)
  have wide := holds.wide
  have high := holds.high
  refine ⟨szFilename', writePixmap comment (imageOf holds), imageOf holds, ?_, name,
    readPixmap_writePixmap comment_plain.1 comment_plain.2 _,
    Int.toNat_of_nonneg (Int.le_of_lt wide), Int.toNat_of_nonneg (Int.le_of_lt high), rfl⟩
  simp only [saveFrame, stored, rows, text_eq_header holds, Option.bind_eq_bind, Option.bind_some,
    Option.pure_def]
  rfl

theorem not_faithful_of_large (holds : Holds aFrame width height)
    (large : 2 ^ 31 ≤ (height.toInt - 1) * aFrame.linesize.toInt) (iFrame : Int32)
    (szFilename : Vector Char 32) : ¬ Faithful szFilename aFrame width height iFrame := by
  rintro ⟨szFilename', bytes, image, saved, _⟩
  obtain ⟨y, inside, missing⟩ := row_missing holds large
  have unwritten : writeRows aFrame width 0 height.toInt.toNat = none :=
    writeRows_of_missing (Nat.zero_le y) (by omega) missing
  obtain ⟨_, _, rest⟩ := Option.bind_eq_some_iff.mp saved
  obtain ⟨_, written, _⟩ := Option.bind_eq_some_iff.mp rest
  rw [unwritten] at written
  cases written

/-- A frame is saved as it is exactly where the offset of its last row is an `int`. -/
theorem faithful_iff (holds : Holds aFrame width height) {iFrame : Int32}
    (nonneg : 0 ≤ iFrame.toInt) (szFilename : Vector Char 32) :
    Faithful szFilename aFrame width height iFrame ↔
      (height.toInt - 1) * aFrame.linesize.toInt < 2 ^ 31 := by
  constructor
  · intro faithful
    by_contra large
    exact not_faithful_of_large holds (Int.not_lt.mp large) iFrame szFilename faithful
  · intro small
    exact faithful_of_small holds small nonneg szFilename

/-- The size of the buffer that `main` allocates is an `int`, so that every offset in it is. -/
theorem small_of_allocated (holds : Holds aFrame width height)
    (allocated : aFrame.size < 2 ^ 31) :
    (height.toInt - 1) * aFrame.linesize.toInt < 2 ^ 31 := by
  have wide := holds.wide
  have room := holds.room
  omega

/-- A frame in the buffer that `main` allocates is saved as it is; the names fit into the array
and tell the frame numbers apart. -/
theorem saved_frames_faithful (holds : Holds aFrame width height)
    (allocated : aFrame.size < 2 ^ 31) {iFrame : Int32} (nonneg : 0 ≤ iFrame.toInt)
    (szFilename : Vector Char 32) :
    Faithful szFilename aFrame width height iFrame ∧
    (filename iFrame).length + 1 ≤ 32 ∧
    ∀ iFrame' : Int32, 0 ≤ iFrame'.toInt → iFrame ≠ iFrame' →
      filename iFrame ≠ filename iFrame' := by
  refine ⟨?_, filename_fits nonneg, ?_⟩
  · exact (faithful_iff holds nonneg szFilename).mpr (small_of_allocated holds allocated)
  · intro iFrame' nonneg' apart same
    exact apart (filename_inj nonneg nonneg' same)

/-- Two rows of one pixel each, with two bytes of padding behind the first. -/
theorem padded_frame_saved : Faithful (Vector.replicate 32 ' ')
    ⟨8, #v[1, 2, 3, 0, 0, 4, 5, 6], 5⟩ 1 2 0 :=
  (saved_frames_faithful ⟨by decide, by decide, by decide, by decide⟩ (by decide) (by decide) _).1

end SavedFrames
