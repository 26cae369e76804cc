import UnvStream.DecimalText

/-!
# Portable pixmaps

A reader of the format P6: the magic, the width, the height and the maximum value in decimal,
with white space or comments before each, one white space character, and three bytes for each
pixel. A writer that puts one comment behind the magic is read back.
-/

namespace PixmapFormat

open DecimalText

/-- An image of one byte for each sample. -/
structure Image where
  width : Nat
  height : Nat
  maxval : Nat
  raster : List UInt8
  sized : raster.length = 3 * width * height
  samples : 0 < maxval ∧ maxval < 256

def asText (bytes : List UInt8) : List Char := bytes.map Char.ofUInt8

def asBytes (text : List Char) : List UInt8 := text.map Char.toUInt8

/-- White space is skipped, and comments up to the end of their line. -/
def skipBlank (inComment : Bool) : List Char → List Char
  | [] => []
  | c :: cs =>
    if inComment then skipBlank (c ≠ '\n') cs
    else if c = '#' then skipBlank true cs
    else if isSpace c then skipBlank false cs
    else c :: cs

def readNumber (text : List Char) : Option (Nat × List Char) :=
  let text := skipBlank false text
  if text.takeWhile Char.isDigit = [] then none
  else some (parseNat text, text.dropWhile Char.isDigit)

/-- What stands behind the last number. -/
def readRaster (width height maxval : Nat) : List Char → Option Image
  | [] => none
  | separator :: rest =>
    if whole : isSpace separator = true ∧
        (asBytes rest).length = 3 * width * height ∧ 0 < maxval ∧ maxval < 256 then
      some ⟨width, height, maxval, asBytes rest, whole.2.1, whole.2.2⟩
    else none

def readPixmap (bytes : List UInt8) : Option Image :=
  match asText bytes with
  | 'P' :: '6' :: text => do
    let (width, text) ← readNumber text
    let (height, text) ← readNumber text
    let (maxval, text) ← readNumber text
    readRaster width height maxval text
  | _ => none

def header (comment : List Char) (width height maxval : Nat) : List Char :=
  'P' :: '6' :: '\n' :: '#' :: (comment ++ '\n' :: (printNat width ++ ' ' :: (printNat height ++
    '\n' :: (printNat maxval ++ ['\n']))))

def writePixmap (comment : List Char) (image : Image) : List UInt8 :=
  asBytes (header comment image.width image.height image.maxval) ++ image.raster

theorem asText_append (xs ys : List UInt8) : asText (xs ++ ys) = asText xs ++ asText ys :=
  List.map_append

theorem ofUInt8_val (b : UInt8) : (Char.ofUInt8 b).val = b.toUInt32 := rfl

/-- Every byte is a character. -/
theorem asBytes_asText (bytes : List UInt8) : asBytes (asText bytes) = bytes := by
  rw [asBytes, asText, List.map_map, List.map_congr_left, List.map_id]
  intro b _
  apply UInt8.toNat_inj.mp
  have small := b.toNat_lt
  simp only [Function.comp, Char.toUInt8, ofUInt8_val, UInt32.toNat_toUInt8,
    UInt8.toNat_toUInt32, id]
  omega

theorem asText_asBytes {text : List Char} (narrow : ∀ c ∈ text, c.toNat < 256) :
    asText (asBytes text) = text := by
  rw [asText, asBytes, List.map_map]
  refine (List.map_congr_left fun c among => ?_).trans (List.map_id text)
  have small := narrow c among
  apply Char.ext
  apply UInt32.toNat_inj.mp
  simp only [Function.comp, Char.toUInt8, ofUInt8_val, UInt8.toNat_toUInt32,
    UInt32.toNat_toUInt8, id]
  exact Nat.mod_eq_of_lt small

/-- A comment ends at its line. -/
theorem skipBlank_comment {comment : List Char} (clean : '\n' ∉ comment) (rest : List Char) :
    skipBlank true (comment ++ '\n' :: rest) = skipBlank false rest := by
  induction comment with
  | nil => rfl
  | cons c comment ih =>
    have clean' : '\n' ∉ comment := fun later => clean (List.mem_cons_of_mem c later)
    have other : decide (c ≠ '\n') = true :=
      decide_eq_true fun same => clean (same ▸ List.mem_cons_self)
    rw [List.cons_append, skipBlank, if_pos rfl, other, ih clean']

theorem skipBlank_digit {c : Char} (digit : c.isDigit = true) (rest : List Char) :
    skipBlank false (c :: rest) = c :: rest := by
  have mark : c ≠ '#' := by
    rintro rfl
    exact absurd digit (by decide)
  have blank := (isSpace_of_isDigit digit).1
  rw [skipBlank, if_neg Bool.false_ne_true, if_neg mark, blank]
  rfl

/-- A number is read up to the character behind it, whatever blank stands before it. -/
theorem readNumber_printNat {blank : List Char} {n : Nat} {rest : List Char}
    (skips : ∀ text, skipBlank false (blank ++ text) = skipBlank false text)
    (stops : Stops rest) : readNumber (blank ++ (printNat n ++ rest)) = some (n, rest) := by
  obtain ⟨c, cs, head, digit⟩ := printNat_head n
  have there : skipBlank false (blank ++ (printNat n ++ rest)) = printNat n ++ rest := by
    rw [skips, head, List.cons_append, skipBlank_digit digit]
  have digits : ∀ c ∈ printNat n, c.isDigit = true := fun c hc => isDigit_of_mem_printNat hc
  have run : (printNat n ++ rest).takeWhile Char.isDigit = printNat n := by
    rw [List.takeWhile_append_of_pos digits, takeWhile_stops stops, List.append_nil]
  have behind : (printNat n ++ rest).dropWhile Char.isDigit = rest := by
    rw [List.dropWhile_append_of_pos digits]
    cases rest with
    | nil => rfl
    | cons d rest =>
      have other : ¬ d.isDigit = true := Bool.not_eq_true _ ▸ stops d rfl
      exact List.dropWhile_cons_of_neg other
  rw [readNumber, there, run, parseNat_printNat n stops, behind]
  exact if_neg (printNat_ne_nil n)

theorem readRaster_whole (image : Image) {separator : Char} (space : isSpace separator = true) :
    readRaster image.width image.height image.maxval (separator :: asText image.raster) =
      some image := by
  have bytes := asBytes_asText image.raster
  have whole : isSpace separator = true ∧
      (asBytes (asText image.raster)).length = 3 * image.width * image.height ∧
      0 < image.maxval ∧ image.maxval < 256 :=
    ⟨space, bytes.symm ▸ image.sized, image.samples⟩
  rw [readRaster, dif_pos whole]
  simp only [bytes]

theorem header_narrow {comment : List Char} (narrow : ∀ c ∈ comment, c.toNat < 256)
    (width height maxval : Nat) : ∀ c ∈ header comment width height maxval, c.toNat < 256 := by
  have digit (n : Nat) : ∀ c ∈ printNat n, c.toNat < 256 := by
    intro c among
    have bounds := isDigit_of_mem_printNat among
    simp only [Char.isDigit, Bool.and_eq_true, decide_eq_true_eq] at bounds
    exact Nat.lt_of_le_of_lt (UInt32.le_iff_toNat_le.mp bounds.2) (by decide)
  intro c among
  simp only [header, List.mem_cons, List.mem_append, List.not_mem_nil, or_false] at among
  rcases among with rfl | rfl | rfl | rfl | text | rfl | w | rfl | h | rfl | m | rfl
  · decide
  · decide
  · decide
  · decide
  · exact narrow c text
  · decide
  · exact digit width c w
  · decide
  · exact digit height c h
  · decide
  · exact digit maxval c m
  · decide

/-- The blank before the width is the rest of the first line and the comment. -/
def firstBlank (comment : List Char) : List Char := '\n' :: '#' :: (comment ++ ['\n'])

theorem skipBlank_firstBlank {comment : List Char} (clean : '\n' ∉ comment) (text : List Char) :
    skipBlank false (firstBlank comment ++ text) = skipBlank false text := by
  have joined : firstBlank comment ++ text = '\n' :: '#' :: (comment ++ '\n' :: text) := by
    rw [firstBlank, List.cons_append, List.cons_append, List.append_assoc]
    rfl
  rw [joined]
  exact skipBlank_comment clean text

theorem header_append (comment : List Char) (width height maxval : Nat) (rest : List Char) :
    header comment width height maxval ++ rest = 'P' :: '6' :: (firstBlank comment ++
      (printNat width ++ ([' '] ++ (printNat height ++ (['\n'] ++
        (printNat maxval ++ '\n' :: rest)))))) := by
  simp only [header, firstBlank, List.cons_append, List.append_assoc, List.nil_append]

/-- A written image is read back. -/
theorem readPixmap_writePixmap {comment : List Char} (clean : '\n' ∉ comment)
    (narrow : ∀ c ∈ comment, c.toNat < 256) (image : Image) :
    readPixmap (writePixmap comment image) = some image := by
  have text : asText (writePixmap comment image) =
      header comment image.width image.height image.maxval ++ asText image.raster := by
    rw [writePixmap, asText_append, asText_asBytes (header_narrow narrow _ _ _)]
  rw [readPixmap, text, header_append]
  have width := @readNumber_printNat (firstBlank comment) image.width
    ([' '] ++ (printNat image.height ++ (['\n'] ++
      (printNat image.maxval ++ '\n' :: asText image.raster))))
    (skipBlank_firstBlank clean) (stops_cons rfl _)
  have height := @readNumber_printNat [' '] image.height
    (['\n'] ++ (printNat image.maxval ++ '\n' :: asText image.raster))
    (fun _ => rfl) (stops_cons rfl _)
  have maxval := @readNumber_printNat ['\n'] image.maxval ('\n' :: asText image.raster)
    (fun _ => rfl) (stops_cons rfl _)
  simp only [width, height, maxval, Option.bind_eq_bind, Option.bind_some]
  exact readRaster_whole image rfl

end PixmapFormat
