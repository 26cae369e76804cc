import UnvStream.DecimalText
import UnvStream.DelimitedText

/-!
# Tables of decimal integers

A row is printed with a comma and an optional gap of blanks between its numbers, and a newline
behind them. A reader that cuts the text at the newlines and the lines at the commas gets the
rows back.
-/

namespace NumberTable

open DecimalText DelimitedText

def printRow (gap : List Char) (row : List Int) : List Char :=
  (',' :: gap).intercalate (row.map printInt) ++ ['\n']

def printTable (gap : List Char) (rows : List (List Int)) : List Char :=
  rows.flatMap (printRow gap)

def readRow (line : List Char) : List Int := (items ',' line).map parseInt

def readTable (text : List Char) : List (List Int) := (items '\n' text).map readRow

/-- Blanks that do not end a line. -/
structure Gap (gap : List Char) : Prop where
  blank : ∀ c ∈ gap, isSpace c = true
  inLine : '\n' ∉ gap

theorem gap_nil : Gap [] := ⟨nofun, nofun⟩

theorem Gap.no_comma {gap : List Char} (isGap : Gap gap) : ',' ∉ gap := by
  intro among
  exact absurd (isGap.blank ',' among) (by decide)

theorem printTable_append (gap : List Char) (rows later : List (List Int)) :
    printTable gap (rows ++ later) = printTable gap rows ++ printTable gap later :=
  List.flatMap_append

/-- A character that is no digit and no sign is not printed. -/
theorem not_mem_printInt {c : Char} (digit : c.isDigit = false) (sign : c ≠ '-') (x : Int) :
    c ∉ printInt x := by
  intro among
  rcases mem_printInt among with isDigit | isSign
  · rw [digit] at isDigit
    cases isDigit
  · exact sign isSign

/-- Blanks in front of a number are skipped. -/
theorem parseInt_gap {gap : List Char} (isGap : Gap gap) (text : List Char) :
    parseInt (gap ++ text) = parseInt text := by
  rw [parseInt, parseInt, List.dropWhile_append_of_pos isGap.blank]

theorem parseInt_field {gap : List Char} (isGap : Gap gap) (x : Int) :
    parseInt (gap ++ printInt x) = x := by
  have value : parseInt (printInt x ++ []) = x := parseInt_printInt x nofun
  rw [List.append_nil] at value
  rw [parseInt_gap isGap, value]

theorem field_clean {gap : List Char} (isGap : Gap gap) (x : Int) :
    ',' ∉ gap ++ printInt x := by
  intro among
  rcases List.mem_append.mp among with inGap | inNumber
  · exact isGap.no_comma inGap
  · exact not_mem_printInt (by decide) (by decide) x inNumber

theorem printInt_ne_nil (x : Int) : printInt x ≠ [] := by
  unfold printInt
  split
  · exact List.cons_ne_nil _ _
  · exact printNat_ne_nil _

/-- The numbers of a line are read back, whatever gap stands before the first one. -/
theorem readRow_fields {gap first : List Char} (isGap : Gap gap) (isFirst : Gap first)
    {row : List Int} (some_number : row ≠ []) :
    readRow (first ++ (',' :: gap).intercalate (row.map printInt)) = row := by
  induction row generalizing first with
  | nil => exact absurd rfl some_number
  | cons x row ih =>
    rw [List.map_cons]
    by_cases ended : row = []
    · have nonempty : first ++ printInt x ≠ [] :=
        List.append_ne_nil_of_right_ne_nil first (printInt_ne_nil x)
      rw [ended, List.map_nil, List.intercalate_singleton, readRow,
        items_last ',' (field_clean isFirst x) nonempty, List.map_singleton,
        parseInt_field isFirst]
    · have more : row.map printInt ≠ [] := mt List.map_eq_nil_iff.mp ended
      have rest := ih isGap ended
      have text : first ++ (',' :: gap).intercalate (printInt x :: row.map printInt) =
          (first ++ printInt x) ++ ',' :: (gap ++ (',' :: gap).intercalate (row.map printInt)) := by
        simp only [List.intercalate_cons_of_ne_nil more, List.append_assoc, List.cons_append]
      rw [readRow] at rest
      rw [text, readRow, items_delimited ',' (field_clean isFirst x), List.map_cons,
        parseInt_field isFirst, rest]

theorem newline_not_mem_fields {gap : List Char} (isGap : Gap gap) (row : List Int) :
    '\n' ∉ (',' :: gap).intercalate (row.map printInt) := by
  induction row with
  | nil => exact nofun
  | cons x row ih =>
    have number : '\n' ∉ printInt x := not_mem_printInt (by decide) (by decide) x
    rw [List.map_cons]
    by_cases ended : row = []
    · rw [ended, List.map_nil, List.intercalate_singleton]
      exact number
    · rw [List.intercalate_cons_of_ne_nil (mt List.map_eq_nil_iff.mp ended)]
      simp only [List.mem_append, List.mem_cons, not_or]
      exact ⟨⟨number, by decide, isGap.inLine⟩, ih⟩

/-- A printed table is read back row by row. -/
theorem readTable_printTable {gap : List Char} (isGap : Gap gap) {rows : List (List Int)}
    (some_numbers : ∀ row ∈ rows, row ≠ []) : readTable (printTable gap rows) = rows := by
  have lines : printTable gap rows =
      (rows.map fun row => (',' :: gap).intercalate (row.map printInt)).flatMap
        fun line => line ++ ['\n'] := by
    rw [List.flatMap_map]
    rfl
  have clean : ∀ line ∈ rows.map fun row => (',' :: gap).intercalate (row.map printInt),
      '\n' ∉ line := by
    intro line among
    obtain ⟨row, _, rfl⟩ := List.mem_map.mp among
    exact newline_not_mem_fields isGap row
  rw [readTable, lines, items_lines '\n' _ clean, List.map_map]
  refine (List.map_congr_left fun row among => ?_).trans (List.map_id rows)
  exact readRow_fields isGap gap_nil (some_numbers row among)

end NumberTable
