import Mathlib.Data.List.TakeWhile

/-!
# Text cut at a delimiter

`getline` takes the characters up to the next delimiter and drops the delimiter;
it fails only when nothing is left. `items` repeats it. A trailing delimiter ends
the last item and opens no new one.
-/

namespace DelimitedText

universe u
variable {α : Type u} [DecidableEq α] (delim : α)

def getline : List α → Option (List α × List α)
  | [] => none
  | c :: cs => some ((c :: cs).takeWhile (· ≠ delim), ((c :: cs).dropWhile (· ≠ delim)).tail)

def getlines : Nat → List α → List (List α)
  | 0, _ => []
  | fuel + 1, text =>
    match getline delim text with
    | none => []
    | some (item, rest) => item :: getlines fuel rest

/-- Every `getline` consumes a character, so the length is fuel enough. -/
def items (text : List α) : List (List α) := getlines delim text.length text

theorem getline_shorter {text item rest : List α} (h : getline delim text = some (item, rest)) :
    rest.length < text.length := by
  cases text with
  | nil => cases h
  | cons c cs =>
    obtain ⟨_, hrest⟩ := Prod.mk.inj (Option.some.inj h)
    have le := (List.dropWhile_suffix (· ≠ delim) (l := c :: cs)).length_le
    rw [← hrest, List.length_tail]
    simp only [List.length_cons] at le ⊢
    omega

theorem getlines_enough {m n : Nat} {text : List α} (hm : text.length ≤ m)
    (hn : text.length ≤ n) : getlines delim m text = getlines delim n text := by
  induction m generalizing n text with
  | zero =>
    have empty : text = [] := List.eq_nil_of_length_eq_zero (Nat.le_zero.mp hm)
    subst empty
    cases n <;> rfl
  | succ m ih =>
    cases first : getline delim text with
    | none => cases n <;> simp [getlines, first]
    | some p =>
      have shorter := getline_shorter delim first
      obtain ⟨n, rfl⟩ : ∃ k, n = k + 1 := ⟨n - 1, by omega⟩
      have rest : getlines delim m p.2 = getlines delim n p.2 := ih (by omega) (by omega)
      simp only [getlines, first, rest]

theorem items_of_getline {text item rest : List α}
    (first : getline delim text = some (item, rest)) :
    items delim text = item :: items delim rest := by
  have shorter := getline_shorter delim first
  have enough : items delim text = getlines delim (text.length + 1) text :=
    getlines_enough delim (Nat.le_refl _) (Nat.le_succ _)
  have fuel : getlines delim text.length rest = items delim rest :=
    getlines_enough delim (Nat.le_of_lt shorter) (Nat.le_refl _)
  rw [enough]
  simp only [getlines, first, fuel]

theorem getline_of_ne_nil {text : List α} (h : text ≠ []) :
    getline delim text =
      some (text.takeWhile (· ≠ delim), (text.dropWhile (· ≠ delim)).tail) := by
  cases text with
  | nil => exact absurd rfl h
  | cons c cs => rfl

theorem clean_passes {item : List α} (clean : delim ∉ item) :
    ∀ c ∈ item, decide (c ≠ delim) = true := by
  intro c hc
  exact decide_eq_true fun h => clean (h ▸ hc)

theorem getline_delimited {item : List α} (clean : delim ∉ item) (rest : List α) :
    getline delim (item ++ delim :: rest) = some (item, rest) := by
  have passes := clean_passes delim clean
  have taken : (item ++ delim :: rest).takeWhile (· ≠ delim) = item := by
    rw [List.takeWhile_append_of_pos passes]
    simp
  have dropped : (item ++ delim :: rest).dropWhile (· ≠ delim) = delim :: rest := by
    rw [List.dropWhile_append_of_pos passes]
    simp
  have nonempty : item ++ delim :: rest ≠ [] := by simp
  rw [getline_of_ne_nil delim nonempty, taken, dropped, List.tail_cons]

theorem getline_last {item : List α} (clean : delim ∉ item) (nonempty : item ≠ []) :
    getline delim item = some (item, []) := by
  have passes := clean_passes delim clean
  have taken : item.takeWhile (· ≠ delim) = item := List.takeWhile_eq_self_iff.mpr passes
  have dropped : item.dropWhile (· ≠ delim) = [] := List.dropWhile_eq_nil_iff.mpr passes
  rw [getline_of_ne_nil delim nonempty, taken, dropped, List.tail_nil]

/-- A delimiter ends the item before it. -/
theorem items_delimited {item : List α} (clean : delim ∉ item) (rest : List α) :
    items delim (item ++ delim :: rest) = item :: items delim rest :=
  items_of_getline delim (getline_delimited delim clean rest)

/-- What follows the last delimiter is an item unless it is empty. -/
theorem items_last {item : List α} (clean : delim ∉ item) (nonempty : item ≠ []) :
    items delim item = [item] :=
  items_of_getline delim (getline_last delim clean nonempty)

/-- The first item of a text, and what is left behind its delimiter. -/
def firstItem (text : List α) : List α := text.takeWhile (· ≠ delim)
def afterItem (text : List α) : List α := (text.dropWhile (· ≠ delim)).tail

theorem items_zero {text : List α} (nonempty : text ≠ []) :
    (items delim text)[0]? = some (firstItem delim text) := by
  rw [items_of_getline delim (getline_of_ne_nil delim nonempty)]
  rfl

theorem items_succ (text : List α) (k : Nat) :
    (items delim text)[k + 1]? = (items delim (afterItem delim text))[k]? := by
  by_cases empty : text = []
  · rw [empty]
    rfl
  · rw [items_of_getline delim (getline_of_ne_nil delim empty), List.getElem?_cons_succ]
    rfl

theorem items_zero_eq_some {text item : List α} :
    (items delim text)[0]? = some item ↔ text ≠ [] ∧ firstItem delim text = item := by
  constructor
  · intro there
    have nonempty : text ≠ [] := by
      rintro rfl
      cases there
    exact ⟨nonempty, Option.some.inj ((items_zero delim nonempty).symm.trans there)⟩
  · rintro ⟨nonempty, rfl⟩
    exact items_zero delim nonempty

theorem items_one_eq_some {text item : List α} :
    (items delim text)[1]? = some item ↔
      afterItem delim text ≠ [] ∧ firstItem delim (afterItem delim text) = item := by
  rw [items_succ, items_zero_eq_some]

theorem items_two_eq_some {text item : List α} :
    (items delim text)[2]? = some item ↔ afterItem delim (afterItem delim text) ≠ [] ∧
      firstItem delim (afterItem delim (afterItem delim text)) = item := by
  rw [items_succ, items_one_eq_some]

theorem first_after_delimited {item : List α} (clean : delim ∉ item) (rest : List α) :
    firstItem delim (item ++ delim :: rest) = item ∧
      afterItem delim (item ++ delim :: rest) = rest := by
  have taken := getline_delimited delim clean rest
  rw [getline_of_ne_nil delim (by simp)] at taken
  exact Prod.mk.inj (Option.some.inj taken)

/-- Something behind the first item means that there was one. -/
theorem ne_nil_of_afterItem {text : List α} (more : afterItem delim text ≠ []) : text ≠ [] := by
  rintro rfl
  exact more rfl

/-- The lines of a text that ends with a delimiter. -/
theorem items_lines (lines : List (List α)) (clean : ∀ l ∈ lines, delim ∉ l) :
    items delim (lines.flatMap fun l => l ++ [delim]) = lines := by
  induction lines with
  | nil => rfl
  | cons l lines ih =>
    have rest := ih fun l' hl' => clean l' (List.mem_cons_of_mem l hl')
    rw [List.flatMap_cons, List.append_assoc, List.singleton_append,
      items_delimited delim (clean l List.mem_cons_self), rest]

/-- A text is empty, an item without a delimiter behind it, or an item, a delimiter and a
text. -/
theorem text_induction {P : List α → Prop} (nil : P [])
    (last : ∀ item, delim ∉ item → item ≠ [] → P item)
    (delimited : ∀ item rest, delim ∉ item → P rest → P (item ++ delim :: rest))
    (text : List α) : P text := by
  induction length : text.length using Nat.strongRecOn generalizing text with
  | ind n ih =>
    by_cases empty : text = []
    · rw [empty]
      exact nil
    by_cases clean : delim ∈ text
    · obtain ⟨item, rest, rfl, first⟩ := List.eq_append_cons_of_mem clean
      have shorter : rest.length < n := by
        rw [← length, List.length_append, List.length_cons]
        omega
      exact delimited item rest first (ih rest.length shorter rest rfl)
    · exact last text clean empty

theorem items_nil : items delim [] = [] := rfl

theorem items_ne_nil {text : List α} (nonempty : text ≠ []) : items delim text ≠ [] := by
  rw [items_of_getline delim (getline_of_ne_nil delim nonempty)]
  exact List.cons_ne_nil _ _

theorem items_clean (text : List α) : ∀ item ∈ items delim text, delim ∉ item := by
  induction text using text_induction delim with
  | nil => exact nofun
  | last item clean nonempty =>
    rw [items_last delim clean nonempty]
    intro other among
    obtain rfl := List.mem_singleton.mp among
    exact clean
  | delimited item rest clean ih =>
    rw [items_delimited delim clean]
    intro other among
    rcases List.mem_cons.mp among with rfl | later
    · exact clean
    · exact ih other later

/-- The text without a delimiter at its end. -/
def withoutLast (text : List α) : List α :=
  if text.getLast? = some delim then text.dropLast else text

theorem withoutLast_clean {item : List α} (clean : delim ∉ item) :
    withoutLast delim item = item :=
  if_neg fun last => clean (List.mem_of_getLast? last)

theorem withoutLast_delimited (item : List α) : withoutLast delim (item ++ [delim]) = item := by
  rw [withoutLast, if_pos List.getLast?_concat, List.dropLast_concat]

theorem withoutLast_append (item : List α) {rest : List α} (nonempty : rest ≠ []) :
    withoutLast delim (item ++ delim :: rest) = item ++ delim :: withoutLast delim rest := by
  have last : (item ++ delim :: rest).getLast? = rest.getLast? := by
    rw [List.getLast?_append, List.getLast?_cons_of_ne_nil nonempty,
      List.getLast?_eq_some_getLast nonempty]
    rfl
  rw [withoutLast, withoutLast, last]
  split
  · rw [List.dropLast_append_cons, List.dropLast_cons_of_ne_nil nonempty]
  · rfl

/-- Joining the items gives the text back, less a delimiter at its end. -/
theorem intercalate_items (text : List α) :
    [delim].intercalate (items delim text) = withoutLast delim text := by
  induction text using text_induction delim with
  | nil => rfl
  | last item clean nonempty =>
    rw [items_last delim clean nonempty, List.intercalate_singleton,
      withoutLast_clean delim clean]
  | delimited item rest clean ih =>
    rw [items_delimited delim clean]
    by_cases ended : rest = []
    · rw [ended, items_nil, List.intercalate_singleton, withoutLast_delimited]
    · rw [List.intercalate_cons_of_ne_nil (items_ne_nil delim ended), ih,
        withoutLast_append delim item ended, List.append_assoc]
      rfl

/-- Clean items, the last of them not empty, are what their join is cut into. -/
theorem items_intercalate {pieces : List (List α)} (some_piece : pieces ≠ [])
    (clean : ∀ p ∈ pieces, delim ∉ p) (last : pieces.getLast? ≠ some []) :
    items delim ([delim].intercalate pieces) = pieces := by
  induction pieces with
  | nil => exact absurd rfl some_piece
  | cons p pieces ih =>
    have first := clean p List.mem_cons_self
    by_cases ended : pieces = []
    · subst ended
      rw [List.intercalate_singleton]
      refine items_last delim first ?_
      rintro rfl
      exact last rfl
    · rw [List.getLast?_cons_of_ne_nil ended] at last
      have rest := ih ended (fun q among => clean q (List.mem_cons_of_mem p among)) last
      rw [List.intercalate_cons_of_ne_nil ended, List.append_assoc, List.singleton_append,
        items_delimited delim first, rest]

end DelimitedText
