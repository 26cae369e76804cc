import Mathlib.Algebra.BigOperators.Group.List.Basic
import Mathlib.Algebra.Order.Ring.Rat
import Mathlib.Data.List.Induction
import Mathlib.Tactic.Linarith

/-!
# The average delay

The video loop adds up the delays of the encoded frames, in a `float` that is exact here. The
counter is tested before it counts the frame, and it starts at 0 but is left at 1 by a print.
-/

namespace AverageDelay

/-- A frame that the encoder has returned, and `stop-start` for it. -/
structure Frame where
  iEncodedBytes : Int
  dt : ℚ

/-- The globals, which start as 0. -/
structure Delays where
  sum : ℚ
  counter : Int

def Delays.start : Delays := ⟨0, 0⟩

/-- The statements about the delay of a frame, with the value that is printed, if one is. -/
def addDelay (d : Delays) (dt : ℚ) : Delays × Option ℚ :=
  let sum := d.sum + dt
  if d.counter = 10 then (⟨0, 0 + 1⟩, some (sum / 10))
  else (⟨sum, d.counter + 1⟩, none)

/-- A frame reaches them if it has bytes and there is a network to send them to. -/
def reaches (networkport : Int) (f : Frame) : Bool := 0 < f.iEncodedBytes && 0 < networkport

/-- What the frames that reach the statements print. -/
def averages (networkport : Int) : Delays → List Frame → List (Option ℚ)
  | _, [] => []
  | d, f :: fs =>
    if reaches networkport f then
      (addDelay d f.dt).2 :: averages networkport (addDelay d f.dt).1 fs
    else averages networkport d fs

def delays (networkport : Int) (fs : List Frame) : List ℚ :=
  (fs.filter (reaches networkport)).map Frame.dt

/-- The value `v` is printed with frame number `i`, counted from 0. -/
def Prints (networkport : Int) (fs : List Frame) (i : Nat) (v : ℚ) : Prop :=
  (averages networkport Delays.start fs)[i]? = some (some v)

/-- Each value is the mean of the ten frames up to its own, and the ten frames of a value begin
behind those of the value before. -/
structure MeansOfTen (networkport : Int) (fs : List Frame) : Prop where
  mean : ∀ i v, Prints networkport fs i v →
    9 ≤ i ∧ v = (((delays networkport fs).take (i + 1)).drop (i - 9)).sum / 10
  apart : ∀ i j v w, Prints networkport fs i v → Prints networkport fs j w → i < j → i < j - 9
  gapless : ∀ i j v w, Prints networkport fs i v → Prints networkport fs j w → i < j →
    (∀ k u, i < k → k < j → ¬ Prints networkport fs k u) → j - 9 = i + 1

/-- The globals after some delays. -/
def after (d : Delays) : List ℚ → Delays
  | [] => d
  | dt :: dts => after (addDelay d dt).1 dts

theorem after_snoc (d : Delays) (dts : List ℚ) (dt : ℚ) :
    after d (dts ++ [dt]) = (addDelay (after d dts) dt).1 := by
  induction dts generalizing d with
  | nil => rfl
  | cons _ dts ih => exact ih _

theorem averages_getElem? (networkport : Int) (fs : List Frame) (d : Delays) (i : Nat) :
    (averages networkport d fs)[i]? = (delays networkport fs)[i]?.map fun dt =>
      (addDelay (after d ((delays networkport fs).take i)) dt).2 := by
  induction fs generalizing d i with
  | nil => rfl
  | cons f fs ih =>
    by_cases counts : reaches networkport f = true
    · have first : delays networkport (f :: fs) = f.dt :: delays networkport fs := by
        rw [delays, List.filter_cons_of_pos counts]
        rfl
      rw [averages, if_pos counts, first]
      cases i with
      | zero => rfl
      | succ i => exact ih (addDelay d f.dt).1 i
    · have skipped : delays networkport (f :: fs) = delays networkport fs := by
        rw [delays, List.filter_cons_of_neg counts]
        rfl
      rw [averages, if_neg counts, skipped]
      exact ih d i

/-- The globals add up the last `size` delays: all of them up to the tenth, and those since the
last print later. -/
structure Window (dts : List ℚ) (d : Delays) (size : Nat) : Prop where
  sum : d.sum = (dts.drop (dts.length - size)).sum
  phase : dts.length ≤ 10 ∧ size = dts.length ∧ d.counter = size ∨
    10 < dts.length ∧ size = (dts.length - 1) % 10 ∧ d.counter = size + 1

theorem Window.size_le {dts : List ℚ} {d : Delays} {size : Nat} (window : Window dts d size) :
    size ≤ dts.length := by
  rcases window.phase with ⟨_, all, _⟩ | ⟨many, since, _⟩ <;> omega

/-- The delay of the next frame is the last one of the window. -/
theorem Window.grown {dts : List ℚ} {d : Delays} {size : Nat} (window : Window dts d size)
    (dt : ℚ) : d.sum + dt = ((dts ++ [dt]).drop ((dts ++ [dt]).length - (size + 1))).sum := by
  have inside := window.size_le
  have shift : (dts ++ [dt]).length - (size + 1) = dts.length - size := by
    rw [List.length_append, List.length_singleton]
    omega
  rw [shift, List.drop_append_of_le_length (by omega), List.sum_append, List.sum_singleton,
    window.sum]

theorem Window.next {dts : List ℚ} {d : Delays} {size : Nat} (window : Window dts d size)
    (dt : ℚ) : ∃ size', Window (dts ++ [dt]) (addDelay d dt).1 size' := by
  have length : (dts ++ [dt]).length = dts.length + 1 := List.length_append
  have phase := window.phase
  by_cases full : d.counter = 10
  · refine ⟨0, ?_, Or.inr ⟨?_, ?_, ?_⟩⟩
    · rw [addDelay, if_pos full, Nat.sub_zero, List.drop_length]
      rfl
    · omega
    · omega
    · rw [addDelay, if_pos full]
      rfl
  · refine ⟨size + 1, ?_, ?_⟩
    · rw [addDelay, if_neg full]
      exact window.grown dt
    · rw [addDelay, if_neg full, length]
      dsimp only
      omega

theorem window_after (dts : List ℚ) : ∃ size, Window dts (after Delays.start dts) size := by
  induction dts using List.reverseRecOn with
  | nil => exact ⟨0, rfl, Or.inl ⟨Nat.zero_le _, rfl, rfl⟩⟩
  | append_singleton dts dt ih =>
    obtain ⟨size, window⟩ := ih
    rw [after_snoc]
    exact window.next dt

/-- The frames behind a printed value: ten, but eleven the first time. -/
def windowStart (i : Nat) : Nat := if i = 10 then 0 else i - 9

theorem addDelay_prints {dts : List ℚ} {d : Delays} {size : Nat} (window : Window dts d size)
    (dt v : ℚ) : (addDelay d dt).2 = some v ↔ (10 ≤ dts.length ∧ dts.length % 10 = 0) ∧
      v = ((dts ++ [dt]).drop (windowStart dts.length)).sum / 10 := by
  have phase := window.phase
  by_cases full : d.counter = 10
  · have start : (dts ++ [dt]).length - (size + 1) = windowStart dts.length := by
      rw [List.length_append, List.length_singleton, windowStart]
      split <;> omega
    have printed : (addDelay d dt).2 =
        some (((dts ++ [dt]).drop (windowStart dts.length)).sum / 10) := by
      rw [addDelay, if_pos full, ← start, ← window.grown dt]
    rw [printed, Option.some.injEq, and_iff_right (by omega), eq_comm]
  · have silent : (addDelay d dt).2 = none := by rw [addDelay, if_neg full]
    rw [silent]
    refine iff_of_false nofun ?_
    rintro ⟨_, _⟩
    omega

/-- A value is printed with every tenth frame from number 10 on. -/
theorem prints_iff (networkport : Int) (fs : List Frame) (i : Nat) (v : ℚ) :
    Prints networkport fs i v ↔ i < (delays networkport fs).length ∧ (10 ≤ i ∧ i % 10 = 0) ∧
      v = (((delays networkport fs).take (i + 1)).drop (windowStart i)).sum / 10 := by
  rw [Prints, averages_getElem?]
  by_cases inside : i < (delays networkport fs).length
  · obtain ⟨size, window⟩ := window_after ((delays networkport fs).take i)
    have length : ((delays networkport fs).take i).length = i :=
      List.length_take_of_le (Nat.le_of_lt inside)
    rw [List.getElem?_eq_getElem inside, Option.map_some, Option.some.injEq,
      addDelay_prints window, length, List.take_append_getElem inside]
    exact (and_iff_right inside).symm
  · rw [List.getElem?_eq_none (Nat.le_of_not_lt inside)]
    exact iff_of_false nofun fun printed => inside printed.1

theorem meansOfTen_of_first {networkport : Int} {fs : List Frame}
    (first : (delays networkport fs).length ≤ 10 ∨ (delays networkport fs).head? = some 0) :
    MeansOfTen networkport fs := by
  constructor
  · intro i v printed
    obtain ⟨inside, ⟨late, _⟩, rfl⟩ := (prints_iff networkport fs i v).mp printed
    refine ⟨by omega, ?_⟩
    rw [windowStart]
    split
    · rename_i ten
      subst ten
      rcases first with short | zero
      · omega
      · obtain ⟨rest, split⟩ := List.head?_eq_some_iff.mp zero
        rw [split, List.take_succ_cons, List.drop_zero, List.sum_cons, zero_add]
        rfl
    · rfl
  · intro i j v w printed printed' before
    have := ((prints_iff networkport fs i v).mp printed).2.1
    have := ((prints_iff networkport fs j w).mp printed').2.1
    omega
  · intro i j v w printed printed' before between
    obtain ⟨_, ⟨late, tens⟩, _⟩ := (prints_iff networkport fs i v).mp printed
    obtain ⟨inside, ⟨_, tens'⟩, _⟩ := (prints_iff networkport fs j w).mp printed'
    have adjacent : ¬ i + 10 < j := by
      intro apart
      exact between (i + 10) _ (by omega) apart
        ((prints_iff networkport fs (i + 10) _).mpr ⟨by omega, by omega, rfl⟩)
    omega

/-- The values are means of ten frames exactly where none is printed or the first frame, which
is added to the first value as an eleventh, has no delay. -/
theorem means_of_ten_iff (networkport : Int) (fs : List Frame) :
    MeansOfTen networkport fs ↔
      (delays networkport fs).length ≤ 10 ∨ (delays networkport fs).head? = some 0 := by
  constructor
  · rintro ⟨mean, _, _⟩
    by_contra both
    obtain ⟨long, delayed⟩ := not_or.mp both
    have value := (mean 10 _ ((prints_iff networkport fs 10 _).mpr
      ⟨not_le.mp long, by decide, rfl⟩)).2
    cases split : delays networkport fs with
    | nil =>
      rw [split] at long
      exact long (Nat.zero_le _)
    | cons dt dts =>
      rw [split] at value delayed
      have whole : windowStart 10 = 0 := rfl
      rw [whole, List.take_succ_cons, List.drop_zero, List.sum_cons] at value
      have rest : (dt :: dts.take 10).drop (10 - 9) = dts.take 10 := rfl
      rw [rest] at value
      exact delayed (congrArg some (by linarith))
  · exact meansOfTen_of_first

/-- Eleven frames of 10 ms each are printed as an average of 11 ms. -/
theorem eleven_frames_averaged :
    Prints 8554 (List.replicate 11 ⟨100, 10⟩) 10 11 ∧
      ¬ MeansOfTen 8554 (List.replicate 11 ⟨100, 10⟩) := by
  have counted : delays 8554 (List.replicate 11 ⟨100, 10⟩) = List.replicate 11 10 := rfl
  have printed : Prints 8554 (List.replicate 11 ⟨100, 10⟩) 10 11 := by
    rw [prints_iff, counted]
    refine ⟨by decide, by decide, ?_⟩
    rw [windowStart, if_pos rfl, List.drop_zero, List.take_replicate, List.sum_replicate]
    norm_num
  refine ⟨printed, ?_⟩
  rintro ⟨mean, _, _⟩
  have value := (mean 10 11 printed).2
  rw [counted, List.take_replicate, List.drop_replicate, List.sum_replicate] at value
  norm_num at value

end AverageDelay
