import UnvStream.TraceMachine
import Mathlib.Analysis.Real.Sqrt
import Mathlib.Data.EReal.Operations
import Mathlib.Tactic.Linarith
import Mathlib.Tactic.LinearCombination
import Mathlib.Tactic.NormNum

/-!
# The playout controller

`flowcontroller` in exact arithmetic: the deviation of the playout point from real time
sets the rate of play, and a guard sets the rate to 1 where the projected playout would
pass real time. Times are in milliseconds.
-/

namespace PlayoutControl

/-- The deviation that is left alone. -/
def dmax : ℤ := 75

/-- The deviation is compared with 2000, or with a little more than itself. -/
noncomputable def timeBenchmark (d : ℤ) : ℝ := if 2000 < |d| then 1.05 * |(d : ℝ)| else 2000

/-- `1 / sqrt(1 - d/time_benchmark)`, infinite where the square root is 0. -/
noncomputable def smoothRate (d : ℤ) : EReal :=
  if 1 - d / timeBenchmark d = 0 then ⊤
  else ((1 / √(1 - d / timeBenchmark d) : ℝ) : EReal)

/-- The condition of Algorithm 5. -/
def Overruns (r : EReal) (tr playoutPoint tSampling : ℤ) : Prop :=
  ((tr + 2 * tSampling : ℝ) : EReal) < r * (tSampling : ℝ) + (playoutPoint : ℝ)

open scoped Classical in
/-- The rate that is set. -/
noncomputable def flowcontroller (tr playoutPoint tSampling : ℤ) : EReal :=
  if dmax < |tr - playoutPoint| then
    let r := smoothRate (tr - playoutPoint)
    if Overruns r tr playoutPoint tSampling then 1 else r
  else 1

/-- Either the deviation rescales the benchmark, or the benchmark stays as it is. -/
theorem benchmark_cases (d : ℤ) :
    2000 < |(d : ℝ)| ∧ timeBenchmark d = 1.05 * |(d : ℝ)| ∨
      |d| ≤ 2000 ∧ timeBenchmark d = 2000 := by
  by_cases far : 2000 < |d|
  · refine Or.inl ⟨?_, if_pos far⟩
    exact_mod_cast far
  · exact Or.inr ⟨not_lt.mp far, if_neg far⟩

theorem benchmark_pos (d : ℤ) : 0 < timeBenchmark d := by
  rcases benchmark_cases d with ⟨far, rescaled⟩ | ⟨_, fixed⟩
  · rw [rescaled]
    linarith
  · rw [fixed]
    norm_num

theorem benchmark_two_thousand : timeBenchmark 2000 = 2000 := if_neg (by decide)

/-- The square root of Algorithm 1 is of a positive number, and nothing is divided by zero. -/
structure RateDefined (d : ℤ) : Prop where
  benchmark : timeBenchmark d ≠ 0
  radicand : 0 < 1 - d / timeBenchmark d
  root : √(1 - d / timeBenchmark d) ≠ 0

/-- A deviation of exactly 2000 is not rescaled, since it does not exceed the fixed benchmark. -/
theorem deviation_lt_benchmark_iff (d : ℤ) : (d : ℝ) < timeBenchmark d ↔ d ≠ 2000 := by
  constructor
  · rintro below rfl
    rw [benchmark_two_thousand] at below
    exact lt_irrefl _ below
  · intro other
    rcases benchmark_cases d with ⟨far, rescaled⟩ | ⟨near, fixed⟩
    · have self : (d : ℝ) ≤ |(d : ℝ)| := le_abs_self _
      rw [rescaled]
      linarith
    · have bound : d ≤ 2000 := (le_abs_self d).trans near
      rw [fixed]
      exact_mod_cast lt_of_le_of_ne bound other

theorem deviation_le_benchmark (d : ℤ) : (d : ℝ) ≤ timeBenchmark d := by
  by_cases edge : d = 2000
  · rw [edge, benchmark_two_thousand]
    norm_num
  · exact ((deviation_lt_benchmark_iff d).mpr edge).le

/-- The rate formula is defined exactly at the deviations other than 2000, whether they exceed
`dmax` or not. -/
theorem rate_defined_iff (tr playoutPoint : ℤ) :
    RateDefined (tr - playoutPoint) ↔ tr - playoutPoint ≠ 2000 := by
  have benchmark := benchmark_pos (tr - playoutPoint)
  have radicand : 0 < 1 - ((tr - playoutPoint : ℤ) : ℝ) / timeBenchmark (tr - playoutPoint) ↔
      tr - playoutPoint ≠ 2000 := by
    rw [sub_pos, div_lt_one benchmark, deviation_lt_benchmark_iff]
  constructor
  · rintro ⟨_, positive, _⟩
    exact radicand.mp positive
  · intro other
    have positive := radicand.mpr other
    exact ⟨benchmark.ne', positive, (Real.sqrt_pos.mpr positive).ne'⟩

/-- Playback is two seconds behind. -/
theorem two_seconds_behind_undefined : dmax < |(2000 : ℤ) - 0| ∧ ¬ RateDefined (2000 - 0) := by
  refine ⟨by decide, ?_⟩
  rintro ⟨_, positive, _⟩
  have benchmark := benchmark_pos (2000 - 0)
  rw [sub_pos, div_lt_one benchmark] at positive
  exact (deviation_lt_benchmark_iff (2000 - 0)).mp positive (by decide)

/-- Playback that is behind is accelerated. -/
theorem accelerated {d : ℤ} (behind : 0 < d) : 1 < smoothRate d := by
  have positive : (0 : ℝ) < d := by exact_mod_cast behind
  have bounded := deviation_le_benchmark d
  have benchmark := benchmark_pos d
  have ratio : 0 < d / timeBenchmark d := div_pos positive benchmark
  have ratio' : d / timeBenchmark d ≤ 1 := (div_le_one benchmark).mpr bounded
  rw [smoothRate]
  split
  · exact EReal.coe_lt_top 1
  · rename_i regular
    have inside : 0 < 1 - d / timeBenchmark d := lt_of_le_of_ne (by linarith) (Ne.symm regular)
    have root : √(1 - d / timeBenchmark d) < 1 := by
      rw [Real.sqrt_lt' one_pos]
      linarith
    exact EReal.coe_lt_coe_iff.mpr ((one_lt_div (Real.sqrt_pos.mpr inside)).mpr root)

/-- Playback that is ahead is slowed down, to the root of the benchmark's share. -/
theorem decelerated {d : ℤ} (ahead : d < 0) :
    ∃ x : ℝ, smoothRate d = x ∧ 0 < x ∧ x < 1 ∧
      x ^ 2 * (timeBenchmark d - d) = timeBenchmark d := by
  have negative : (d : ℝ) < 0 := by exact_mod_cast ahead
  have benchmark := benchmark_pos d
  have ratio : d / timeBenchmark d < 0 := div_neg_of_neg_of_pos negative benchmark
  have inside : 1 < 1 - d / timeBenchmark d := by linarith
  have root : 1 < √(1 - d / timeBenchmark d) := by
    rw [Real.lt_sqrt zero_le_one]
    linarith
  refine ⟨1 / √(1 - d / timeBenchmark d), ?_, by positivity, ?_, ?_⟩
  · rw [smoothRate, if_neg (by linarith)]
  · exact (div_lt_one (by linarith)).mpr root
  · have apart : timeBenchmark d - d ≠ 0 := by linarith
    rw [div_pow, Real.sq_sqrt (by linarith)]
    field_simp

theorem overruns_coe {x : ℝ} {tr playoutPoint tSampling : ℤ} :
    Overruns x tr playoutPoint tSampling ↔
      (tr : ℝ) + 2 * tSampling < x * tSampling + playoutPoint := by
  rw [Overruns, ← EReal.coe_mul, ← EReal.coe_add, EReal.coe_lt_coe_iff]

theorem overruns_top {tr playoutPoint tSampling : ℤ} (positive : 0 < tSampling) :
    Overruns ⊤ tr playoutPoint tSampling := by
  have time : (0 : ℝ) < tSampling := by exact_mod_cast positive
  rw [Overruns, EReal.top_mul_coe_of_pos time, EReal.top_add_coe]
  exact EReal.coe_lt_top _

/-- The corrections of Algorithm 1 go the right way, and the guard only takes back an
acceleration. -/
structure CorrectDirection (tr playoutPoint tSampling : ℤ) : Prop where
  behind : dmax < tr - playoutPoint →
    1 < flowcontroller tr playoutPoint tSampling ∨
      Overruns (smoothRate (tr - playoutPoint)) tr playoutPoint tSampling ∧
        flowcontroller tr playoutPoint tSampling = 1
  unraised : dmax < tr - playoutPoint →
    flowcontroller tr playoutPoint tSampling ≤ smoothRate (tr - playoutPoint)
  ahead : tr - playoutPoint < -dmax → flowcontroller tr playoutPoint tSampling < 1
  between : |tr - playoutPoint| ≤ dmax → flowcontroller tr playoutPoint tSampling = 1

/-- A playout point `a` ahead of real time is not projected past real time plus two samplings:
the part of them it has left covers what a sampling plays at the lowered rate. -/
def Leeway (a tSampling : ℤ) : Prop :=
  a < 2 * tSampling ∧
    if a ≤ 2000 then 2000 * tSampling ^ 2 ≤ (2 * tSampling - a) ^ 2 * (2000 + a)
    else 21 * tSampling ^ 2 ≤ 41 * (2 * tSampling - a) ^ 2

instance (a tSampling : ℤ) : Decidable (Leeway a tSampling) :=
  inferInstanceAs (Decidable (_ ∧ _))

theorem flowcontroller_of_within {tr playoutPoint tSampling : ℤ}
    (within : |tr - playoutPoint| ≤ dmax) : flowcontroller tr playoutPoint tSampling = 1 :=
  if_neg (not_lt.mpr within)

theorem flowcontroller_of_overruns {tr playoutPoint tSampling : ℤ}
    (overruns : Overruns (smoothRate (tr - playoutPoint)) tr playoutPoint tSampling) :
    flowcontroller tr playoutPoint tSampling = 1 := by
  rw [flowcontroller]
  split
  · exact if_pos overruns
  · rfl

theorem flowcontroller_of_smooth {tr playoutPoint tSampling : ℤ}
    (away : dmax < |tr - playoutPoint|)
    (clear : ¬ Overruns (smoothRate (tr - playoutPoint)) tr playoutPoint tSampling) :
    flowcontroller tr playoutPoint tSampling = smoothRate (tr - playoutPoint) := by
  rw [flowcontroller, if_pos away]
  exact if_neg clear

/-- The benchmark's share in integers. -/
theorem share_le_iff {a : ℤ} (positive : 0 < a) {x : ℝ} (tSampling room : ℝ)
    (rate : x ^ 2 * (timeBenchmark (-a) + a) = timeBenchmark (-a)) :
    (x * tSampling) ^ 2 ≤ room ^ 2 ↔
      if a ≤ 2000 then 2000 * tSampling ^ 2 ≤ room ^ 2 * (2000 + a)
      else 21 * tSampling ^ 2 ≤ 41 * room ^ 2 := by
  have real : (0 : ℝ) < a := by exact_mod_cast positive
  have size : |((-a : ℤ) : ℝ)| = a := by
    rw [Int.cast_neg, abs_neg, abs_of_pos real]
  have whole : |(-a : ℤ)| = a := by rw [abs_neg, abs_of_pos positive]
  rw [timeBenchmark, whole, size] at rate
  split
  · rename_i near
    rw [if_neg (not_lt.mpr near)] at rate
    have played : (x * tSampling) ^ 2 * (2000 + a) = 2000 * tSampling ^ 2 := by
      linear_combination tSampling ^ 2 * rate
    rw [← played]
    exact (mul_le_mul_iff_left₀ (by linarith : (0 : ℝ) < 2000 + a)).symm
  · rename_i far
    rw [if_pos (not_le.mp far)] at rate
    have square : 41 * x ^ 2 = 21 := by
      apply mul_right_cancel₀ (ne_of_gt real)
      linear_combination 20 * rate
    have played : 41 * (x * tSampling) ^ 2 = 21 * tSampling ^ 2 := by
      linear_combination tSampling ^ 2 * square
    rw [← played]
    exact (mul_le_mul_iff_right₀ (by norm_num : (0 : ℝ) < 41)).symm

/-- The guard leaves a deceleration alone exactly where there is leeway. -/
theorem clear_iff_leeway {tr playoutPoint tSampling : ℤ} (positive : 0 < tSampling)
    (ahead : tr - playoutPoint < 0) :
    ¬ Overruns (smoothRate (tr - playoutPoint)) tr playoutPoint tSampling ↔
      Leeway (playoutPoint - tr) tSampling := by
  obtain ⟨x, rate, above, _, share⟩ := decelerated ahead
  have time : (0 : ℝ) < tSampling := by exact_mod_cast positive
  have played : 0 < x * tSampling := mul_pos above time
  have swap : tr - playoutPoint = -(playoutPoint - tr) := by ring
  rw [swap, Int.cast_neg, sub_neg_eq_add] at share
  have squares := share_le_iff (by omega : 0 < playoutPoint - tr) tSampling
    (2 * tSampling - (playoutPoint - tr)) share
  have left : ¬ Overruns (smoothRate (tr - playoutPoint)) tr playoutPoint tSampling ↔
      x * tSampling ≤ 2 * tSampling - (playoutPoint - tr) := by
    rw [rate, overruns_coe, not_lt]
    constructor <;> intro h <;> linarith
  rw [left, Leeway]
  constructor
  · intro covered
    have room : (0 : ℝ) < 2 * tSampling - (playoutPoint - tr) := lt_of_lt_of_le played covered
    constructor
    · have : ((playoutPoint - tr : ℤ) : ℝ) < (2 * tSampling : ℤ) := by
        push_cast
        linarith
      exact_mod_cast this
    · have := squares.mp (pow_le_pow_left₀ played.le covered 2)
      exact_mod_cast this
  · rintro ⟨short, bound⟩
    have room : ((playoutPoint - tr : ℤ) : ℝ) < (2 * tSampling : ℤ) := by exact_mod_cast short
    push_cast at room
    have square := squares.mpr (by exact_mod_cast bound)
    exact le_of_sq_le_sq square (by linarith)

theorem away_of_behind {tr playoutPoint : ℤ} (behind : dmax < tr - playoutPoint) :
    dmax < |tr - playoutPoint| :=
  lt_of_lt_of_le behind (le_abs_self _)

theorem away_of_ahead {tr playoutPoint : ℤ} (ahead : tr - playoutPoint < -dmax) :
    dmax < |tr - playoutPoint| :=
  lt_of_lt_of_le (lt_neg_of_lt_neg ahead) (neg_le_abs _)

/-- The controller corrects in the right direction exactly where playback that is ahead has
leeway. -/
theorem direction_iff_leeway (tr playoutPoint tSampling : ℤ) (positive : 0 < tSampling) :
    CorrectDirection tr playoutPoint tSampling ↔
      (tr - playoutPoint < -dmax → Leeway (playoutPoint - tr) tSampling) := by
  have bound : dmax = 75 := rfl
  constructor
  · intro correct ahead
    by_contra tight
    have overruns := not_not.mp (mt (clear_iff_leeway positive (by omega)).mp tight)
    have slowed := correct.ahead ahead
    rw [flowcontroller_of_overruns overruns] at slowed
    exact lt_irrefl 1 slowed
  · intro leeway
    refine ⟨fun behind => ?_, fun behind => ?_, fun ahead => ?_, flowcontroller_of_within⟩
    · by_cases overruns : Overruns (smoothRate (tr - playoutPoint)) tr playoutPoint tSampling
      · exact Or.inr ⟨overruns, flowcontroller_of_overruns overruns⟩
      · left
        rw [flowcontroller_of_smooth (away_of_behind behind) overruns]
        exact accelerated (by omega)
    · by_cases overruns : Overruns (smoothRate (tr - playoutPoint)) tr playoutPoint tSampling
      · rw [flowcontroller_of_overruns overruns]
        exact (accelerated (by omega)).le
      · exact (flowcontroller_of_smooth (away_of_behind behind) overruns).le
    · have clear := (clear_iff_leeway positive (by omega)).mpr (leeway ahead)
      obtain ⟨x, rate, _, below, _⟩ := decelerated (by omega : tr - playoutPoint < 0)
      rw [flowcontroller_of_smooth (away_of_ahead ahead) clear, rate]
      exact EReal.coe_lt_coe_iff.mpr below

/-- Playback is 80 ms ahead, with the player's sampling time. -/
theorem slightly_ahead_corrected : CorrectDirection 0 80 150 :=
  (direction_iff_leeway 0 80 150 (by decide)).mpr fun _ => by decide

/-- Playback is 200 ms ahead and is not slowed down. -/
theorem far_ahead_not_corrected :
    flowcontroller 0 200 150 = 1 ∧ ¬ CorrectDirection 0 200 150 := by
  have tight : ¬ Leeway (200 - 0) 150 := by decide
  have overruns := not_not.mp (mt (clear_iff_leeway (by decide) (by decide)).mp tight)
  have rate : flowcontroller 0 200 150 = 1 := flowcontroller_of_overruns overruns
  refine ⟨rate, fun correct => ?_⟩
  have slowed := correct.ahead (by decide)
  rw [rate] at slowed
  exact lt_irrefl 1 slowed

/-- Real time and the playout point. -/
structure Playout where
  tr : ℤ
  playoutPoint : ℤ

def Playout.deviation (st : Playout) : ℤ := st.tr - st.playoutPoint

/-- One control step and the sampling time after it, played at the rate that was set; no
player plays at an infinite rate. -/
noncomputable def controlStep (tSampling : ℤ) (st : Playout) : Option Playout :=
  match flowcontroller st.tr st.playoutPoint tSampling with
  | ⊤ | ⊥ => none
  | (r : ℝ) => some ⟨st.tr + tSampling, ⌊st.playoutPoint + r * tSampling⌋⟩

/-- `n` control steps. -/
noncomputable def play (tSampling : ℤ) : Nat → Playout → Option Playout
  | 0, st => some st
  | n + 1, st => (controlStep tSampling st).bind (play tSampling n)

/-- Where a sampling at rate `r` leaves the deviation. -/
theorem played_deviation (st : Playout) (r : ℝ) (tSampling : ℤ) :
    (Playout.mk (st.tr + tSampling) ⌊st.playoutPoint + r * tSampling⌋).deviation =
      st.deviation + tSampling - ⌊r * tSampling⌋ := by
  simp only [Playout.deviation, Int.floor_intCast_add]
  omega

theorem controlStep_of_rate {st : Playout} {tSampling : ℤ} {r : ℝ}
    (rate : flowcontroller st.tr st.playoutPoint tSampling = r) :
    controlStep tSampling st =
      some ⟨st.tr + tSampling, ⌊st.playoutPoint + r * tSampling⌋⟩ := by
  rw [controlStep, rate]
  rfl

/-- At rate 1 the deviation stays. -/
theorem controlStep_of_one {st : Playout} {tSampling : ℤ}
    (rate : flowcontroller st.tr st.playoutPoint tSampling = 1) :
    ∃ st', controlStep tSampling st = some st' ∧ st'.deviation = st.deviation := by
  refine ⟨_, controlStep_of_rate (r := 1) rate, ?_⟩
  rw [played_deviation, one_mul, Int.floor_intCast]
  omega

/-- A rate that the guard lets through is finite and plays at most two samplings more than
the deviation. -/
theorem clear_rate {st : Playout} {tSampling : ℤ} (positive : 0 < tSampling)
    (clear : ¬ Overruns (smoothRate st.deviation) st.tr st.playoutPoint tSampling) :
    ∃ r : ℝ, smoothRate st.deviation = r ∧
      r * tSampling ≤ (st.deviation + 2 * tSampling : ℤ) := by
  obtain ⟨r, rate⟩ : ∃ r : ℝ, smoothRate st.deviation = r := by
    rw [smoothRate] at clear ⊢
    split at clear
    · exact absurd (overruns_top positive) clear
    · rename_i regular
      exact ⟨_, if_neg regular⟩
  rw [rate, overruns_coe, not_lt] at clear
  refine ⟨r, rate, ?_⟩
  rw [Playout.deviation]
  push_cast
  linarith

/-- One control step keeps the deviation, or moves it towards 0 and by no more than a sampling
beyond. -/
theorem controlStep_spec {tSampling : ℤ} (positive : 0 < tSampling) (st : Playout) :
    ∃ st', controlStep tSampling st = some st' ∧
      (st'.deviation = st.deviation ∨
        0 < st.deviation ∧ -tSampling ≤ st'.deviation ∧ st'.deviation ≤ st.deviation ∨
        st.deviation < 0 ∧ st.deviation ≤ st'.deviation ∧ st'.deviation ≤ tSampling) := by
  have time : (0 : ℝ) < tSampling := by exact_mod_cast positive
  by_cases away : dmax < |st.deviation|
  swap
  · have still : flowcontroller st.tr st.playoutPoint tSampling = 1 :=
      flowcontroller_of_within (not_lt.mp away)
    obtain ⟨st', stepped, kept⟩ := controlStep_of_one still
    exact ⟨st', stepped, Or.inl kept⟩
  by_cases overruns : Overruns (smoothRate st.deviation) st.tr st.playoutPoint tSampling
  · obtain ⟨st', stepped, kept⟩ := controlStep_of_one (flowcontroller_of_overruns overruns)
    exact ⟨st', stepped, Or.inl kept⟩
  obtain ⟨r, rate, most⟩ := clear_rate positive overruns
  have set : flowcontroller st.tr st.playoutPoint tSampling = r :=
    (flowcontroller_of_smooth away overruns).trans rate
  refine ⟨_, controlStep_of_rate set, Or.inr ?_⟩
  rw [played_deviation]
  rcases lt_or_ge 0 st.deviation with behind | ahead
  · have fast : 1 < r := EReal.coe_lt_coe_iff.mp (rate ▸ accelerated behind)
    have least : tSampling ≤ ⌊r * tSampling⌋ := Int.le_floor.mpr (by nlinarith)
    have most' : ⌊r * tSampling⌋ ≤ st.deviation + 2 * tSampling := by
      exact_mod_cast (Int.floor_le _).trans most
    exact Or.inl ⟨behind, by omega, by omega⟩
  · have ahead' : st.deviation < 0 := by
      refine lt_of_le_of_ne ahead fun zero => ?_
      rw [zero] at away
      exact absurd away (by decide)
    obtain ⟨x, rate', above, below, _⟩ := decelerated ahead'
    obtain rfl : r = x := EReal.coe_injective (rate.symm.trans rate')
    have least : 0 ≤ ⌊r * tSampling⌋ := Int.floor_nonneg.mpr (by positivity)
    have most' : ⌊r * tSampling⌋ ≤ tSampling := by
      have : (⌊r * tSampling⌋ : ℝ) ≤ tSampling := (Int.floor_le _).trans (by nlinarith)
      exact_mod_cast this
    exact Or.inr ⟨ahead', by omega, by omega⟩

/-- The deviation never exceeds the larger of its first value and the sampling time. -/
theorem deviation_bounded (tSampling : ℤ) (positive : 0 < tSampling) (st : Playout) (n : Nat) :
    ∃ st', play tSampling n st = some st' ∧
      |st'.deviation| ≤ max |st.deviation| tSampling := by
  induction n generalizing st with
  | zero => exact ⟨st, rfl, le_max_left _ _⟩
  | succ n ih =>
    obtain ⟨st1, stepped, moved⟩ := controlStep_spec positive st
    obtain ⟨st', played, bound⟩ := ih st1
    have first : |st1.deviation| ≤ max |st.deviation| tSampling := by
      rcases moved with kept | ⟨behind, low, high⟩ | ⟨ahead, low, high⟩
      · exact kept ▸ le_max_left _ _
      · have : |st.deviation| = st.deviation := abs_of_pos behind
        exact abs_le.mpr (by omega)
      · have : |st.deviation| = -st.deviation := abs_of_neg ahead
        exact abs_le.mpr (by omega)
    refine ⟨st', ?_, bound.trans (max_le first (le_max_right _ _))⟩
    rw [play, stepped]
    exact played

/-- The player's sampling time, and a deviation at which the square root is 0. -/
theorem two_seconds_behind_bounded : ∃ st',
    play 150 1000 ⟨2000, 0⟩ = some st' ∧ |st'.deviation| ≤ max |2000| 150 :=
  deviation_bounded 150 (by decide) ⟨2000, 0⟩ 1000

end PlayoutControl
