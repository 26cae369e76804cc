import UnvStream.AverageDelay
import UnvStream.DayClock

/-!
# Delays from the time of day

`stampstart` and `stampstop` give the millisecond of the local day, like `get_timestamp` of the
client, and the delay of a frame is their difference as a 32-bit word. A midnight in between
makes it too long by what is left of the word. The sum of the delays is the exact one of
`AverageDelay`.
-/

namespace DelayClock

open DayClock AverageDelay

/-- A frame that the encoder returns less than a day after its packet has been read. -/
structure Timed where
  iEncodedBytes : Int
  start : Instant
  stop : Instant
  later : start.millis ≤ stop.millis
  within : stop.millis - start.millis < 86400000

def Timed.elapsed (f : Timed) : Int := f.stop.millis - f.start.millis

def Timed.frame (offset : Int) (f : Timed) : Frame :=
  ⟨f.iEncodedBytes, ((getTimestamp offset f.stop - getTimestamp offset f.start).toNat : Int)⟩

/-- Whether the frame is returned on the day after. -/
def Timed.crosses (offset : Int) (f : Timed) : Bool :=
  decide (localDay offset f.stop ≠ localDay offset f.start)

/-- A 32-bit word less the milliseconds of a day. -/
def midnightError : Int := 2 ^ 32 - 86400000

/-- The frames that reach the statements about the delay. -/
def sent (networkport : Int) (fs : List Timed) : List Timed :=
  fs.filter fun f => 0 < f.iEncodedBytes && 0 < networkport

/-- The frames that a value printed with frame number `i` adds up. -/
def window (networkport : Int) (fs : List Timed) (i : Nat) : List Timed :=
  ((sent networkport fs).take (i + 1)).drop (windowStart i)

/-- The day changes at most once while a frame is on its way. -/
theorem Timed.day (offset : Int) (f : Timed) :
    localDay offset f.stop = localDay offset f.start ∨
      localDay offset f.stop = localDay offset f.start + 1 := by
  have := f.later
  have := f.within
  have := f.start.nonneg
  have := f.start.short
  have := f.stop.nonneg
  have := f.stop.short
  simp only [Instant.millis, localDay, secondsOfDay] at *
  omega

theorem Timed.word (offset : Int) (f : Timed) :
    ((getTimestamp offset f.stop - getTimestamp offset f.start).toNat : Int) =
      f.elapsed + if f.crosses offset then midnightError else 0 := by
  have later := f.later
  have within := f.within
  have apart := timestamps_apart offset f.start f.stop
  have wrapped := UInt32.toNat_sub (getTimestamp offset f.stop) (getTimestamp offset f.start)
  have := (getTimestamp offset f.start).toNat_lt
  have := (getTimestamp offset f.stop).toNat_lt
  rcases f.day offset with same | next
  · have stays : f.crosses offset = false := decide_eq_false fun differs => differs same
    rw [same] at apart
    rw [stays, Timed.elapsed]
    simp only [Bool.false_eq_true, if_false]
    omega
  · have moves : f.crosses offset = true := decide_eq_true (by omega)
    rw [next] at apart
    rw [moves, Timed.elapsed, midnightError]
    simp only [if_true]
    omega

/-- The delays of some frames add up to the time they took and the error of each midnight. -/
theorem sum_words (offset : Int) (fs : List Timed) :
    (fs.map fun f => (f.frame offset).dt).sum =
      (((fs.map Timed.elapsed).sum + midnightError * fs.countP (Timed.crosses offset) : Int) : ℚ) := by
  induction fs with
  | nil => simp
  | cons f fs ih =>
    have first : (f.frame offset).dt =
        ((f.elapsed + if f.crosses offset then midnightError else 0 : Int) : ℚ) :=
      congrArg Int.cast (f.word offset)
    rw [List.map_cons, List.sum_cons, ih, first, List.map_cons, List.sum_cons, List.countP_cons,
      ← Int.cast_add]
    congr 1
    cases f.crosses offset
    · simp only [Bool.false_eq_true, if_false, Nat.add_zero]
      omega
    · simp only [if_true, Nat.cast_add, Nat.cast_one, Int.mul_add]
      omega

theorem delays_window (offset networkport : Int) (fs : List Timed) (i : Nat) :
    ((delays networkport (fs.map (Timed.frame offset))).take (i + 1)).drop (windowStart i) =
      (window networkport fs i).map fun f => (f.frame offset).dt := by
  have all : delays networkport (fs.map (Timed.frame offset)) =
      (sent networkport fs).map fun f => (f.frame offset).dt := by
    rw [delays, List.filter_map, List.map_map]
    rfl
  rw [all, window, List.map_drop, List.map_take]

/-- With every tenth frame from number 10 on a value is printed, and it is a tenth of the time the
frames of its window took, plus about 420857 seconds for every frame over midnight. -/
theorem printed_delays (offset networkport : Int) (fs : List Timed) (i : Nat) (v : ℚ) :
    Prints networkport (fs.map (Timed.frame offset)) i v ↔
      i < (sent networkport fs).length ∧ (10 ≤ i ∧ i % 10 = 0) ∧
        v = ((((window networkport fs i).map Timed.elapsed).sum +
          midnightError * (window networkport fs i).countP (Timed.crosses offset) : Int) : ℚ) /
            10 := by
  have count : (delays networkport (fs.map (Timed.frame offset))).length =
      (sent networkport fs).length := by
    rw [delays, List.filter_map, List.map_map, List.length_map]
    rfl
  rw [prints_iff, count, delays_window, sum_words]

end DelayClock
