import UnvStream.PacketLog

/-!
# Elapsed time from the time of day

`get_timestamp` gives the millisecond of the local day, and the client subtracts two of
them as 32-bit words.
-/

namespace DayClock

/-- What `gettimeofday` stores. -/
structure Instant where
  tvSec : Int
  tvUsec : Int
  nonneg : 0 ≤ tvUsec
  short : tvUsec < 1000000

/-- The hour, minute and second that `localtime` gives at a fixed offset from UTC. -/
structure LocalTime where
  tmHour : Int
  tmMin : Int
  tmSec : Int

def secondsOfDay : Int := 86400

def localtime (offset tvSec : Int) : LocalTime :=
  let second := (tvSec + offset) % secondsOfDay
  ⟨second / 3600, second % 3600 / 60, second % 60⟩

def getTimestamp (offset : Int) (t : Instant) : UInt32 :=
  let tm := localtime offset t.tvSec
  UInt32.ofInt (tm.tmHour * 3600 * 1000 + tm.tmMin * 60 * 1000 + tm.tmSec * 1000 + t.tvUsec / 1000)

/-- The instant in whole milliseconds. -/
def Instant.millis (t : Instant) : Int := t.tvSec * 1000 + t.tvUsec / 1000

/-- The instant in microseconds. -/
def Instant.micros (t : Instant) : Int := t.tvSec * 1000000 + t.tvUsec

def localDay (offset : Int) (t : Instant) : Int := (t.tvSec + offset) / secondsOfDay

/-- `stop-start` is the time that has passed between the truncated instants, and the log is
printed only if the testing period has passed. -/
structure ElapsedRight (offset : Int) (start stop : Instant) : Prop where
  elapsed : ((getTimestamp offset stop - getTimestamp offset start).toNat : Int) =
    stop.millis - start.millis
  dumped : PacketLog.testingPeriod ≤ getTimestamp offset stop - getTimestamp offset start →
    (PacketLog.testingPeriod.toNat : Int) ≤ stop.millis - start.millis

theorem toNat_ofInt {x : Int} (nonneg : 0 ≤ x) (small : x < 2 ^ 32) :
    ((UInt32.ofInt x).toNat : Int) = x := by
  rw [UInt32.ofInt, UInt32.toNat_ofNat']
  omega

/-- The hour, minute and second are the digits of the second of the day. -/
theorem localtime_seconds (offset tvSec : Int) :
    (localtime offset tvSec).tmHour * 3600 + (localtime offset tvSec).tmMin * 60 +
      (localtime offset tvSec).tmSec = (tvSec + offset) % 86400 := by
  simp only [localtime, secondsOfDay]
  omega

/-- The time stamp counts the milliseconds from the midnight before. -/
theorem getTimestamp_toNat (offset : Int) (t : Instant) :
    ((getTimestamp offset t).toNat : Int) =
      (t.tvSec + offset) % 86400 * 1000 + t.tvUsec / 1000 := by
  have nonneg := t.nonneg
  have short := t.short
  have seconds := localtime_seconds offset t.tvSec
  have value : (localtime offset t.tvSec).tmHour * 3600 * 1000 +
      (localtime offset t.tvSec).tmMin * 60 * 1000 + (localtime offset t.tvSec).tmSec * 1000 +
      t.tvUsec / 1000 = (t.tvSec + offset) % 86400 * 1000 + t.tvUsec / 1000 := by omega
  rw [getTimestamp, value]
  exact toNat_ofInt (by omega) (by omega)

/-- In exact numbers, a day that begins in between takes its milliseconds away. -/
theorem timestamps_apart (offset : Int) (start stop : Instant) :
    ((getTimestamp offset stop).toNat : Int) - (getTimestamp offset start).toNat =
      stop.millis - start.millis -
        (localDay offset stop - localDay offset start) * 86400000 := by
  rw [getTimestamp_toNat, getTimestamp_toNat]
  simp only [Instant.millis, localDay, secondsOfDay]
  omega

/-- Less than a day later is the same day or the next. -/
theorem localDay_later {start stop : Instant} (offset : Int)
    (later : start.micros ≤ stop.micros) (within : stop.micros - start.micros < 86400000000) :
    localDay offset stop = localDay offset start ∨
      localDay offset stop = localDay offset start + 1 := by
  have := start.nonneg
  have := start.short
  have := stop.nonneg
  have := stop.short
  simp only [Instant.micros, localDay, secondsOfDay] at *
  omega

theorem millis_later {start stop : Instant} (later : start.micros ≤ stop.micros)
    (within : stop.micros - start.micros < 86400000000) :
    0 ≤ stop.millis - start.millis ∧ stop.millis - start.millis ≤ 86400000 := by
  simp only [Instant.micros, Instant.millis] at *
  omega

/-- Less than a day later, the difference of the time stamps is the elapsed time exactly if no
midnight has passed. -/
theorem elapsed_iff_same_day (offset : Int) (start stop : Instant)
    (later : start.micros ≤ stop.micros) (within : stop.micros - start.micros < 86400000000) :
    ElapsedRight offset start stop ↔ localDay offset stop = localDay offset start := by
  obtain ⟨nonneg, bounded⟩ := millis_later later within
  have apart := timestamps_apart offset start stop
  have wrapped := UInt32.toNat_sub (getTimestamp offset stop) (getTimestamp offset start)
  have := (getTimestamp offset start).toNat_lt
  have := (getTimestamp offset stop).toNat_lt
  constructor
  · rintro ⟨elapsed, _⟩
    rcases localDay_later offset later within with same | next
    · exact same
    · rw [next] at apart
      omega
  · intro same
    rw [same] at apart
    have elapsed : ((getTimestamp offset stop - getTimestamp offset start).toNat : Int) =
        stop.millis - start.millis := by omega
    refine ⟨elapsed, fun dumped => ?_⟩
    rw [← elapsed]
    exact_mod_cast UInt32.le_iff_toNat_le.mp dumped

/-- A minute at noon. -/
theorem noon_elapsed :
    ElapsedRight 0 ⟨43200, 0, by decide, by decide⟩ ⟨43260, 500, by decide, by decide⟩ :=
  (elapsed_iff_same_day 0 _ _ (by decide) (by decide)).mpr (by decide)

/-- The client starts a millisecond before midnight and prints its log at midnight. -/
theorem midnight_not_elapsed :
    ¬ ElapsedRight 0 ⟨86399, 999000, by decide, by decide⟩ ⟨86400, 0, by decide, by decide⟩ := by
  rintro ⟨_, dumped⟩
  exact absurd (dumped (by decide)) (by decide)

end DayClock
