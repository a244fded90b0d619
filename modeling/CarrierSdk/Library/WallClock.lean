import Mathlib.Algebra.Order.Group.Unbundled.Int
import Mathlib.Data.UInt

/-! Clock values of seconds and microseconds, and the milliseconds between two of them: as they are, and as an int
of 32 bits shows them. -/
namespace CarrierSdk

/-- struct timeval, as gettimeofday sets it. -/
structure TimeVal where
  sec : Nat
  usec : Nat
  valid : usec < 1000000
  deriving DecidableEq

namespace TimeVal

theorem zero_lt_second : 0 < 1000000 := by decide

def zero : TimeVal := ⟨0, 0, zero_lt_second⟩

def micros (t : TimeVal) : Int := t.sec * 1000000 + t.usec

instance : LE TimeVal := ⟨fun t u => t.micros ≤ u.micros⟩

instance (t u : TimeVal) : Decidable (t ≤ u) := inferInstanceAs (Decidable (t.micros ≤ u.micros))

/-- The milliseconds since a time. Seconds and microseconds are subtracted apart, and the latter are rounded
towards zero. -/
def elapsed (now t : TimeVal) : Int := ((now.sec : Int) - t.sec) * 1000 + ((now.usec : Int) - t.usec).tdiv 1000

/-- The same in an int, with a cast of both parts. -/
def interval (now t : TimeVal) : Int32 :=
  Int32.ofInt (((now.sec : Int) - t.sec) * 1000) + Int32.ofInt (((now.usec : Int) - t.usec).tdiv 1000)

variable {now t : TimeVal}

theorem tdiv_within (d : Int) : |1000 * d.tdiv 1000 - d| < 1000 := by
  have hdiv := Int.mul_tdiv_add_tmod d 1000
  have hlow := Int.lt_tmod_of_pos d (b := 1000) (by decide)
  have hhigh := Int.tmod_lt_of_pos d (b := 1000) (by decide)
  rw [abs_lt]
  omega

theorem elapsed_within (now t : TimeVal) : |1000 * elapsed now t - (now.micros - t.micros)| < 1000 := by
  have hdiv := abs_lt.mp (tdiv_within ((now.usec : Int) - t.usec))
  rw [abs_lt, elapsed, micros, micros]
  omega

theorem elapsed_nonneg (h : t ≤ now) : 0 ≤ elapsed now t := by
  have hdiv := abs_lt.mp (tdiv_within ((now.usec : Int) - t.usec))
  have hvalid := now.valid
  have hvalid' := t.valid
  have hle : t.micros ≤ now.micros := h
  rw [micros, micros] at hle
  rw [elapsed]
  omega

theorem toInt_interval (now t : TimeVal) : (interval now t).toInt = (elapsed now t).bmod (2 ^ 32) := by
  rw [interval, Int32.toInt_add, Int32.toInt_ofInt, Int32.toInt_ofInt, elapsed]
  exact Int.bmod_add_bmod.trans Int.add_bmod_bmod

end TimeVal

/-- A number of milliseconds reaches a limit where both are read as ints. -/
def Shows (limit ms : Int) : Prop := limit.bmod (2 ^ 32) ≤ ms.bmod (2 ^ 32)

instance (limit ms : Int) : Decidable (Shows limit ms) :=
  inferInstanceAs (Decidable (limit.bmod (2 ^ 32) ≤ ms.bmod (2 ^ 32)))

/-- A comparison of ints. -/
theorem le_interval_iff {now t : TimeVal} {limit : Int32} {ms : Int} (h : limit.toInt = ms.bmod (2 ^ 32)) :
    limit ≤ now.interval t ↔ Shows ms (now.elapsed t) := by
  rw [Int32.le_iff_toInt_le, TimeVal.toInt_interval, h, Shows]

theorem shows_iff {limit ms : Int} (hpos : 0 < limit) (hlimit : limit < 2 ^ 31) :
    Shows limit ms ↔ limit ≤ ms % 2 ^ 32 ∧ ms % 2 ^ 32 < 2 ^ 31 := by
  rw [Shows, Int.bmod_def, Int.bmod_def]
  omega

/-- What has not run out does not show. -/
theorem le_of_shows {limit ms : Int} (hpos : 0 < limit) (hlimit : limit < 2 ^ 31) (hms : 0 ≤ ms)
    (h : Shows limit ms) : limit ≤ ms := by
  obtain ⟨hle, -⟩ := (shows_iff hpos hlimit).mp h
  omega

theorem shows_iff_of_lt {limit ms : Int} (hlimit : 0 ≤ limit) (hlimit' : limit < 2 ^ 31) (hms : 0 ≤ ms)
    (hms' : ms < 2 ^ 31) : Shows limit ms ↔ limit ≤ ms := by
  rw [Shows, Int.bmod_def, Int.bmod_def]
  omega

end CarrierSdk
