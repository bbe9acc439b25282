import Mathlib.Data.Int.ModEq

/-!
# Integer simulation time

A time is an integer number of picoseconds. Conversions between units truncate towards zero and
the remainder keeps the sign of its first argument, as for fixed-point simulation times.

* `trunc` — the time in whole units, as a time again
* `fmod` — the truncated remainder

For times that are not negative both agree with the floor operations, which is how the lemmas
below hand them to `omega`.
-/

namespace Infra.SimTime

/-! ## Units -/

abbrev ns : Int := 1000
abbrev us : Int := 1000000
abbrev ms : Int := 1000000000
abbrev sec : Int := 1000000000000

/-! ## Conversions -/

/-- The time in whole units, fractions dropped. -/
def inUnit (unit t : Int) : Int := t.tdiv unit

/-- The time truncated to whole units. -/
def trunc (unit t : Int) : Int := inUnit unit t * unit

/-- The truncated remainder. -/
def fmod (t m : Int) : Int := t.tmod m

/-- The quotient rounded up. -/
def ceilDiv (a b : Int) : Int := -(-a / b)

theorem inUnit_eq_ediv {unit t : Int} (h : 0 ≤ t) : inUnit unit t = t / unit :=
  Int.tdiv_eq_ediv_of_nonneg h

theorem trunc_eq {unit t : Int} (h : 0 ≤ t) : trunc unit t = t / unit * unit := by
  rw [trunc, inUnit_eq_ediv h]

theorem trunc_nonneg {unit t : Int} (hu : 0 ≤ unit) (h : 0 ≤ t) : 0 ≤ trunc unit t := by
  rw [trunc_eq h]
  exact Int.mul_nonneg (Int.ediv_nonneg h hu) hu

theorem dvd_trunc (unit t : Int) : unit ∣ trunc unit t := Int.dvd_mul_left _ _

/-- A shift by whole units passes through the truncation. -/
theorem trunc_add {unit t d : Int} (hu : 0 < unit) (ht : 0 ≤ t) (hd : 0 ≤ d) (hdvd : unit ∣ d) :
    trunc unit (t + d) = trunc unit t + d := by
  obtain ⟨k, rfl⟩ := hdvd
  rw [trunc_eq (by omega), trunc_eq ht, Int.add_mul_ediv_left _ _ (by omega), Int.add_mul,
    Int.mul_comm k unit]

theorem fmod_eq_emod {t m : Int} (h : 0 ≤ t) : fmod t m = t % m :=
  Int.tmod_eq_emod_of_nonneg h

theorem fmod_nonneg {t : Int} (h : 0 ≤ t) (m : Int) : 0 ≤ fmod t m := Int.tmod_nonneg m h

theorem fmod_lt {t m : Int} (hm : 0 < m) : fmod t m < m := Int.tmod_lt_of_pos t hm

/-- Times of less than a modulus, of either sign, are their own remainder. -/
theorem fmod_eq_self {t m : Int} (h1 : -m < t) (h2 : t < m) : fmod t m = t := by
  by_cases h : 0 ≤ t
  · rw [fmod_eq_emod h, Int.emod_eq_of_lt h h2]
  · have hneg : (-t).tmod m = -t := Int.tmod_eq_of_lt (by omega) (by omega)
    rw [Int.neg_tmod] at hneg
    rw [fmod]
    omega

/-- The remainder is congruent to the time, whatever its sign. -/
theorem fmod_modEq (t m : Int) : fmod t m ≡ t [ZMOD m] := by
  refine Int.modEq_iff_dvd.mpr ?_
  rw [fmod, Int.tmod_def]
  exact ⟨t.tdiv m, by omega⟩

/-- A divisor of the modulus that divides the time divides the remainder. -/
theorem dvd_fmod {u t m : Int} (hm : u ∣ m) (ht : u ∣ t) : u ∣ fmod t m := by
  rw [fmod, Int.tmod_def]
  exact Int.dvd_sub ht (Int.dvd_mul_of_dvd_left hm)

end Infra.SimTime
