import CooperativeTsn.Infra.Cyclic
import CooperativeTsn.Stream.Window

/-!
# Does the reservation cover the observed arrivals?

A reservation is an arc of the cycle: it begins at the stream's start time and lasts as long as the
requested bits take to transmit.

* `covers_of_ne_zero` — it covers every held packet whose offset is not zero
* `reservation_covers_iff` — it covers all of them exactly when skipping the offsets that are zero
  does no harm
-/

namespace CooperativeTsn

open Infra Infra.Rounding Infra.SimTime Infra.Cyclic

namespace TsnStream

variable {Module : Type} {s : TsnStream Module} {off : Int}

/-! ## Slot size in time -/

/-- The longest packet of UDP, in bits. -/
def maxPacketSize : Int := 8 * 65535

/-- How long `bits` occupy the link. -/
def transmissionTime (bits : Int) : Int := bits * us / dataRate

/--
The nanoseconds that the doubles take off the transmission time of a packet. For what UDP sends it
is one where `(bits / 100) * 1000` falls short of `10 * bits`, and else none.
-/
def shortfall (bits : Int) : Int := inUnit ns (transmissionTime bits - packetTime bits)

/-- The spread of the arrivals after the ten percent are added, without the shortfall of the packet,
rounded up to whole bits. -/
def widened (bits spread : Int) : Int :=
  ceilDiv (inUnit ns (spread + adjustment spread) - shortfall bits) 10 * (10 * ns)

theorem transmissionTime_eq (bits : Int) : transmissionTime bits = bits * 10000 := by
  simp only [transmissionTime, us, dataRate]
  omega

theorem adjustment_eq {d : Int} (hd : 0 ≤ d) : adjustment d = d / 10 :=
  Int.tdiv_eq_ediv_of_nonneg hd

theorem adjustment_half {d : Int} (hd : 0 ≤ d) : (adjustment d).tdiv 2 = d / 20 := by
  rw [adjustment_eq hd, Int.tdiv_eq_ediv_of_nonneg (by omega)]
  omega

/-- Each rounding keeps half of a number, and a bit takes ten nanoseconds. -/
theorem le_packetTime {bits : Int} (hb : 0 ≤ bits) : bits * ns ≤ packetTime bits := by
  have hsize : (0 : ℚ) ≤ bits := by exact_mod_cast hb
  have hbits := half_le_double hsize
  have hquotient := half_le_double (x := double bits / 100) (by linarith)
  have hproduct := half_le_double (x := double (double bits / 100) * 1000) (by linarith)
  have hle : (bits : ℚ) ≤ double (double (double bits / 100) * 1000) := by linarith
  have htime : packetTime bits = ⌊double (double (double bits / 100) * 1000)⌋ * ns := by
    rw [packetTime, ← truncate_eq_floor (by linarith)]
    norm_num [dataRate]
  rw [htime]
  exact Int.mul_le_mul_of_nonneg_right (Int.le_floor.mpr hle) (by decide)

theorem packetTime_nonneg {bits : Int} (hb : 0 ≤ bits) : 0 ≤ packetTime bits :=
  (Int.mul_nonneg hb (by decide)).trans (le_packetTime hb)

theorem packetTime_eq (bits : Int) :
    packetTime bits = transmissionTime bits - shortfall bits * ns := by
  have hdvd : ns ∣ transmissionTime bits - packetTime bits := by
    rw [transmissionTime_eq]
    exact Int.dvd_sub ⟨bits * 10, by simp only [ns]; omega⟩ (Int.dvd_mul_left _ _)
  rw [shortfall, inUnit, Int.tdiv_mul_cancel hdvd]
  omega

theorem le_of_maxPacketSize {bits : Int} (hsize : bits ≤ maxPacketSize) : bits ≤ 2 ^ 40 :=
  hsize.trans (by decide)

/-- Two roundings of numbers of this size lose less than a nanosecond. -/
theorem shortfall_bounds {bits : Int} (hb : 0 ≤ bits) (hsize : bits ≤ 2 ^ 40) :
    0 ≤ shortfall bits ∧ shortfall bits ≤ 1 := by
  have hb0 : (0 : ℚ) ≤ bits := by exact_mod_cast hb
  have hb1 : (bits : ℚ) ≤ 2 ^ 40 := by exact_mod_cast hsize
  have hexact : double bits = bits := double_intCast (by rw [abs_of_nonneg hb]; omega)
  -- the quotient and the product, each with its error
  set quotient := double (bits / 100)
  have hquotient0 : 0 ≤ quotient := double_nonneg (by linarith)
  have hquotient := abs_le.mp (abs_double_sub_le (bits / 100 : ℚ))
  rw [abs_of_nonneg (by linarith)] at hquotient
  set product := double (quotient * 1000)
  have hproduct0 : 0 ≤ product := double_nonneg (by linarith)
  have hproduct := abs_le.mp (abs_double_sub_le (quotient * 1000))
  rw [abs_of_nonneg (by linarith)] at hproduct
  have hlo : ((10 * bits - 1 : ℤ) : ℚ) ≤ product := by
    push_cast
    linarith [hquotient.1, hproduct.1]
  have hhi : product < ((10 * bits + 1 : ℤ) : ℚ) := by
    push_cast
    linarith [hquotient.2, hproduct.2]
  have htime : packetTime bits = ⌊product⌋ * ns := by
    rw [packetTime, hexact, ← truncate_eq_floor hproduct0]
    norm_num [dataRate, product, quotient]
  have hfloor := Int.le_floor.mpr hlo
  have hfloor' := Int.floor_lt.mpr hhi
  have heq := packetTime_eq bits
  rw [htime, transmissionTime_eq] at heq
  simp only [ns] at heq
  omega

theorem widened_eq {d : Int} (hd : 0 ≤ d) (bits : Int) :
    widened bits d = -(-((d + d / 10) / 1000 - shortfall bits) / 10) * 10000 := by
  rw [widened, adjustment_eq hd, inUnit_eq_ediv (by omega)]
  rfl

/-- The rounding loses less than two nanoseconds. -/
theorem le_widened {bits d : Int} (hd : 0 ≤ d) (hb : 0 ≤ bits) (hsize : bits ≤ 2 ^ 40) :
    d + d / 10 ≤ widened bits d + 2000 := by
  have hshort := (shortfall_bounds hb hsize).2
  rw [widened_eq hd]
  omega

/-- The requested slot is the widened spread, the allowance and the packet. -/
theorem transmissionTime_slotBits {d bits : Int} (hd : 0 ≤ d) (hb : 0 ≤ bits) :
    transmissionTime (slotBits d bits) = widened bits d + 21 * us + transmissionTime bits := by
  have hpacket := packetTime_nonneg hb
  have heq := packetTime_eq bits
  rw [slotBits, adjustment_eq hd, widened_eq hd, transmissionTime_eq,
    inUnit_eq_ediv (by simp only [us]; omega), heq, transmissionTime_eq]
  simp only [ceilDiv, dataRate, us, ns]
  omega

/-- The widening loses next to nothing, or the slot is longer than the cycle anyway: only a packet
that is longer than many cycles loses more in doubles. -/
theorem spread_le_slot {d bits : Int} (hd : 0 ≤ d) (hb : 0 ≤ bits) :
    d + d / 10 ≤ widened bits d + 2000 ∨
      cycleTime ≤ widened bits d + 21 * us + transmissionTime bits := by
  by_cases hsize : bits ≤ 2 ^ 40
  · exact Or.inl (le_widened hd hb hsize)
  · have hpacket := le_packetTime hb
    have heq := packetTime_eq bits
    rw [widened_eq hd]
    simp only [cycleTime, us, ns] at *
    omega

/-! ## The other products -/

/-- The product with `0.1` in doubles is that of the tenth: `0.1` is a little more, and the
remainder of a division by ten is far enough from the next integer. -/
theorem adjustment_double {d : Int} (hd : 0 ≤ d) (hlt : d < cycleTime) :
    truncate (double (double d * double (1 / 10))) = adjustment d := by
  have hexact : double d = d := double_intCast (by
    rw [abs_of_nonneg hd]
    exact hlt.trans (by decide))
  have htenth : (1 / 10 : ℚ) ≤ double (1 / 10) ∧ double (1 / 10) ≤ 1 / 10 + 1 / 2 ^ 57 := by
    decide +kernel
  have hd0 : (0 : ℚ) ≤ d := by exact_mod_cast hd
  have hd1 : (d : ℚ) ≤ 2 ^ 37 := by exact_mod_cast hlt.le.trans (by decide)
  rw [hexact, adjustment_eq hd]
  rcases hd.eq_or_lt with rfl | hpos
  · norm_num [double, truncate]
  set product := (d : ℚ) * double (1 / 10)
  have hpos' : (0 : ℚ) < d := by exact_mod_cast hpos
  have hlo : (d : ℚ) / 10 ≤ product := by
    have := mul_le_mul_of_nonneg_left htenth.1 hd0
    linarith
  have hhi : product ≤ (d : ℚ) / 10 + 1 / 2 ^ 20 := by
    have := mul_le_mul_of_nonneg_left htenth.2 hd0
    linarith
  have hproduct : 0 < product := by linarith
  have hround := (abs_le.mp (abs_double_sub_le product)).2
  rw [abs_of_pos hproduct] at hround
  rw [truncate_eq_floor (double_nonneg hproduct.le), Int.floor_eq_iff]
  have hdiv : ((10 * (d / 10) : ℤ) : ℚ) ≤ d ∧ (d : ℚ) ≤ ((10 * (d / 10) + 9 : ℤ) : ℚ) :=
    ⟨by exact_mod_cast (by omega : 10 * (d / 10) ≤ d),
      by exact_mod_cast (by omega : d ≤ 10 * (d / 10) + 9)⟩
  push_cast at hdiv
  constructor
  · refine le_toDigits (by decide) hproduct ?_ (by linarith)
    have : cycleTime ≤ ((2 : ℕ) : ℤ) ^ 53 := by decide
    omega
  · linarith

/-- A slot of whole bits comes out the same in doubles. -/
theorem slotBits_double {n : Int} (hn : 0 ≤ n) (hlt : n < 2 ^ 40) :
    ⌈double (double (double n * dataRate) / 1000)⌉ = ceilDiv (n * dataRate) 1000 := by
  have hexact : double n = n := double_intCast (by rw [abs_of_nonneg hn]; omega)
  have hbits : double ((n : ℚ) * dataRate) = ((n * 100 : ℤ) : ℚ) := by
    rw [← double_intCast (n := n * 100) (by rw [abs_of_nonneg (by omega)]; omega), dataRate]
    push_cast
    rfl
  have hceil : ceilDiv (n * dataRate) 1000 = -(-n / 10) := by
    simp only [ceilDiv, dataRate]
    omega
  rw [hexact, hbits, hceil]
  have hn0 : (0 : ℚ) ≤ n := by exact_mod_cast hn
  have hn1 : (n : ℚ) < 2 ^ 40 := by exact_mod_cast hlt
  have hquotient : ((n * 100 : ℤ) : ℚ) / 1000 = n / 10 := by
    push_cast
    ring
  rw [hquotient]
  by_cases hdvd : 10 ∣ n
  · obtain ⟨k, rfl⟩ := hdvd
    have hk : (((10 * k : ℤ) : ℚ)) / 10 = k := by
      push_cast
      ring
    rw [hk, double_intCast (by rw [abs_lt]; omega), Int.ceil_intCast]
    omega
  · -- the quotient keeps a tenth away from the integers on both sides
    have hround := abs_le.mp (abs_double_sub_le (n / 10 : ℚ))
    rw [abs_of_nonneg (by linarith)] at hround
    have hbetween : ((-(-n / 10) - 1 : ℤ) : ℚ) + 1 / 10 ≤ n / 10 ∧
        (n / 10 : ℚ) + 1 / 10 ≤ ((-(-n / 10) : ℤ) : ℚ) := by
      have hlo : ((10 * (-(-n / 10) - 1) + 1 : ℤ) : ℚ) ≤ n := by
        exact_mod_cast (by omega : 10 * (-(-n / 10) - 1) + 1 ≤ n)
      have hhi : ((n + 1 : ℤ) : ℚ) ≤ ((10 * -(-n / 10) : ℤ) : ℚ) := by
        exact_mod_cast (by omega : n + 1 ≤ 10 * -(-n / 10))
      push_cast at hlo hhi ⊢
      constructor <;> linarith
    rw [Int.ceil_eq_iff]
    push_cast at hbetween ⊢
    constructor <;> linarith

/-! ## The held packets -/

/-- Offsets of packets that arrive after the creation. -/
theorem held_bounds {c : Int} (hc : 0 ≤ c) {ts : List Int} (hts : ∀ t ∈ ts, c ≤ t) :
    ∀ a ∈ held (getCreationTimeOffset c) ts, 0 ≤ a ∧ a < cycleTime := by
  intro a ha
  obtain ⟨t, ht, rfl⟩ := mem_held ha
  have hoff := (getCreationTimeOffset_bounds hc).2
  exact arrivalOffset_bounds (by simp only [cycleTime, sec] at hoff ⊢; omega)
    (Int.le_trans hc (hts t ht))

/-- The reserved arc covers the transmission of every packet that the window holds. -/
def ReservationCovers (off : Int) (ts : List Int) (s : TsnStream Module) : Prop :=
  ∀ a ∈ held off ts, Covers cycleTime (s.receive off ts).startTime
    (transmissionTime (s.receive off ts).packetSize) a (a + transmissionTime s.originalPacketSize)

/--
Skipping the zeros does no harm. If some held offset is zero and `m` and `M` bound those that are
not, then the arc reaches the start of the cycle all the same: because it begins before it (`m` is
within a twentieth of the spread), because it runs past its end by a packet, or because it fills
the cycle.
-/
def ZeroOffsetHarmless (times : List Int) (bits : Int) : Prop :=
  0 ∈ times → ∀ m M, IsSpan times m M →
    20 * m ≤ M - m ∨
      cycleTime ≤ m - (M - m) / 20 + widened bits (M - m) + 21 * us ∨
      cycleTime ≤ widened bits (M - m) + 21 * us + transmissionTime bits

/-- A window of zeros is reserved from the start of the cycle on. -/
theorem covers_of_zeros {bits : Int} (hb : 0 ≤ bits) :
    Covers cycleTime (fmod 0 cycleTime) (transmissionTime (slotBits 0 bits)) 0
      (0 + transmissionTime bits) := by
  rw [transmissionTime_slotBits (by omega) hb, show fmod 0 cycleTime = 0 from rfl]
  rcases spread_le_slot (d := 0) (by omega) hb with hw | hlong
  · refine covers_of_le (by decide) (by decide) ?_
    simp only [us]
    omega
  · exact covers_of_cycle_le (by decide) hlong

section Span

variable {times : List Int} {m M bits : Int}

/-- Between its ends the arc covers the packets at both ends of the span. -/
theorem covers_of_ne_zero (h : IsSpan times m M) (hb : 0 ≤ bits) {a : Int} (ha : a ∈ times)
    (hne : a ≠ 0) :
    Covers cycleTime (fmod (m - (M - m) / 20) cycleTime) (transmissionTime (slotBits (M - m) bits))
      a (a + transmissionTime bits) := by
  have hab := h.bounds a ha hne
  have hd : 0 ≤ M - m := by omega
  rw [Covers.congr_start (fmod_modEq _ _), transmissionTime_slotBits hd hb]
  rcases spread_le_slot hd hb with hw | hlong
  · refine covers_of_le (by decide) (by omega) ?_
    simp only [us]
    omega
  · exact covers_of_cycle_le (by decide) hlong

/-- The packet at offset zero. -/
theorem covers_zero_iff_harmless (h : IsSpan times m M) (hM : M < cycleTime) (hb : 0 ≤ bits) :
    Covers cycleTime (fmod (m - (M - m) / 20) cycleTime) (transmissionTime (slotBits (M - m) bits))
        0 (0 + transmissionTime bits) ↔
      20 * m ≤ M - m ∨
        cycleTime ≤ m - (M - m) / 20 + widened bits (M - m) + 21 * us ∨
        cycleTime ≤ widened bits (M - m) + 21 * us + transmissionTime bits := by
  have hmM := (h.bounds m h.min_mem (by have := h.min_pos; omega)).2
  have hd : 0 ≤ M - m := by omega
  have hmp := h.min_pos
  have htx : 0 ≤ transmissionTime bits := by rw [transmissionTime_eq]; omega
  rw [Covers.congr_start (fmod_modEq _ _), transmissionTime_slotBits hd hb]
  rcases spread_le_slot hd hb with hw | hlong
  · by_cases hpos : 0 < m - (M - m) / 20
    · rw [covers_zero_iff hpos (by omega) (by omega) (by simp only [us]; omega)]
      rw [widened_eq hd, transmissionTime_eq] at *
      simp only [cycleTime, us]
      omega
    · constructor
      · exact fun _ => Or.inl (by omega)
      · exact fun _ => covers_of_le (by decide) (by omega) (by simp only [us]; omega)
  · exact ⟨fun _ => Or.inr (Or.inr hlong), fun _ => covers_of_cycle_le (by decide) hlong⟩

end Span

/-! ## The result -/

/--
**After an update the reservation covers every held packet exactly when the zeros do no harm.**

`getNewSlotSize` takes an offset of zero for an empty place of the window, so a packet that arrives
right at the start of the cycle is left out of the search.
-/
theorem reservation_covers_iff {c : Int} (hc : 0 ≤ c) (hs : s.Fresh) {ts : List Int}
    (hts : ∀ t ∈ ts, c ≤ t) (hup : ts.length % updateIntervall = 2) :
    ReservationCovers (getCreationTimeOffset c) ts s ↔
      ZeroOffsetHarmless (held (getCreationTimeOffset c) ts) s.originalPacketSize := by
  have hbd := held_bounds hc hts
  obtain ⟨hslot, hstart⟩ := receive_update (getCreationTimeOffset c) hs hup
  rw [ReservationCovers, hslot, hstart]
  -- if all offsets are zero the searches find no span, and the slot starts at zero all the same
  by_cases hz : ∀ a ∈ held (getCreationTimeOffset c) ts, a = 0
  · obtain ⟨he, hl⟩ := search_zeros hz
    rw [he, hl]
    constructor
    · intro _ _ m M hspan
      have := hz m hspan.min_mem
      have := hspan.min_pos
      omega
    · intro _ a ha
      rw [hz a ha]
      exact covers_of_zeros hs.size_nonneg
  · push Not at hz
    have hspan := search_span (fun a ha => (hbd a ha).1) hz
    have hM := (hbd _ hspan.max_mem).2
    have hd := (hspan.bounds _ hspan.min_mem (by have := hspan.min_pos; omega)).2
    rw [adjustment_half (by omega)]
    constructor
    · intro h h0 m M hmM
      obtain ⟨rfl, rfl⟩ := hspan.unique hmM
      exact (covers_zero_iff_harmless hspan hM hs.size_nonneg).mp (h 0 h0)
    · intro h a ha
      by_cases ha0 : a = 0
      · subst ha0
        exact (covers_zero_iff_harmless hspan hM hs.size_nonneg).mpr (h ha _ _ hspan)
      · exact covers_of_ne_zero hspan hs.size_nonneg ha ha0

/-- Arrivals on both sides of the end of the cycle are covered: none has offset zero. -/
theorem reservation_covers_straddling :
    ReservationCovers (getCreationTimeOffset 0) [199 * ms, 201 * ms] (blank 800) :=
  (reservation_covers_iff (by decide) (blank_fresh (by decide)) (by decide) (by decide)).mpr
    fun h0 => absurd h0 (by decide)

/-- Arrivals at offsets 0 and 50 ms: the reserved arc begins at 50 ms and misses the first. -/
theorem reservation_misses_offset_zero :
    (blank 800).Fresh ∧ 800 ≤ maxPacketSize ∧ (∀ t ∈ [100 * ms, 150 * ms], 0 ≤ t) ∧
      [100 * ms, 150 * ms].length % updateIntervall = 2 ∧
      ¬ ReservationCovers (getCreationTimeOffset 0) [100 * ms, 150 * ms] (blank 800) := by
  refine ⟨blank_fresh (by decide), by decide, by decide, by decide, fun h => ?_⟩
  have hx := h 0 (by decide) 0 (by decide) (by decide +kernel)
  exact absurd hx (by decide +kernel)

end TsnStream

end CooperativeTsn
