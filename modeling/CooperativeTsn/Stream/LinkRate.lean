import CooperativeTsn.Stream.Coverage
import Mathlib.Algebra.Order.Field.Rat
import Mathlib.Tactic.Linarith
import Mathlib.Tactic.Ring

/-!
# Reservations and the rate of the link

`DynSchedForwardingApplication` reads a parameter `dataRate`. A stream has a member of the same name
that is never assigned, so the bits of a slot are always counted for 100 Mbit/s. On a faster link
they are through sooner.

* `slot_lasts_iff` — when a slot lasts long enough at another rate
* `slot_lasts_of_le` — it does up to 110 Mbit/s
* `slots_last_iff` — when all slots of a stream do
-/

namespace CooperativeTsn

open Infra Infra.SimTime

namespace TsnStream

variable {Module : Type} {s : TsnStream Module} {off : Int} {rate : Rat}

/-! ## One slot -/

/-- How long `bits` occupy a link of `rate` Mbit/s, in picoseconds. -/
def timeAt (rate : Rat) (bits : Int) : Rat := bits * 1000000 / rate

/-- The bits of a slot beyond those of the packet, in terms of the widened spread. -/
theorem slotBits_sub {d bits : Int} (hd : 0 ≤ d) (hb : 0 ≤ bits) :
    (slotBits d bits - bits) * 10000 = widened bits d + 21 * us := by
  have h := transmissionTime_slotBits hd hb
  rw [transmissionTime_eq, transmissionTime_eq] at h
  omega

/-- **A slot lasts for the spread and the packet iff** at this rate the widened spread and the
allowance do for the spread. -/
theorem slot_lasts_iff (hrate : 0 < rate) {d bits : Int} (hd : 0 ≤ d) (hb : 0 ≤ bits) :
    (d : Rat) + timeAt rate bits ≤ timeAt rate (slotBits d bits) ↔
      rate * d ≤ 100 * (widened bits d + 21 * us : Int) := by
  rw [← slotBits_sub hd hb, timeAt, timeAt, ← le_sub_iff_add_le, ← sub_div, le_div_iff₀ hrate]
  push_cast
  constructor <;> intro h <;> linarith

/-- The tenth that is added to the spread is enough for a tenth more of the rate. -/
theorem slot_lasts_of_le (hrate : rate ≤ 110) {d bits : Int} (hd : 0 ≤ d) (hb : 0 ≤ bits)
    (hsize : bits ≤ maxPacketSize) :
    rate * d ≤ 100 * (widened bits d + 21 * us : Int) := by
  have hwidened := le_widened hd hb (le_of_maxPacketSize hsize)
  have hint : 110 * d ≤ 100 * (widened bits d + 21 * us) := by
    simp only [us]
    omega
  have hcast : (110 : Rat) * d ≤ 100 * (widened bits d + 21 * us : Int) := by exact_mod_cast hint
  have hd' : (0 : Rat) ≤ d := by exact_mod_cast hd
  calc rate * d ≤ 110 * d := mul_le_mul_of_nonneg_right hrate hd'
    _ ≤ 100 * (widened bits d + 21 * us : Int) := hcast

/-! ## All slots of a stream -/

/--
After every update the requested bits, sent at the rate, last at least for the spread of the offsets
and the original packet.
-/
def SlotsLast (rate : Rat) (off : Int) (times : List Int) (s : TsnStream Module) : Prop :=
  ∀ n ≤ times.length, n % updateIntervall = 2 → ∀ m M, IsSpan (held off (times.take n)) m M →
    ((M - m : Int) : Rat) + timeAt rate s.originalPacketSize ≤
      timeAt rate (s.receive off (times.take n)).packetSize

/-- The slot after an update, in terms of the span of the offsets. -/
theorem packetSize_of_span {c : Int} (hc : 0 ≤ c) (hs : s.Fresh) {times : List Int}
    (htimes : ∀ t ∈ times, c ≤ t) {n : Nat} (hn : n ≤ times.length)
    (hup : n % updateIntervall = 2) {m M : Int}
    (hspan : IsSpan (held (getCreationTimeOffset c) (times.take n)) m M) :
    0 ≤ M - m ∧ (s.receive (getCreationTimeOffset c) (times.take n)).packetSize =
      slotBits (M - m) s.originalPacketSize := by
  have hpos := hspan.min_pos
  have hheld := held_bounds hc fun t ht => htimes t (List.mem_of_mem_take (i := n) ht)
  have hlength : (times.take n).length % updateIntervall = 2 := by
    rwa [List.length_take, Nat.min_eq_left hn]
  obtain ⟨hm, hM⟩ := hspan.unique
    (search_span (fun a ha => (hheld a ha).1) ⟨m, hspan.min_mem, by omega⟩)
  have hle := (hspan.bounds m hspan.min_mem (by omega)).2
  refine ⟨by omega, ?_⟩
  rw [(receive_update _ hs hlength).1, ← hm, ← hM]

/-- **The slots of a stream last at the configured rate iff** at every update the rate lets the
widened spread and the allowance do for the spread. -/
theorem slots_last_iff (hrate : 0 < rate) {c : Int} (hc : 0 ≤ c) (hs : s.Fresh) {times : List Int}
    (htimes : ∀ t ∈ times, c ≤ t) :
    SlotsLast rate (getCreationTimeOffset c) times s ↔
      ∀ n ≤ times.length, n % updateIntervall = 2 → ∀ m M,
        IsSpan (held (getCreationTimeOffset c) (times.take n)) m M →
          rate * (M - m : Int) ≤
            100 * (widened s.originalPacketSize (M - m) + 21 * us : Int) := by
  refine forall_congr' fun n => forall_congr' fun hn => forall_congr' fun hup =>
    forall_congr' fun m => forall_congr' fun M => forall_congr' fun hspan => ?_
  obtain ⟨hle, hsize⟩ := packetSize_of_span hc hs htimes hn hup hspan
  rw [hsize]
  exact slot_lasts_iff hrate hle hs.size_nonneg

/-- At the rate that streams assume, arrivals at 10 ms and 20 ms. -/
theorem slots_last_usual :
    SlotsLast 100 (getCreationTimeOffset 0) [10 * ms, 20 * ms] (blank 800) := by
  refine (slots_last_iff (by norm_num) (by decide) (blank_fresh (by decide)) (by decide)).mpr ?_
  intro n hn hup m M hspan
  have hle := (packetSize_of_span (s := blank 800) (by decide) (blank_fresh (by decide))
    (by decide) hn hup hspan).1
  exact slot_lasts_of_le (by norm_num) hle (by decide) (by decide)

/-- The same arrivals at 1 Gbit/s: the slot is through after 1.1029 ms. -/
theorem slot_short_at_gigabit :
    (∀ t ∈ [10 * ms, 20 * ms], arrivalOffset (getCreationTimeOffset 0) t ≠ 0) ∧
      timeAt 1000 ((blank 800).receive (getCreationTimeOffset 0) [10 * ms, 20 * ms]).packetSize =
        1102900000 ∧
      ¬ SlotsLast 1000 (getCreationTimeOffset 0) [10 * ms, 20 * ms] (blank 800) := by
  have hsize : ((blank 800).receive (getCreationTimeOffset 0) [10 * ms, 20 * ms]).packetSize =
      1102900 := by decide +kernel
  have htime : timeAt 1000 1102900 = 1102900000 := by norm_num [timeAt]
  have hspan : IsSpan (held (getCreationTimeOffset 0) [10 * ms, 20 * ms]) (10 * ms) (20 * ms) :=
    ⟨by decide, by decide, by decide, by decide, by decide⟩
  refine ⟨by decide, by rw [hsize, htime], fun h => ?_⟩
  have hlast := h 2 (by decide) (by decide) _ _ hspan
  have hslot : ((blank 800).receive (getCreationTimeOffset 0)
      ([10 * ms, 20 * ms].take 2)).packetSize = 1102900 := hsize
  rw [hslot, htime] at hlast
  norm_num [timeAt, ms, blank] at hlast

/-- **Up to 110 Mbit/s the slots of every stream last.** -/
theorem slotsLast_of_le (hpos : 0 < rate) (hrate : rate ≤ 110) {c : Int} (hc : 0 ≤ c)
    (hs : s.Fresh) (hsize : s.originalPacketSize ≤ maxPacketSize) {times : List Int}
    (htimes : ∀ t ∈ times, c ≤ t) : SlotsLast rate (getCreationTimeOffset c) times s := by
  intro n hn hup m M hspan
  obtain ⟨hle, hslot⟩ := packetSize_of_span hc hs htimes hn hup hspan
  rw [hslot]
  exact (slot_lasts_iff hpos hle hs.size_nonneg).mpr
    (slot_lasts_of_le hrate hle hs.size_nonneg hsize)

end TsnStream

end CooperativeTsn
