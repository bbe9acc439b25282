import CooperativeTsn.Stream.Coverage

/-!
# Start times and sizes in the cycle

What a stream asks for after any number of packets. A start time is the earliest offset in the
window, moved back by a twentieth of the spread, and a slot is the spread and a tenth of it, the
allowance and the packet. Neither is held against the cycle: the remainder that should bring the
start time back into it keeps the sign, and the slot may be longer.

* `startTimesInCycle_iff` — when the start times stay in the cycle
* `slots_fit_cycle_iff` — when the slots fit it
-/

namespace CooperativeTsn

open Infra Infra.SimTime

variable {Module : Type}

namespace TsnStream

variable {s : TsnStream Module} {off : Int} {times : List Int}

/-! ## Start times of a stream -/

/-- The last update among the first `n` packets. -/
def lastUpdate (n : Nat) : Nat := n - (n - 2) % updateIntervall

theorem lastUpdate_isUpdate {n : Nat} (hn : 2 ≤ n) :
    lastUpdate n % updateIntervall = 2 ∧ 2 ≤ lastUpdate n ∧ lastUpdate n ≤ n ∧
      ∀ k, lastUpdate n < k → k ≤ n → k % updateIntervall ≠ 2 := by
  simp only [lastUpdate, updateIntervall]
  refine ⟨by omega, by omega, by omega, fun k _ _ => by omega⟩

/-- The earliest offset, moved back by a twentieth of the spread. Zeros are no offsets. -/
def movedBack (offsets : List Int) : Int :=
  earliest offsets - (latest offsets - earliest offsets) / 20

/-- The searches stay among the offsets of a cycle. -/
theorem search_bounds {offsets : List Int} (h : ∀ a ∈ offsets, 0 ≤ a ∧ a < cycleTime) :
    0 ≤ earliest offsets ∧ earliest offsets ≤ latest offsets ∧ latest offsets < cycleTime := by
  by_cases hz : ∀ a ∈ offsets, a = 0
  · obtain ⟨he, hl⟩ := search_zeros hz
    rw [he, hl]
    decide
  · push Not at hz
    have hspan := search_span (fun a ha => (h a ha).1) hz
    have hmin := h _ hspan.min_mem
    have hmax := h _ hspan.max_mem
    have hle := (hspan.bounds _ hspan.min_mem (by have := hspan.min_pos; omega)).2
    exact ⟨hmin.1, hle, hmax.2⟩

/-- The start time after an update. The remainder does nothing to it. -/
theorem receive_startTime (hs : s.Fresh) (hheld : ∀ a ∈ held off times, 0 ≤ a ∧ a < cycleTime)
    (hup : times.length % updateIntervall = 2) :
    (s.receive off times).startTime = movedBack (held off times) ∧
      (s.receive off times).startTime < cycleTime := by
  obtain ⟨hmin, hle, hmax⟩ := search_bounds hheld
  have hstart := (receive_update off hs hup).2
  rw [adjustment_half (by omega)] at hstart
  rw [hstart, movedBack, fmod_eq_self (by omega) (by omega)]
  exact ⟨rfl, by omega⟩

/-- It is not negative iff the earliest offset is late enough for the spread. -/
theorem movedBack_nonneg_iff {offsets : List Int} (h : ∀ a ∈ offsets, 0 ≤ a) :
    0 ≤ movedBack offsets ↔ ∀ m M, IsSpan offsets m M → (M - m) / 20 ≤ m := by
  by_cases hz : ∀ a ∈ offsets, a = 0
  · obtain ⟨he, hl⟩ := search_zeros hz
    rw [movedBack, he, hl]
    refine iff_of_true (by decide) fun m M hspan => ?_
    have := hz m hspan.min_mem
    have := hspan.min_pos
    omega
  · push Not at hz
    have hspan := search_span h hz
    rw [movedBack]
    constructor
    · intro hle m M hmM
      obtain ⟨rfl, rfl⟩ := hspan.unique hmM
      omega
    · intro hle
      have := hle _ _ hspan
      omega

/-- It is positive iff there is an offset, and the earliest is later than that. -/
theorem movedBack_pos_iff {offsets : List Int} (h : ∀ a ∈ offsets, 0 ≤ a) :
    0 < movedBack offsets ↔ ∃ m M, IsSpan offsets m M ∧ (M - m) / 20 < m := by
  by_cases hz : ∀ a ∈ offsets, a = 0
  · obtain ⟨he, hl⟩ := search_zeros hz
    rw [movedBack, he, hl]
    refine iff_of_false (by decide) ?_
    rintro ⟨m, M, hspan, -⟩
    have := hz m hspan.min_mem
    have := hspan.min_pos
    omega
  · push Not at hz
    have hspan := search_span h hz
    rw [movedBack]
    constructor
    · intro hlt
      exact ⟨_, _, hspan, by omega⟩
    · rintro ⟨m, M, hmM, hlt⟩
      obtain ⟨rfl, rfl⟩ := hspan.unique hmM
      omega

/-- After each of the packets the start time lies in the cycle. -/
def StartTimesInCycle (off : Int) (times : List Int) (s : TsnStream Module) : Prop :=
  ∀ n, 0 < n → n ≤ times.length →
    0 ≤ (s.receive off (times.take n)).startTime ∧
      (s.receive off (times.take n)).startTime < cycleTime

/-- The first packet sets the start time to its offset. -/
theorem receive_startTime_first (hs : s.Fresh) {t : Int} :
    (s.receive off [t]).startTime = earliest (held off [t]) := by
  have hw := receive_window off hs [t]
  show earliest ((s.receive off [t]).lastTimePacketArrived) = _
  rw [hw]
  exact Search.search_append_replicate _ _ _ _

/-- **The start times stay in the cycle iff no update moves one out of it.** -/
theorem startTimesInCycle_iff (hs : s.Fresh) (hheld : ∀ n ≤ times.length,
      ∀ a ∈ held off (times.take n), 0 ≤ a ∧ a < cycleTime) :
    StartTimesInCycle off times s ↔ ∀ n ≤ times.length, n % updateIntervall = 2 →
      0 ≤ movedBack (held off (times.take n)) := by
  have hupdate : ∀ n ≤ times.length, n % updateIntervall = 2 →
      (s.receive off (times.take n)).startTime = movedBack (held off (times.take n)) ∧
        (s.receive off (times.take n)).startTime < cycleTime := by
    intro n hn hup
    refine receive_startTime hs (hheld n hn) ?_
    rwa [List.length_take, Nat.min_eq_left hn]
  constructor
  · intro h n hn hup
    have hpos : 0 < n := by
      rcases Nat.eq_zero_or_pos n with rfl | hpos
      · exact absurd hup (by decide)
      · exact hpos
    rw [← (hupdate n hn hup).1]
    exact (h n hpos hn).1
  · intro h n hpos hn
    -- from the second packet on the start time is that of the last update; before it there is only
    -- the first offset
    by_cases h2 : 2 ≤ n
    · obtain ⟨hup, hle, hlen, hno⟩ := lastUpdate_isUpdate h2
      rw [(receive_steady hs (by omega) hlen hn hno).1]
      obtain ⟨hstart, hlt⟩ := hupdate _ (by omega) hup
      refine ⟨?_, hlt⟩
      rw [hstart]
      exact h _ (by omega) hup
    · obtain rfl : n = 1 := by omega
      obtain ⟨t, rest, rfl⟩ := List.exists_cons_of_length_pos (l := times) (by omega)
      have hbounds := search_bounds (hheld 1 hn)
      show 0 ≤ (s.receive off [t]).startTime ∧ (s.receive off [t]).startTime < cycleTime
      rw [receive_startTime_first hs]
      exact ⟨hbounds.1, by have := hbounds.2; exact Int.lt_of_le_of_lt this.1 this.2⟩

/-! ## Slots -/

/-- What a cycle leaves for the spread, the allowance and the packet taken off. The packet counts
without its shortfall. -/
def roomForSpread (bits : Int) : Int :=
  cycleTime - 21 * us - transmissionTime bits + shortfall bits * ns

/-- The rounding to whole bits lets the spread and its tenth exceed the room by a nanosecond. -/
theorem widened_le_iff {d bits : Int} (hd : 0 ≤ d) :
    widened bits d + 21 * us + transmissionTime bits ≤ cycleTime ↔
      11 * d < 10 * (roomForSpread bits + ns) := by
  rw [widened_eq hd, roomForSpread, transmissionTime_eq]
  simp only [cycleTime, us, ns]
  omega

theorem transmissionTime_slotBits_le_iff {d bits : Int} (hd : 0 ≤ d) (hb : 0 ≤ bits) :
    transmissionTime (slotBits d bits) ≤ cycleTime ↔
      11 * d < 10 * (roomForSpread bits + ns) := by
  rw [← widened_le_iff hd, transmissionTime_slotBits hd hb]

/-- A packet on its own fits. -/
theorem roomForSpread_pos {bits : Int} (hb : 0 ≤ bits) (hsize : bits ≤ maxPacketSize) :
    0 < roomForSpread bits := by
  have hshort := (shortfall_bounds hb (le_of_maxPacketSize hsize)).1
  rw [roomForSpread, transmissionTime_eq]
  simp only [maxPacketSize, cycleTime, us, ns] at *
  omega

/-- After each packet from the first update on the requested slot fits the cycle. -/
def SlotsFitCycle (off : Int) (times : List Int) (s : TsnStream Module) : Prop :=
  ∀ n, 2 ≤ n → n ≤ times.length →
    transmissionTime (s.receive off (times.take n)).packetSize ≤ cycleTime

/-- The slot after an update, in terms of the span of the offsets. -/
theorem slot_fits_iff (hs : s.Fresh) (hsize : s.originalPacketSize ≤ maxPacketSize)
    (hheld : ∀ a ∈ held off times, 0 ≤ a ∧ a < cycleTime)
    (hup : times.length % updateIntervall = 2) :
    transmissionTime (s.receive off times).packetSize ≤ cycleTime ↔
      ∀ m M, IsSpan (held off times) m M →
        11 * (M - m) < 10 * (roomForSpread s.originalPacketSize + ns) := by
  obtain ⟨-, hle, -⟩ := search_bounds hheld
  rw [(receive_update off hs hup).1, transmissionTime_slotBits_le_iff (by omega) hs.size_nonneg]
  by_cases hz : ∀ a ∈ held off times, a = 0
  · obtain ⟨he, hl⟩ := search_zeros hz
    have hroom := roomForSpread_pos hs.size_nonneg hsize
    rw [he, hl]
    refine iff_of_true (by simp only [ns]; omega) fun m M hspan => ?_
    have := hz m hspan.min_mem
    have := hspan.min_pos
    omega
  · push Not at hz
    have hspan := search_span (fun a ha => (hheld a ha).1) hz
    constructor
    · intro h m M hmM
      obtain ⟨rfl, rfl⟩ := hspan.unique hmM
      exact h
    · intro h
      exact h _ _ hspan

/--
**The requested slots fit the cycle exactly when** at every update the spread and a tenth of it
leave room for the allowance and the packet.
-/
theorem slots_fit_cycle_iff {c : Int} (hc : 0 ≤ c) (hs : s.Fresh)
    (hsize : s.originalPacketSize ≤ maxPacketSize) (htimes : ∀ t ∈ times, c ≤ t) :
    SlotsFitCycle (getCreationTimeOffset c) times s ↔
      ∀ n ≤ times.length, n % updateIntervall = 2 → ∀ m M,
        IsSpan (held (getCreationTimeOffset c) (times.take n)) m M →
          11 * (M - m) < 10 * (roomForSpread s.originalPacketSize + ns) := by
  have hslot : ∀ n ≤ times.length, n % updateIntervall = 2 →
      (transmissionTime (s.receive (getCreationTimeOffset c) (times.take n)).packetSize ≤
          cycleTime ↔ ∀ m M, IsSpan (held (getCreationTimeOffset c) (times.take n)) m M →
          11 * (M - m) < 10 * (roomForSpread s.originalPacketSize + ns)) := by
    intro n hn hup
    refine slot_fits_iff hs hsize (held_bounds hc fun t ht => htimes t (List.mem_of_mem_take ht)) ?_
    rwa [List.length_take, Nat.min_eq_left hn]
  constructor
  · intro h n hn hup
    have h2 : 2 ≤ n := by
      simp only [updateIntervall] at hup
      omega
    exact (hslot n hn hup).mp (h n h2 hn)
  · intro h n h2 hn
    obtain ⟨hup, hle, hlen, hno⟩ := lastUpdate_isUpdate h2
    rw [(receive_steady hs (by omega) hlen hn hno).2]
    exact (hslot _ (by omega) hup).mpr (h _ (by omega) hup)

/-- Arrivals at 1 ms and 50 ms leave room for a packet of 100 bytes. -/
theorem slots_fit_cycle_half :
    SlotsFitCycle (getCreationTimeOffset 0) [1 * ms, 50 * ms] (blank 800) := by
  refine (slots_fit_cycle_iff (by decide) (blank_fresh (by decide)) (by decide) (by decide)).mpr ?_
  intro n hn hup m M hmM
  obtain rfl : n = 2 := by
    simp only [List.length_cons, List.length_nil, updateIntervall] at hn hup
    omega
  have hspan : IsSpan (held (getCreationTimeOffset 0) [1 * ms, 50 * ms]) (1 * ms) (50 * ms) :=
    ⟨by decide, by decide, by decide, by decide, by decide⟩
  obtain ⟨rfl, rfl⟩ := hmM.unique hspan
  decide +kernel

/-- Packets at 99 ms and 101 ms, around the end of the cycle: the slot takes 107.829 ms. -/
theorem slot_exceeds_cycle :
    (blank 800).Fresh ∧ 800 ≤ maxPacketSize ∧ (∀ t ∈ [99 * ms, 101 * ms], 0 ≤ t) ∧
      ¬ SlotsFitCycle (getCreationTimeOffset 0) [99 * ms, 101 * ms] (blank 800) := by
  refine ⟨blank_fresh (by decide), by decide, by decide, fun h => ?_⟩
  exact absurd (h 2 (by decide) (by decide)) (by decide +kernel)

end TsnStream

end CooperativeTsn
