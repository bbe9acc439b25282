import CooperativeTsn.Stream.Coverage

/-!
# Two runs whose arrivals differ by a shift

Moving all arrivals of a run by the same time should move the reservation by that time round the
cycle. `getNewSlotSize` compares offsets on the line from 0 to the end of the cycle, so it does so
only as long as the shift keeps the held arrivals on one side of the end.

* `held_shift` — the window of the shifted run
* `update_congr` — size and start time determine the spread and the first arrival
* `shift_equivariant_iff` — the exact condition
-/

namespace CooperativeTsn

open Infra Infra.SimTime

namespace TsnStream

variable {Module : Type} {s : TsnStream Module} {off d : Int}

/-! ## The shifted window -/

/-- An offset of the shifted run. -/
def shiftOffset (d a : Int) : Int := (a + d) % cycleTime

theorem arrivalOffset_add {t : Int} (hoff : off ≤ 100 * sec) (ht : 0 ≤ t) (hd : 0 ≤ d)
    (hdvd : ns ∣ d) : arrivalOffset off (t + d) = shiftOffset d (arrivalOffset off t) := by
  obtain ⟨h0, h1⟩ := arrivalOffset_bounds (t := t + d) hoff (by omega)
  have htr : trunc ns (t + d) - off = trunc ns t - off + d := by
    rw [trunc_add (by decide) ht hd hdvd]; omega
  have hmod : arrivalOffset off (t + d) ≡ arrivalOffset off t + d [ZMOD cycleTime] := by
    have h2 := arrivalOffset_modEq off (t + d)
    rw [htr] at h2
    exact h2.trans ((arrivalOffset_modEq off t).symm.add_right d)
  rw [shiftOffset, ← hmod, Int.emod_eq_of_lt h0 h1]

theorem held_shift {ts : List Int} (hoff : off ≤ 100 * sec) (hts : ∀ t ∈ ts, 0 ≤ t) (hd : 0 ≤ d)
    (hdvd : ns ∣ d) : held off (ts.map (· + d)) = (held off ts).map (shiftOffset d) := by
  rw [held, held, List.map_take, ← List.map_reverse, List.map_map, List.map_map]
  congr 1
  refine List.map_congr_left fun t ht => ?_
  exact arrivalOffset_add hoff (hts t (List.mem_reverse.mp ht)) hd hdvd

theorem shiftOffset_bounds (d a : Int) : 0 ≤ shiftOffset d a ∧ shiftOffset d a < cycleTime :=
  ⟨Int.emod_nonneg _ (by decide), Int.emod_lt_of_pos _ (by decide)⟩

theorem shiftOffset_modEq (d a : Int) : shiftOffset d a ≡ a + d [ZMOD cycleTime] :=
  Int.mod_modEq _ _

/-- Inside the cycle a shift either stays or wraps once. -/
theorem shiftOffset_cases {a : Int} (h0 : 0 ≤ a) (h1 : a < cycleTime) :
    a + d % cycleTime < cycleTime ∧ shiftOffset d a = a + d % cycleTime ∨
      cycleTime ≤ a + d % cycleTime ∧ shiftOffset d a = a + d % cycleTime - cycleTime := by
  simp only [shiftOffset, cycleTime] at *
  omega

theorem shiftOffset_injOn {a b : Int} (ha : 0 ≤ a ∧ a < cycleTime) (hb : 0 ≤ b ∧ b < cycleTime)
    (h : shiftOffset d a ≡ b + d [ZMOD cycleTime]) : a = b := by
  have hab : a ≡ b [ZMOD cycleTime] := ((shiftOffset_modEq d a).symm.trans h).add_right_cancel'
  have : a % cycleTime = b % cycleTime := hab
  rwa [Int.emod_eq_of_lt ha.1 ha.2, Int.emod_eq_of_lt hb.1 hb.2] at this

/-! ## What an update reveals -/

/--
Equal sizes leave the spread open by less than ten nanoseconds. The start time moves by a twentieth
of the spread, so on whole nanoseconds it fixes the rest.
-/
theorem update_congr {m D m' D' bits : Int} (hD : 0 ≤ D) (hD' : 0 ≤ D') (hb : 0 ≤ bits)
    (nD : ns ∣ D) (nD' : ns ∣ D') (nm : ns ∣ m) (nm' : ns ∣ m') (nd : ns ∣ d) :
    (slotBits D' bits = slotBits D bits ∧
        fmod (m' - D' / 20) cycleTime ≡ fmod (m - D / 20) cycleTime + d [ZMOD cycleTime]) ↔
      D' = D ∧ m' ≡ m + d [ZMOD cycleTime] := by
  have hmod : (fmod (m' - D' / 20) cycleTime ≡ fmod (m - D / 20) cycleTime + d [ZMOD cycleTime]) ↔
      m' - D' / 20 ≡ m - D / 20 + d [ZMOD cycleTime] :=
    ⟨fun h => (fmod_modEq _ _).symm.trans (h.trans ((fmod_modEq _ _).add_right d)),
      fun h => (fmod_modEq _ _).trans (h.trans ((fmod_modEq _ _).symm.add_right d))⟩
  rw [hmod]
  constructor
  · rintro ⟨hsize, hstart⟩
    have hw : widened bits D' = widened bits D := by
      have h := congrArg transmissionTime hsize
      rw [transmissionTime_slotBits hD' hb, transmissionTime_slotBits hD hb] at h
      omega
    rw [widened_eq hD', widened_eq hD] at hw
    -- spreads of equal widening differ by less than ten nanoseconds, whole ones by none
    obtain ⟨j, hj⟩ := Int.modEq_iff_dvd.mp hstart
    have hDD : D' = D := by
      simp only [cycleTime, ns] at *
      omega
    refine ⟨hDD, ?_⟩
    subst hDD
    exact Int.modEq_iff_dvd.mpr ⟨j, by omega⟩
  · rintro ⟨rfl, h⟩
    refine ⟨rfl, ?_⟩
    have := h.sub_right (D' / 20)
    rwa [show m + d - D' / 20 = m - D' / 20 + d by omega] at this

/-! ## The searches of both runs -/

/--
The shift keeps its hands off the end of the cycle: it is a whole number of cycles, or there is only
one offset to move, or no offset is zero and either none or all of them are carried strictly past
the end.
-/
def ShiftKeepsOrder (times : List Int) (d : Int) : Prop :=
  cycleTime ∣ d ∨ (∀ a ∈ times, ∀ b ∈ times, a = b) ∨
    0 ∉ times ∧ ((∀ a ∈ times, a + d % cycleTime < cycleTime) ∨
      (∀ a ∈ times, cycleTime < a + d % cycleTime))

theorem search_const {l : List Int} {x : Int} (hx : 0 ≤ x) (hne : l ≠ []) (hl : ∀ a ∈ l, a = x) :
    earliest l = x ∧ latest l = x := by
  by_cases h0 : x = 0
  · subst h0
    exact search_zeros hl
  · obtain ⟨a, ha⟩ := List.exists_mem_of_ne_nil l hne
    have hspan := search_span (fun b hb => by rw [hl b hb]; exact hx) ⟨a, ha, by rw [hl a ha]; exact h0⟩
    exact ⟨hl _ hspan.min_mem, hl _ hspan.max_mem⟩

section

variable {times : List Int}

/-- A shift that moves all offsets by the same amount on the line moves the span with them. -/
theorem IsSpan.map_shift {m M e : Int} (h : IsSpan times m M) (h0 : 0 ∉ times)
    (he : ∀ a ∈ times, shiftOffset d a = a + e ∧ 0 < a + e) :
    IsSpan (times.map (shiftOffset d)) (m + e) (M + e) where
  min_mem := List.mem_map.mpr ⟨m, h.min_mem, (he m h.min_mem).1⟩
  max_mem := List.mem_map.mpr ⟨M, h.max_mem, (he M h.max_mem).1⟩
  min_pos := (he m h.min_mem).2
  max_pos := (he M h.max_mem).2
  bounds := by
    intro b hb _
    obtain ⟨a, ha, rfl⟩ := List.mem_map.mp hb
    have hab := h.bounds a ha fun h => h0 (h ▸ ha)
    rw [(he a ha).1]
    omega

variable (hbd : ∀ a ∈ times, 0 ≤ a ∧ a < cycleTime)
include hbd

theorem search_shift_of_keepsOrder (hne : times ≠ []) (h : ShiftKeepsOrder times d) :
    latest (times.map (shiftOffset d)) - earliest (times.map (shiftOffset d))
        = latest times - earliest times ∧
      earliest (times.map (shiftOffset d)) ≡ earliest times + d [ZMOD cycleTime] := by
  -- whole cycles, a single offset, or one side of the end of the cycle for all offsets
  rcases h with ⟨k, rfl⟩ | hall | ⟨h0, hside⟩
  · have hid : times.map (shiftOffset (cycleTime * k)) = times := by
      refine (List.map_congr_left fun a ha => ?_).trans (List.map_id _)
      rw [shiftOffset, Int.add_mul_emod_self_left, Int.emod_eq_of_lt (hbd a ha).1 (hbd a ha).2]
      rfl
    rw [hid]
    exact ⟨rfl, Int.modEq_iff_dvd.mpr ⟨k, by omega⟩⟩
  · obtain ⟨a, ha⟩ := List.exists_mem_of_ne_nil times hne
    obtain ⟨h1, h2⟩ := search_const (hbd a ha).1 hne fun b hb => hall b hb a ha
    obtain ⟨h3, h4⟩ := search_const (l := times.map (shiftOffset d)) (shiftOffset_bounds d a).1
      (by simpa using hne) fun b hb => by
        obtain ⟨c, hc, rfl⟩ := List.mem_map.mp hb
        rw [hall c hc a ha]
    rw [h1, h2, h3, h4]
    exact ⟨by omega, shiftOffset_modEq d a⟩
  · obtain ⟨a, ha⟩ := List.exists_mem_of_ne_nil times hne
    have hspan := search_span (fun b hb => (hbd b hb).1) ⟨a, ha, fun h => h0 (h ▸ ha)⟩
    obtain ⟨e, he, hed⟩ : ∃ e, (∀ a ∈ times, shiftOffset d a = a + e ∧ 0 < a + e) ∧
        e ≡ d [ZMOD cycleTime] := by
      -- on one side the shift adds the same amount to all of them, on the other a cycle less
      rcases hside with hside | hside
      · refine ⟨d % cycleTime, fun b hb => ?_, Int.mod_modEq _ _⟩
        have hb0 : b ≠ 0 := fun h => h0 (h ▸ hb)
        have hdn : 0 ≤ d % cycleTime := Int.emod_nonneg _ (by decide)
        rcases shiftOffset_cases (d := d) (hbd b hb).1 (hbd b hb).2 with h | h
        · have := (hbd b hb).1
          exact ⟨h.2, by omega⟩
        · have := hside b hb
          omega
      · refine ⟨d % cycleTime - cycleTime, fun b hb => ?_, ?_⟩
        · have := hside b hb
          rcases shiftOffset_cases (d := d) (hbd b hb).1 (hbd b hb).2 with h | h
          · omega
          · exact ⟨by omega, by omega⟩
        · exact (Int.modEq_iff_dvd.mpr ⟨1, by omega⟩).trans (Int.mod_modEq d cycleTime)
    have hne' : ∃ b ∈ times.map (shiftOffset d), b ≠ 0 :=
      ⟨_, List.mem_map.mpr ⟨a, ha, rfl⟩, by have := he a ha; omega⟩
    have hspan' := search_span (l := times.map (shiftOffset d)) (fun b hb => by
      obtain ⟨c, hc, rfl⟩ := List.mem_map.mp hb
      exact (shiftOffset_bounds d c).1) hne'
    obtain ⟨h1, h2⟩ := hspan'.unique (hspan.map_shift h0 he)
    rw [h1, h2]
    exact ⟨by omega, hed.add_left _⟩

/-- Conversely the searches can only agree when the shift keeps the order. -/
theorem keepsOrder_of_search_shift
    (hspread : latest (times.map (shiftOffset d)) - earliest (times.map (shiftOffset d))
        = latest times - earliest times)
    (hfirst : earliest (times.map (shiftOffset d)) ≡ earliest times + d [ZMOD cycleTime]) :
    ShiftKeepsOrder times d := by
  by_cases hdvd : cycleTime ∣ d
  · exact Or.inl hdvd
  by_cases hall : ∀ a ∈ times, ∀ b ∈ times, a = b
  · exact Or.inr (Or.inl hall)
  refine Or.inr (Or.inr ?_)
  have hdpos : 0 < d % cycleTime := by
    have h1 : 0 ≤ d % cycleTime := Int.emod_nonneg _ (by decide)
    have h2 : d % cycleTime ≠ 0 := fun h => hdvd (Int.dvd_of_emod_eq_zero h)
    omega
  push Not at hall
  obtain ⟨a, ha, b, hb, hab⟩ := hall
  have hne : ∃ x ∈ times, x ≠ 0 := by
    by_cases ha0 : a = 0
    · exact ⟨b, hb, fun hb0 => hab (ha0.trans hb0.symm)⟩
    · exact ⟨a, ha, ha0⟩
  have hne' : ∃ x ∈ times.map (shiftOffset d), x ≠ 0 := by
    by_cases ha0 : shiftOffset d a = 0
    · refine ⟨_, List.mem_map.mpr ⟨b, hb, rfl⟩, fun hb0 => hab ?_⟩
      refine shiftOffset_injOn (d := d) (hbd a ha) (hbd b hb) ?_
      rw [ha0, ← hb0]
      exact shiftOffset_modEq d b
    · exact ⟨_, List.mem_map.mpr ⟨a, ha, rfl⟩, ha0⟩
  have hspan := search_span (fun x hx => (hbd x hx).1) hne
  have hspan' := search_span (l := times.map (shiftOffset d)) (fun x hx => by
    obtain ⟨y, _, rfl⟩ := List.mem_map.mp hx
    exact (shiftOffset_bounds d y).1) hne'
  have hlast : latest (times.map (shiftOffset d)) ≡ latest times + d [ZMOD cycleTime] := by
    have := hfirst.add_right (latest times - earliest times)
    rwa [← hspread, show earliest (times.map (shiftOffset d)) + (latest (times.map (shiftOffset d))
      - earliest (times.map (shiftOffset d))) = latest (times.map (shiftOffset d)) by omega,
      hspread, show earliest times + d + (latest times - earliest times) = latest times + d by omega]
      at this
  revert hspan hspan' hfirst hlast
  generalize earliest times = m, latest times = M
  generalize earliest (times.map (shiftOffset d)) = m', latest (times.map (shiftOffset d)) = M'
  intro hfirst hspan hspan' hlast
  -- the shifted run finds the images of the two arrivals that the first run finds
  have hm : m' = shiftOffset d m := by
    obtain ⟨x, hx, rfl⟩ := List.mem_map.mp hspan'.min_mem
    rw [shiftOffset_injOn (hbd x hx) (hbd m hspan.min_mem) hfirst]
  have hM : M' = shiftOffset d M := by
    obtain ⟨x, hx, rfl⟩ := List.mem_map.mp hspan'.max_mem
    rw [shiftOffset_injOn (hbd x hx) (hbd M hspan.max_mem) hlast]
  have hcm := shiftOffset_cases (d := d) (hbd m hspan.min_mem).1 (hbd m hspan.min_mem).2
  have hcM := shiftOffset_cases (d := d) (hbd M hspan.max_mem).1 (hbd M hspan.max_mem).2
  have hmM := (hspan.bounds m hspan.min_mem (by have := hspan.min_pos; omega)).2
  have hmM' := (hspan'.bounds m' hspan'.min_mem (by have := hspan'.min_pos; omega)).2
  have hMc := (hbd M hspan.max_mem).2
  have hmpos := hspan.min_pos
  have hmpos' := hspan'.min_pos
  have h0 : 0 ∉ times := by
    intro h0
    have hd0 : shiftOffset d 0 = d % cycleTime := by rw [shiftOffset, Int.zero_add]
    have := hspan'.bounds _ (List.mem_map.mpr ⟨0, h0, rfl⟩) (by omega)
    omega
  refine ⟨h0, ?_⟩
  by_cases hside : M + d % cycleTime < cycleTime
  · refine Or.inl fun x hx => ?_
    have := (hspan.bounds x hx fun h => h0 (h ▸ hx)).2
    omega
  · refine Or.inr fun x hx => ?_
    have := (hspan.bounds x hx fun h => h0 (h ▸ hx)).1
    omega

end

/-! ## The result -/

theorem search_spread {l : List Int} (hl : ∀ a ∈ l, 0 ≤ a) (hns : ∀ a ∈ l, ns ∣ a) :
    0 ≤ latest l - earliest l ∧ ns ∣ earliest l ∧ ns ∣ latest l - earliest l := by
  by_cases hz : ∀ a ∈ l, a = 0
  · obtain ⟨he, hla⟩ := search_zeros hz
    rw [he, hla]
    exact ⟨by omega, Int.dvd_zero _, Int.dvd_zero _⟩
  · push Not at hz
    have hspan := search_span hl hz
    have hle := (hspan.bounds _ hspan.min_mem (by have := hspan.min_pos; omega)).2
    have hm := hns _ hspan.min_mem
    exact ⟨by omega, hm, Int.dvd_sub (hns _ hspan.max_mem) hm⟩

/-- The shifted run asks for the same size, at the start time moved by the shift. -/
def ShiftEquivariant (off : Int) (ts : List Int) (d : Int) (s : TsnStream Module) : Prop :=
  (s.receive off (ts.map (· + d))).packetSize = (s.receive off ts).packetSize ∧
    (s.receive off (ts.map (· + d))).startTime
      ≡ (s.receive off ts).startTime + d [ZMOD cycleTime]

/-- **At an update the two runs agree exactly when the shift keeps the order of the held arrivals.** -/
theorem shift_equivariant_iff {c : Int} (hc : 0 ≤ c) (hs : s.Fresh) {ts : List Int}
    (hts : ∀ t ∈ ts, c ≤ t) (hup : ts.length % updateIntervall = 2) (hd : 0 ≤ d) (hdvd : ns ∣ d) :
    ShiftEquivariant (getCreationTimeOffset c) ts d s ↔
      ShiftKeepsOrder (held (getCreationTimeOffset c) ts) d := by
  have hoff := (getCreationTimeOffset_bounds hc).2
  have hbd := held_bounds hc hts
  have hns : ∀ a ∈ held (getCreationTimeOffset c) ts, ns ∣ a := by
    intro a ha
    obtain ⟨t, _, rfl⟩ := mem_held ha
    exact ns_dvd_arrivalOffset (ns_dvd_getCreationTimeOffset c) t
  have hne : held (getCreationTimeOffset c) ts ≠ [] := by
    cases ts with
    | nil => exact absurd hup (by decide)
    | cons t us => simp [held, queueSize]
  have hshift : held (getCreationTimeOffset c) (ts.map (· + d)) =
      (held (getCreationTimeOffset c) ts).map (shiftOffset d) := held_shift
    (by simp only [cycleTime, sec] at *; omega) (fun t ht => by have := hts t ht; omega) hd hdvd
  obtain ⟨hsize, hstart⟩ := receive_update (getCreationTimeOffset c) hs hup
  obtain ⟨hsize', hstart'⟩ := receive_update (getCreationTimeOffset c) hs
    (by rwa [List.length_map] : (ts.map (· + d)).length % updateIntervall = 2)
  -- spread and first offset of both runs, all on whole nanoseconds, as `update_congr` needs them
  obtain ⟨h1, h2, h3⟩ := search_spread (fun a ha => (hbd a ha).1) hns
  obtain ⟨h4, h5, h6⟩ := search_spread
    (l := (held (getCreationTimeOffset c) ts).map (shiftOffset d))
    (fun a ha => by
      obtain ⟨b, _, rfl⟩ := List.mem_map.mp ha
      exact (shiftOffset_bounds d b).1)
    (fun a ha => by
      obtain ⟨b, hb, rfl⟩ := List.mem_map.mp ha
      rw [shiftOffset, Int.emod_def]
      exact Int.dvd_sub (Int.dvd_add (hns b hb) hdvd)
        (Int.dvd_mul_of_dvd_left ⟨100000000, by decide⟩))
  rw [hshift] at hsize' hstart'
  rw [adjustment_half h1] at hstart
  rw [adjustment_half h4] at hstart'
  rw [ShiftEquivariant, hsize, hstart, hsize', hstart',
    update_congr h1 h4 hs.size_nonneg h3 h6 h2 h5 hdvd]
  exact ⟨fun h => keepsOrder_of_search_shift hbd h.1 h.2, search_shift_of_keepsOrder hbd hne⟩

/-- A cluster that the shift moves inside the cycle moves its reservation along. -/
theorem shift_equivariant_inside :
    ShiftEquivariant (getCreationTimeOffset 0) [110 * ms, 112 * ms] (3 * ms) (blank 800) :=
  (shift_equivariant_iff (by decide) (blank_fresh (by decide)) (by decide) (by decide) (by decide)
    (by decide)).mpr (Or.inr (Or.inr ⟨by decide, Or.inl (by decide)⟩))

/-- Arrivals at 97 and 99 ms, moved by 2 ms: the second one meets the end of the cycle. -/
theorem shift_breaks_straddling :
    (blank 800).Fresh ∧ (∀ t ∈ [97 * ms, 99 * ms], 0 ≤ t) ∧
      [97 * ms, 99 * ms].length % updateIntervall = 2 ∧ 0 ≤ 2 * ms ∧ ns ∣ 2 * ms ∧
      ¬ ShiftEquivariant (getCreationTimeOffset 0) [97 * ms, 99 * ms] (2 * ms) (blank 800) := by
  refine ⟨blank_fresh (by decide), by decide, by decide, by decide, by decide, fun h => ?_⟩
  exact absurd h.1 (by decide +kernel)

end TsnStream

end CooperativeTsn
