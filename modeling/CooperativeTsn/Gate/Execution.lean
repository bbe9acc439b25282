import CooperativeTsn.Gate.History
import CooperativeTsn.Infra.Waveform
import Mathlib.Data.List.GetD

/-!
# What a gate does with its parameters

The gate and the schedule are compared through the waveform of the durations.

* `runUntil_isOpen` — a running gate shows the waveform of its durations, from its offset on
* `scanSlots_describes` — the scanned durations describe the slots
* `computeParameters_executes` — so do the finished ones, when they are started at the offset
* `gate_executes_schedule` — a gate is open exactly within the slots
-/

namespace CooperativeTsn

open Infra.Waveform PeriodicGate

/-! ## The change timer -/

theorem Durations.take_succ_sum (ds : Durations) {j : Nat} (hj : j < ds.values.length) :
    (ds.values.take (j + 1)).sum = (ds.values.take j).sum + ds.values.getD j 0 := by
  rw [List.take_succ_eq_append_getElem hj, List.sum_append, List.sum_singleton,
    List.getD_eq_getElem _ _ hj]

theorem Durations.take_sum_bounds (ds : Durations) (j : Nat) :
    0 ≤ (ds.values.take j).sum ∧ (ds.values.take j).sum ≤ ds.total := by
  have hpos : ∀ d ∈ ds.values.take j, 0 < d := fun d hd => ds.pos d (List.mem_of_mem_take hd)
  have hposd : ∀ d ∈ ds.values.drop j, 0 < d := fun d hd => ds.pos d (List.mem_of_mem_drop hd)
  have htail := sum_nonneg_of_pos hposd
  have htotal : ds.total = (ds.values.take j).sum + (ds.values.drop j).sum := by
    rw [← List.sum_append, List.take_append_drop, Durations.total]
  exact ⟨sum_nonneg_of_pos hpos, by omega⟩

theorem Durations.take_sum_mono (ds : Durations) {i j : Nat} (hij : i ≤ j) :
    (ds.values.take i).sum ≤ (ds.values.take j).sum := by
  have hsplit : ds.values.take j = ds.values.take i ++ (ds.values.take j).drop i := by
    have htake : (ds.values.take j).take i = ds.values.take i := by
      rw [List.take_take, Nat.min_eq_left hij]
    rw [← htake, List.take_append_drop]
  have hpos : ∀ d ∈ (ds.values.take j).drop i, 0 < d := fun d hd =>
    ds.pos d (List.mem_of_mem_take (List.mem_of_mem_drop hd))
  have hrest := sum_nonneg_of_pos hpos
  rw [hsplit, List.sum_append]
  omega

/-- A position falls into one duration only. -/
theorem Durations.segment_unique (ds : Durations) {i j : Nat} {x : Int}
    (hi : (ds.values.take i).sum ≤ x) (hi' : x < (ds.values.take (i + 1)).sum)
    (hj : (ds.values.take j).sum ≤ x) (hj' : x < (ds.values.take (j + 1)).sum) : i = j := by
  rcases Nat.lt_trichotomy i j with hlt | heq | hlt
  · have := ds.take_sum_mono (show i + 1 ≤ j from hlt)
    omega
  · exact heq
  · have := ds.take_sum_mono (show j + 1 ≤ i from hlt)
    omega

theorem Durations.getD_pos (ds : Durations) {j : Nat} (hj : j < ds.values.length) :
    0 < ds.values.getD j 0 := by
  rw [List.getD_eq_getElem _ _ hj]
  exact ds.pos _ (List.getElem_mem hj)

namespace PeriodicGate

/--
The gate is in the duration number `j` of the cycle number `k`, where the cycles are counted from
`origin` on and start with the level `b`.
-/
structure OnSegment (origin : Int) (b : Bool) (ds : Durations) (k : Int) (j : Nat)
    (g : PeriodicGate) : Prop where
  lt : j < ds.values.length
  durations : g.durations = ds
  index : g.index = (j + 1) % ds.values.length
  isOpen : g.isOpen = flips b j
  offset : g.offset = 0
  changeTimer : g.changeTimer = some (origin + k * ds.total + (ds.values.take (j + 1)).sum)

/-- When the timer fires, the gate goes to the next duration, or to the first one of the next cycle. -/
theorem handleMessage_onSegment {origin : Int} {b : Bool} {ds : Durations} {k : Int} {j : Nat}
    {g : PeriodicGate} (h : OnSegment origin b ds k j g) {a : Int} (ha : g.changeTimer = some a) :
    ∃ k' j', OnSegment origin b ds k' j' (g.handleMessage a) ∧
      origin + k' * ds.total + (ds.values.take j').sum = a := by
  obtain ⟨hlt, hds, hindex, hopen, hoffset, htimer⟩ := h
  rw [htimer, Option.some.injEq] at ha
  -- behind the last duration the first one of the next cycle follows: the gate is as it started,
  -- because the number of durations is even
  by_cases hlast : j + 1 = ds.values.length
  · refine ⟨k + 1, 0, ⟨by omega, hds, ?_, ?_, rfl, ?_⟩, ?_⟩
    · simp [handleMessage, processChangeTimer, scheduleChangeTimer, hindex, hds, hlast]
    · simp only [handleMessage, processChangeTimer, scheduleChangeTimer]
      rw [hopen, ← flips_succ, hlast, flips_of_even ds.even, flips_zero]
    · have hz := Durations.take_succ_sum ds (j := 0) (by omega)
      rw [hlast, List.take_length] at ha
      simp only [handleMessage, processChangeTimer, scheduleChangeTimer, hindex, hds, hlast,
        Nat.mod_self, hoffset, hz, List.take_zero, List.sum_nil, Int.add_mul, Option.some.injEq]
      simp only [Durations.total] at ha ⊢
      omega
    · rw [hlast, List.take_length] at ha
      simp only [Durations.total, List.take_zero, List.sum_nil, Int.add_mul] at ha ⊢
      omega
  · have hmod : (j + 1) % ds.values.length = j + 1 := Nat.mod_eq_of_lt (by omega)
    refine ⟨k, j + 1, ⟨by omega, hds, ?_, ?_, rfl, ?_⟩, ha⟩
    · simp only [handleMessage, processChangeTimer, scheduleChangeTimer, hindex, hds, hmod]
    · simp only [handleMessage, processChangeTimer, scheduleChangeTimer]
      rw [hopen, flips_succ]
    · have hsum := Durations.take_succ_sum ds (j := j + 1) (by omega)
      simp only [handleMessage, processChangeTimer, scheduleChangeTimer, hindex, hds, hmod, hoffset,
        hsum, Option.some.injEq]
      omega

/-- After the due firings, the gate is in the duration that the time falls into. -/
theorem fireUntil_onSegment {origin : Int} {b : Bool} {ds : Durations} {t : Int} :
    ∀ {fuel : Nat} {k : Int} {j : Nat} {g : PeriodicGate} {a : Int},
    OnSegment origin b ds k j g → g.changeTimer = some a →
    origin + k * ds.total + (ds.values.take j).sum ≤ t → (t + 1 - a).toNat ≤ fuel →
    ∃ k' j', OnSegment origin b ds k' j' (fireUntil t fuel g) ∧
      origin + k' * ds.total + (ds.values.take j').sum ≤ t ∧
      t < origin + k' * ds.total + (ds.values.take (j' + 1)).sum
  | 0, k, j, g, a, h, ha, hstart, hfuel => by
    have htimer := h.changeTimer
    rw [ha, Option.some.injEq] at htimer
    exact ⟨k, j, h, hstart, by omega⟩
  | fuel + 1, k, j, g, a, h, ha, hstart, hfuel => by
    have htimer := h.changeTimer
    rw [ha, Option.some.injEq] at htimer
    rw [fireUntil, ha]
    dsimp only
    split
    · next hdue =>
      obtain ⟨k', j', h', hnext⟩ := handleMessage_onSegment h ha
      -- the timer moves on by the next duration
      have hsum := Durations.take_succ_sum ds h'.lt
      have hpos := Durations.getD_pos ds h'.lt
      exact fireUntil_onSegment h' h'.changeTimer (by omega) (by omega)
    · exact ⟨k, j, h, hstart, by omega⟩

/-! ## The start -/

theorem skipOffset_spec : ∀ (ds : List Int) (i : Nat) (b : Bool) (offset : Int),
    (∀ d ∈ ds, 0 < d) → 0 ≤ offset → offset < ds.sum →
    ∃ j, j < ds.length ∧ (ds.take j).sum ≤ offset ∧ offset < (ds.take (j + 1)).sum ∧
      skipOffset ds i b offset = (i + j, flips b j, offset - (ds.take j).sum)
  | [], _, _, _, _, h0, hlt => by
    rw [List.sum_nil] at hlt
    omega
  | d :: ds, i, b, offset, hpos, h0, hlt => by
    have hd := hpos d List.mem_cons_self
    rw [List.sum_cons] at hlt
    by_cases hskip : d ≤ offset
    · obtain ⟨j, hj, hle, hlt', heq⟩ := skipOffset_spec ds (i + 1) (!b) (offset - d)
        (fun e he => hpos e (List.mem_cons_of_mem _ he)) (by omega) (by omega)
      refine ⟨j + 1, by simpa using hj, ?_, ?_, ?_⟩
      · rw [List.take_succ_cons, List.sum_cons]
        omega
      · rw [List.take_succ_cons, List.sum_cons]
        omega
      · rw [skipOffset, if_pos ⟨by omega, hskip⟩, heq, flips_not, flips_succ, List.take_succ_cons,
          List.sum_cons, Prod.mk.injEq, Prod.mk.injEq]
        exact ⟨by omega, rfl, by omega⟩
    · refine ⟨0, by simp, by simpa using h0, by simpa using hskip, ?_⟩
      rw [skipOffset, if_neg (by omega)]
      simp

theorem create_onSegment {ds : Durations} (now : Int) (b : Bool) {offset : Int} (h0 : 0 ≤ offset)
    (htotal : 0 < ds.total) :
    ∃ j, OnSegment (now - offset % ds.total) b ds 0 j (create now b offset ds) ∧
      (ds.values.take j).sum ≤ offset % ds.total ∧
      offset % ds.total < (ds.values.take (j + 1)).sum := by
  have hmod : offset.tmod ds.total = offset % ds.total := Int.tmod_eq_emod_of_nonneg h0
  obtain ⟨j, hj, hle, hlt, hskip⟩ := skipOffset_spec ds.values 0 b (offset % ds.total) ds.pos
    (Int.emod_nonneg _ htotal.ne') (Int.emod_lt_of_pos _ htotal)
  have hlen : ds.values.length > 0 := by omega
  have hsum := Durations.take_succ_sum ds hj
  refine ⟨j, ?_, hle, hlt⟩
  simp only [create, initializeGating, if_pos htotal.ne', hmod, hskip, if_pos hlen, Nat.zero_add]
  refine ⟨hj, rfl, rfl, rfl, rfl, ?_⟩
  simp only [scheduleChangeTimer, hsum, Option.some.injEq]
  omega

/-- A running gate is in the duration that the time falls into, and no firing is due. -/
theorem runUntil_onSegment {ds : Durations} {b : Bool} {offset now t : Int} (h0 : 0 ≤ offset)
    (htotal : 0 < ds.total) (ht : now ≤ t) :
    ∃ k j, OnSegment (now - offset % ds.total) b ds k j ((create now b offset ds).runUntil t) ∧
      now - offset % ds.total + k * ds.total + (ds.values.take j).sum ≤ t ∧
      t < now - offset % ds.total + k * ds.total + (ds.values.take (j + 1)).sum := by
  obtain ⟨j, hseg, hle, -⟩ := create_onSegment now b h0 htotal
  rw [runUntil, hseg.changeTimer]
  exact fireUntil_onSegment hseg hseg.changeTimer (by omega) (Nat.le_refl _)

/-- **A running gate shows the waveform of its durations, from the offset on.** -/
theorem runUntil_isOpen {ds : Durations} {b : Bool} {offset now t : Int} (h0 : 0 ≤ offset)
    (hlt : offset < ds.total) (ht : now ≤ t) :
    ((create now b offset ds).runUntil t).isOpen =
      levelAt b ds.values ((offset + (t - now)) % ds.total) := by
  have htotal : 0 < ds.total := Int.lt_of_le_of_lt h0 hlt
  obtain ⟨k, j, hseg, hstart, hend⟩ := runUntil_onSegment (b := b) h0 htotal ht
  rw [Int.emod_eq_of_lt h0 hlt] at hseg hstart hend
  obtain ⟨hnonneg, hle⟩ := ds.take_sum_bounds j
  obtain ⟨-, hle'⟩ := ds.take_sum_bounds (j + 1)
  have hx : (offset + (t - now)) % ds.total = t - (now - offset) - k * ds.total := by
    rw [← Int.sub_mul_emod_self_right _ k ds.total, Int.emod_eq_of_lt (by omega) (by omega)]
    omega
  rw [hseg.isOpen, hx, levelAt_segment ds.pos hseg.lt (by omega) (by omega)]

end PeriodicGate

/-! ## The slots as a waveform -/

/-- Slots of positive length that follow each other from `e` on. -/
def Ordered (e : Int) : List Slot → Prop
  | [] => True
  | slot :: slots => e ≤ slot.start ∧ 0 < slot.duration ∧ Ordered slot.end slots

/-- Slots of positive length, each behind a gap; the first gap starts at `e`. -/
def Spaced (e : Int) : List Slot → Prop
  | [] => True
  | slot :: slots => e < slot.start ∧ 0 < slot.duration ∧ Spaced slot.end slots

/-- The gaps and the slots in turn, from `e` on. -/
def layout (e : Int) : List Slot → List Int
  | [] => []
  | slot :: slots => (slot.start - e) :: slot.duration :: layout slot.end slots

theorem Spaced.lt_start : ∀ {slots : List Slot} {e : Int}, Spaced e slots →
    ∀ slot ∈ slots, e < slot.start
  | slot :: slots, e, h, s, hs => by
    obtain ⟨hgap, hpos, hrest⟩ := h
    rcases List.mem_cons.mp hs with rfl | hs
    · exact hgap
    · have := hrest.lt_start s hs
      simp only [Slot.end] at this
      omega

theorem Spaced.ordered : ∀ {slots : List Slot} {e : Int}, Spaced e slots → Ordered e slots
  | [], _, _ => trivial
  | _ :: _, _, ⟨hgap, hpos, hrest⟩ => ⟨Int.le_of_lt hgap, hpos, hrest.ordered⟩

theorem Spaced.layout_pos : ∀ {slots : List Slot} {e : Int}, Spaced e slots →
    ∀ d ∈ layout e slots, 0 < d
  | slot :: slots, e, ⟨hgap, hpos, hrest⟩, d, hd => by
    rcases List.mem_cons.mp hd with rfl | hd
    · omega
    · rcases List.mem_cons.mp hd with rfl | hd
      · exact hpos
      · exact hrest.layout_pos d hd

theorem layout_sum_le {cycleDuration : Int} : ∀ {slots : List Slot} {e : Int}, e ≤ cycleDuration →
    (∀ slot ∈ slots, slot.end ≤ cycleDuration) → e + (layout e slots).sum ≤ cycleDuration
  | [], e, he, _ => by simpa [layout] using he
  | slot :: slots, e, he, hends => by
    have ih := layout_sum_le (hends slot List.mem_cons_self)
      fun s hs => hends s (List.mem_cons_of_mem _ hs)
    have hend : slot.end = slot.start + slot.duration := rfl
    rw [layout, List.sum_cons, List.sum_cons]
    omega

/-- From the start of a slot on. -/
theorem levelAt_slot {slot : Slot} {slots : List Slot} {x : Int} (hrest : Spaced slot.end slots)
    (hlevel : slot.end ≤ x → (levelAt false (layout slot.end slots) (x - slot.end) = true ↔
      ∃ s ∈ slots, s.start ≤ x ∧ x < s.end))
    (hx : slot.start ≤ x) :
    levelAt true (slot.duration :: layout slot.end slots) (x - slot.start) = true ↔
      ∃ s ∈ slot :: slots, s.start ≤ x ∧ x < s.end := by
  have hend : slot.end = slot.start + slot.duration := rfl
  rw [levelAt]
  by_cases hin : x < slot.end
  · rw [if_pos (by omega)]
    exact iff_of_true rfl ⟨slot, List.mem_cons_self, hx, hin⟩
  · have hshift : x - slot.start - slot.duration = x - slot.end := by omega
    rw [if_neg (by omega), hshift, Bool.not_true, hlevel (by omega)]
    constructor
    · rintro ⟨s, hs, h⟩
      exact ⟨s, List.mem_cons_of_mem _ hs, h⟩
    · rintro ⟨s, hs, h⟩
      rcases List.mem_cons.mp hs with rfl | hs
      · exact absurd h.2 hin
      · exact ⟨s, hs, h⟩

/-- The layout is high within the slots. -/
theorem Spaced.levelAt_layout : ∀ {slots : List Slot} {e x : Int}, Spaced e slots → e ≤ x →
    (levelAt false (layout e slots) (x - e) = true ↔ ∃ slot ∈ slots, slot.start ≤ x ∧ x < slot.end)
  | [], e, x, _, _ => by simp [layout, levelAt]
  | slot :: slots, e, x, ⟨hgap, hpos, hrest⟩, hx => by
    rw [layout, levelAt]
    by_cases hbefore : x < slot.start
    · rw [if_pos (by omega)]
      refine iff_of_false Bool.false_ne_true ?_
      rintro ⟨s, hs, hle, -⟩
      have hspaced : Spaced (slot.start - 1) (slot :: slots) := ⟨by omega, hpos, hrest⟩
      have hstart := hspaced.lt_start s hs
      omega
    · have hshift : x - e - (slot.start - e) = x - slot.start := by omega
      rw [if_neg (by omega), hshift, Bool.not_false]
      exact levelAt_slot hrest hrest.levelAt_layout (by omega)

/-- Slots that are not at the start of the cycle are scanned into their layout. -/
theorem scanSlots_layout {gateCycleDuration : Int} {o : Bool} : ∀ {slots : List Slot}
    {acc : SlotScan}, Ordered acc.slotEnd slots → (∀ slot ∈ slots, 0 < slot.start) →
    (∀ slot ∈ slots, slot.end ≤ gateCycleDuration) →
    scanSlots gateCycleDuration o slots acc =
      .ok ⟨acc.initiallyOpen, acc.durations ++ layout acc.slotEnd slots,
        acc.slotEnd + (layout acc.slotEnd slots).sum⟩
  | [], acc, _, _, _ => by simp [scanSlots, layout]
  | slot :: slots, acc, ⟨hgap, hpos, hrest⟩, hstarts, hinside => by
    have hend : slot.end = slot.start + slot.duration := rfl
    rw [scanSlots_cons_of_ok (scanSlot_of_gap (hstarts slot List.mem_cons_self)
        (hinside slot List.mem_cons_self) hgap),
      scanSlots_layout hrest (fun s hs => hstarts s (List.mem_cons_of_mem _ hs))
        fun s hs => hinside s (List.mem_cons_of_mem _ hs)]
    simp only [layout, List.append_assoc, List.cons_append, List.nil_append, List.sum_cons,
      Except.ok.injEq, SlotScan.mk.injEq, true_and]
    omega

/-- An open schedule over the gate cycle, its slots sorted, of positive length and with gaps. -/
structure Schedule.Separated (gateCycleDuration : Int) (s : Schedule) : Prop where
  isOpen : s.open = true
  cycle : s.cycleDuration = gateCycleDuration
  gaps : s.slots.IsChain fun a b => a.end < b.start
  pos : ∀ slot ∈ s.slots, 0 < slot.duration
  inside : ∀ slot ∈ s.slots, 0 ≤ slot.start ∧ slot.end ≤ gateCycleDuration

theorem spaced_of_isChain : ∀ {slots : List Slot} {slot : Slot},
    (slot :: slots).IsChain (fun a b => a.end < b.start) → (∀ s ∈ slots, 0 < s.duration) →
    Spaced slot.end slots
  | [], _, _, _ => trivial
  | s :: slots, _, hchain, hpos => by
    rw [List.isChain_cons_cons] at hchain
    exact ⟨hchain.1, hpos s List.mem_cons_self,
      spaced_of_isChain hchain.2 fun x hx => hpos x (List.mem_cons_of_mem _ hx)⟩

/-- Up to the end of the cycle, the durations started at the level `b` are high within the slots. -/
structure Describes (cycleDuration : Int) (slots : List Slot) (b : Bool) (ds : List Int) :
    Prop where
  pos : ∀ d ∈ ds, 0 < d
  level : ∀ x, 0 ≤ x → x < cycleDuration →
    (levelAt b ds x = true ↔ ∃ slot ∈ slots, slot.start ≤ x ∧ x < slot.end)

/-- **The scanned durations describe the slots.** -/
theorem scanSlots_describes {gateCycleDuration : Int} {schedule : Schedule}
    (h : schedule.Separated gateCycleDuration) :
    ∃ b ds, scanSlots gateCycleDuration schedule.open schedule.slots ⟨!schedule.open, [], 0⟩ =
      .ok ⟨b, ds, ds.sum⟩ ∧ Describes gateCycleDuration schedule.slots b ds ∧
      (ds ≠ [] → ds.sum ≤ gateCycleDuration) := by
  obtain ⟨hopen, -, hgaps, hpos, hinside⟩ := h
  rw [hopen]
  match hs : schedule.slots with
  | [] => exact ⟨false, [], rfl, ⟨by simp, by simp [levelAt]⟩, by simp⟩
  | slot :: slots =>
    rw [hs] at hgaps hpos hinside
    have hspaced := spaced_of_isChain hgaps fun s h => hpos s (List.mem_cons_of_mem _ h)
    have hin := hinside slot List.mem_cons_self
    have hd := hpos slot List.mem_cons_self
    have hends : ∀ s ∈ slots, s.end ≤ gateCycleDuration :=
      fun s h => (hinside s (List.mem_cons_of_mem _ h)).2
    -- a slot at the start of the cycle opens the gate; otherwise the gap before it comes first
    by_cases hzero : slot.start = 0
    · have hend : slot.end = slot.duration := by simp [Slot.end, hzero]
      refine ⟨true, slot.duration :: layout slot.end slots, ?_, ⟨?_, ?_⟩, fun _ => ?_⟩
      · rw [scanSlots_cons_of_ok (scanSlot_of_zero hzero hin.2),
          scanSlots_layout hspaced.ordered (fun s h => ?_) hends]
        · simp [hend]
        · have := hspaced.lt_start s h
          omega
      · intro d hd'
        rcases List.mem_cons.mp hd' with rfl | hd'
        · exact hd
        · exact hspaced.layout_pos d hd'
      · intro x hx _
        have := levelAt_slot hspaced hspaced.levelAt_layout (x := x) (by omega)
        rwa [hzero, Int.sub_zero] at this
      · rw [List.sum_cons, ← hend]
        exact layout_sum_le hin.2 hends
    · have hspaced' : Spaced 0 (slot :: slots) := ⟨by omega, hd, hspaced⟩
      refine ⟨false, layout 0 (slot :: slots), ?_, ⟨hspaced'.layout_pos, fun x hx _ => ?_⟩,
        fun _ => ?_⟩
      · rw [scanSlots_layout hspaced'.ordered hspaced'.lt_start fun s h => (hinside s h).2]
        simp
      · have := hspaced'.levelAt_layout hx
        rwa [Int.sub_zero] at this
      · rw [← Int.zero_add (layout 0 (slot :: slots)).sum]
        have h0 : (0 : Int) ≤ gateCycleDuration := by
          simp only [Slot.end] at hin
          omega
        exact layout_sum_le h0 fun s h => (hinside s h).2

/-! ## The finished durations -/

/-- Started at the offset, the durations show over a cycle what the slots say. -/
structure Executes (cycleDuration : Int) (slots : List Slot) (p : GateParameters) : Prop where
  even : p.durations.length % 2 = 0
  pos : ∀ d ∈ p.durations, 0 < d
  total : p.durations.sum = cycleDuration
  offset_nonneg : 0 ≤ p.offset
  offset_lt : p.offset < cycleDuration
  level : ∀ x, 0 ≤ x → x < cycleDuration →
    (levelAt p.initiallyOpen p.durations ((p.offset + x) % cycleDuration) = true ↔
      ∃ slot ∈ slots, slot.start ≤ x ∧ x < slot.end)

theorem mergeLast_executes {cycleDuration : Int} {slots : List Slot} {b : Bool} {ds : List Int}
    (h : Describes cycleDuration slots b ds) (hcycle : ds.sum = cycleDuration)
    (hne : (mergeLast ds).2 ≠ []) :
    Executes cycleDuration slots ⟨b, (mergeLast ds).1, (mergeLast ds).2⟩ := by
  subst hcycle
  match ds with
  | [] => exact absurd rfl hne
  | [d] => exact absurd rfl hne
  | d :: e :: ds =>
    have hd := h.pos d List.mem_cons_self
    have hpos : ∀ x ∈ e :: ds, 0 < x := fun x hx => h.pos x (List.mem_cons_of_mem _ hx)
    have hsum := sum_nonneg_of_pos hpos
    rw [mergeLast]
    -- an odd number of durations: the last joins the first, and the offset makes up for it
    by_cases hodd : (d :: e :: ds).length % 2 ≠ 0
    · rw [if_pos hodd]
      obtain ⟨mid, l, hmid⟩ : ∃ mid l, e :: ds = mid ++ [l] :=
        ⟨_, _, (List.dropLast_concat_getLast (List.cons_ne_nil e ds)).symm⟩
      have hl : 0 < l := hpos l (by rw [hmid]; simp)
      have hmidpos : ∀ x ∈ mid, 0 < x := fun x hx => hpos x (by rw [hmid]; simp [hx])
      have hmidsum := sum_nonneg_of_pos hmidpos
      have hlen : mid.length % 2 = 1 := by
        rw [List.length_cons, hmid, List.length_append, List.length_singleton] at hodd
        omega
      have htotal : (d :: e :: ds).sum = d + mid.sum + l := by
        rw [List.sum_cons, hmid, List.sum_append, List.sum_singleton]
        omega
      simp only [hmid, List.getLast_append_singleton, List.dropLast_concat]
      rw [hmid] at htotal h
      rw [htotal] at h ⊢
      refine ⟨by dsimp only; rw [List.length_cons]; omega, ?_, by dsimp only; rw [List.sum_cons]; omega,
        by dsimp only; omega, by dsimp only; omega, fun x h0 hx => ?_⟩
      · intro x hx
        rcases List.mem_cons.mp hx with rfl | hx
        · omega
        · exact hmidpos x hx
      · rw [levelAt_mergeLast hd hl hmidpos hlen h0 hx]
        exact h.level x h0 hx
    · rw [if_neg hodd]
      refine ⟨by dsimp only; omega, h.pos, rfl, Int.le_refl _, by dsimp only; rw [List.sum_cons]; omega,
        fun x h0 hx => ?_⟩
      dsimp only
      rw [Int.zero_add, Int.emod_eq_of_lt h0 hx]
      exact h.level x h0 hx

/-- The rest of the cycle can be added. -/
theorem Describes.append {cycleDuration : Int} {slots : List Slot} {b : Bool} {ds : List Int}
    {r : Int} (h : Describes cycleDuration slots b ds) (hr : 0 < r)
    (hsum : ds.sum + r = cycleDuration) : Describes cycleDuration slots b (ds ++ [r]) := by
  refine ⟨fun d hd => ?_, fun x h0 hx => ?_⟩
  · rcases List.mem_append.mp hd with hd | hd
    · exact h.pos d hd
    · rw [List.mem_singleton.mp hd]
      exact hr
  · rw [levelAt_append_singleton h.pos h0 (by omega)]
    exact h.level x h0 hx

/-- **The parameters that are computed for the slots describe them over the cycle.** -/
theorem computeParameters_executes {gateCycleDuration : Int} {schedule : Schedule}
    (h : schedule.Separated gateCycleDuration) {p : GateParameters}
    (hp : computeParameters gateCycleDuration schedule = .ok p) (hne : p.durations ≠ []) :
    Executes gateCycleDuration schedule.slots p := by
  obtain ⟨scan, hscan, rfl⟩ := computeParameters_ok hp
  obtain ⟨b, ds, hscan', hds, hle⟩ := scanSlots_describes h
  rw [hscan', Except.ok.injEq] at hscan
  subst hscan
  rw [h.cycle, finishScan] at hne ⊢
  dsimp only at hne ⊢
  by_cases hsum : ds.sum ≠ 0
  · have hnil : ds ≠ [] := by
      rintro rfl
      exact hsum rfl
    have hle := hle hnil
    rw [if_pos hsum] at hne ⊢
    by_cases hrem : gateCycleDuration - ds.sum ≠ 0
    · have htotal : (ds ++ [gateCycleDuration - ds.sum]).sum = gateCycleDuration := by
        rw [List.sum_append, List.sum_singleton]
        omega
      have happ := hds.append (r := gateCycleDuration - ds.sum) (by omega) (by omega)
      rw [if_pos hrem] at hne ⊢
      exact mergeLast_executes happ htotal hne
    · have htotal : ds.sum = gateCycleDuration := by omega
      rw [if_neg hrem] at hne ⊢
      exact mergeLast_executes hds htotal hne
  · -- positive durations only sum up to zero when there are none
    rw [if_neg hsum] at hne
    cases ds with
    | nil => exact absurd rfl hne
    | cons d ds =>
      have hd := hds.pos d List.mem_cons_self
      have hrest := sum_nonneg_of_pos fun x hx => hds.pos x (List.mem_cons_of_mem _ hx)
      rw [List.sum_cons] at hsum
      omega

/-! ## The gate -/

/-- The position lies inside the slot. -/
def Slot.Contains (x : Int) (slot : Slot) : Prop := slot.start < x ∧ x < slot.end

/-- The position is a start or an end of a slot. -/
def Boundary (slots : List Slot) (x : Int) : Prop := ∃ slot ∈ slots, x = slot.start ∨ x = slot.end

theorem configureGate_of_executes {gateCycleDuration : Int} {schedule : Schedule}
    {p : GateParameters} (hp : computeParameters gateCycleDuration schedule = .ok p)
    (hne : p.durations ≠ []) (h : Executes gateCycleDuration schedule.slots p) (now : Int)
    (g : PeriodicGate) :
    configureGate gateCycleDuration now schedule g =
      .ok (create now p.initiallyOpen p.offset ⟨p.durations, h.even, h.pos⟩) := by
  rw [configureGate, hp]
  dsimp only
  rw [if_neg hne, writeParameters_eq, readDurationsPar_of_valid h.even h.pos]
  rfl

/--
**The gate executes the schedule.** When the slots of an open schedule give durations, these are an
even number of positive ones that sum up to the cycle; and a gate of any past that is configured at
`now` is open, at any later time that is no boundary, iff the time lies inside a slot.
-/
theorem gate_executes_schedule {gateCycleDuration : Int} {schedule : Schedule}
    (h : schedule.Separated gateCycleDuration) {p : GateParameters}
    (hp : computeParameters gateCycleDuration schedule = .ok p) (hne : p.durations ≠ []) :
    (p.durations.length % 2 = 0 ∧ (∀ d ∈ p.durations, 0 < d) ∧
      p.durations.sum = gateCycleDuration) ∧
    ∀ (g : PeriodicGate) (now : Int), ∃ g', configureGate gateCycleDuration now schedule g = .ok g' ∧
      g'.parameters = p ∧
      ∀ t, now ≤ t → ¬ Boundary schedule.slots ((t - now) % gateCycleDuration) →
        ((g'.runUntil t).isOpen = true ↔
          ∃ slot ∈ schedule.slots, slot.Contains ((t - now) % gateCycleDuration)) := by
  have hex := computeParameters_executes h hp hne
  refine ⟨⟨hex.even, hex.pos, hex.total⟩, fun g now => ⟨_, configureGate_of_executes hp hne hex now g,
    create_parameters _ _ _ _, fun t ht hboundary => ?_⟩⟩
  have hcycle : 0 < gateCycleDuration := Int.lt_of_le_of_lt hex.offset_nonneg hex.offset_lt
  have htotal : Durations.total ⟨p.durations, hex.even, hex.pos⟩ = gateCycleDuration := hex.total
  rw [runUntil_isOpen hex.offset_nonneg (by rw [htotal]; exact hex.offset_lt) ht, htotal,
    ← Int.add_emod_emod, hex.level _ (Int.emod_nonneg _ hcycle.ne')
      (Int.emod_lt_of_pos _ hcycle)]
  constructor
  · rintro ⟨slot, hs, hle, hlt⟩
    have hne : (t - now) % gateCycleDuration ≠ slot.start := fun he => hboundary ⟨slot, hs, Or.inl he⟩
    exact ⟨slot, hs, by omega, hlt⟩
  · rintro ⟨slot, hs, hlt, hlt'⟩
    exact ⟨slot, hs, by omega, hlt'⟩

/-- A slot at each end of the cycle: the last duration goes to the first one. -/
theorem gate_executes_outer_slots :
    ∃ g', configureGate 100 7 ⟨0, -1, 100, [⟨0, 20⟩, ⟨60, 40⟩], true⟩ defaultGate = .ok g' ∧
      g'.parameters = ⟨true, 40, [60, 40]⟩ ∧
      ((g'.runUntil 180).isOpen = true ↔
        ∃ slot ∈ [(⟨0, 20⟩ : Slot), ⟨60, 40⟩], slot.Contains ((180 - 7) % 100)) := by
  have hsep : (⟨0, -1, 100, [⟨0, 20⟩, ⟨60, 40⟩], true⟩ : Schedule).Separated 100 :=
    ⟨rfl, rfl, by decide, by decide, by decide⟩
  obtain ⟨-, hgate⟩ := gate_executes_schedule hsep (p := ⟨true, 40, [60, 40]⟩) (by decide) (by decide)
  obtain ⟨g', hconf, hpar, hopen⟩ := hgate defaultGate 7
  refine ⟨g', hconf, hpar, hopen 180 (by decide) ?_⟩
  rintro ⟨slot, hs, h⟩
  simp only [List.mem_cons, List.not_mem_nil, or_false] at hs
  rcases hs with rfl | rfl <;> simp [Slot.end] at h

end CooperativeTsn
