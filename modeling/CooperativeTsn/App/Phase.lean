import CooperativeTsn.Gate.Execution
import CooperativeTsn.Infra.Cyclic
import CooperativeTsn.Stream.Window

/-!
# One phase for arrivals and gates

`pushTime` measures arrivals from the creation of the application, up to truncation, and the
schedules are applied at times that are whole cycles behind the creation. A gate that is written at
such a time goes round its cycle in the same phase.

* `arrivalOffset_near` — the stored offset is the time since the creation, up to a microsecond
* `updateTime_modEq` — schedules are applied in the phase of the creation
* `startsCycle_create_iff` — when a gate starts its cycle
* `phases_agree` — the three together
-/

namespace CooperativeTsn

open Infra.SimTime Infra.Cyclic PeriodicGate

/-! ## Offsets -/

namespace TsnStream

/-- The truncation of the arrival and the one of the creation shift the offset in opposite ways. -/
theorem arrivalOffset_near {c t : Int} (hc : 0 ≤ c) (ht : 0 ≤ t) :
    Near cycleTime us (arrivalOffset (getCreationTimeOffset c) t) (t - c) := by
  have hoffset : getCreationTimeOffset c ≡ trunc us c [ZMOD cycleTime] := fmod_modEq _ _
  have hmod := (arrivalOffset_modEq (getCreationTimeOffset c) t).trans (hoffset.sub_left _)
  refine ⟨trunc ns t - t + (c - trunc us c), ?_, ?_, ?_⟩
  · rw [trunc_eq hc, trunc_eq ht]
    simp only [ns, us]
    omega
  · rw [trunc_eq hc, trunc_eq ht]
    simp only [ns, us]
    omega
  · rwa [show t - c + (trunc ns t - t + (c - trunc us c)) = trunc ns t - trunc us c by omega]

end TsnStream

/-! ## The self message -/

/-- `DynSchedForwardingApplication::initialize`: when `updateSchedule` is scheduled for, first. -/
def firstUpdate (creationTime : Int) (index : Nat) : Int :=
  creationTime + (index + 5) * sec + 100 * ms

/-- `handleMessageWhenUp`: after the schedule is applied, the message is scheduled again. -/
def nextUpdate (now : Int) : Int := now + 100 * ms

/-- When `updateSchedule` fires for the `n`-th time, counted from 0 on. -/
def updateTime (creationTime : Int) (index : Nat) : Nat → Int
  | 0 => firstUpdate creationTime index
  | n + 1 => nextUpdate (updateTime creationTime index n)

theorem firstUpdate_modEq (creationTime : Int) (index : Nat) :
    firstUpdate creationTime index ≡ creationTime [ZMOD 100 * ms] := by
  refine Int.modEq_iff_dvd.mpr ⟨-((index + 5) * 10 + 1), ?_⟩
  simp only [firstUpdate, sec, ms]
  omega

/-- Every schedule is applied in the phase of the creation. -/
theorem updateTime_modEq (creationTime : Int) (index : Nat) :
    ∀ n, updateTime creationTime index n ≡ creationTime [ZMOD 100 * ms]
  | 0 => firstUpdate_modEq creationTime index
  | n + 1 => by
    have hnext : updateTime creationTime index (n + 1) ≡ updateTime creationTime index n
        [ZMOD 100 * ms] := Int.modEq_iff_dvd.mpr ⟨-1, by simp only [updateTime, nextUpdate]; omega⟩
    exact hnext.trans (updateTime_modEq creationTime index n)

/-! ## The cycle of a gate -/

namespace PeriodicGate

/-- At `t` the gate is as `initializeGating` would leave it. -/
def StartsCycle (g : PeriodicGate) (t : Int) : Prop := (g.runUntil t).initializeGating t = g.runUntil t

instance (g : PeriodicGate) (t : Int) : Decidable (g.StartsCycle t) :=
  inferInstanceAs (Decidable (_ = _))

/-- The duration and the cycle that a gate is in say all about it that changes. -/
theorem OnSegment.ext {origin origin' : Int} {b : Bool} {ds : Durations} {k k' : Int} {j : Nat}
    {g g' : PeriodicGate} (h : OnSegment origin b ds k j g) (h' : OnSegment origin' b ds k' j g')
    (horigin : origin + k * ds.total = origin' + k' * ds.total)
    (hpar : g.parameters = g'.parameters) : g = g' := by
  obtain ⟨-, hds, hindex, hopen, hoffset, htimer⟩ := h
  obtain ⟨-, hds', hindex', hopen', hoffset', htimer'⟩ := h'
  cases g
  cases g'
  simp only [parameters, GateParameters.mk.injEq] at *
  simp only [hds, hds', hindex, hindex', hopen, hopen', hoffset, hoffset', htimer, htimer', hpar,
    horigin]

/-- A gate that is created at `now` starts its cycle after every total of its durations. -/
theorem startsCycle_create_iff {ds : Durations} {b : Bool} {offset now t : Int} (h0 : 0 ≤ offset)
    (htotal : 0 < ds.total) (ht : now ≤ t) :
    (create now b offset ds).StartsCycle t ↔ t ≡ now [ZMOD ds.total] := by
  obtain ⟨k, j, hseg, hle, hlt⟩ := runUntil_onSegment (b := b) h0 htotal ht
  obtain ⟨i, hseg', hle', hlt'⟩ := create_onSegment t b h0 htotal
  have hpar := runUntil_parameters t (create now b offset ds)
  have hstart : ((create now b offset ds).runUntil t).initializeGating t = create t b offset ds := by
    have hpar' := hpar
    rw [create_parameters, parameters, GateParameters.mk.injEq] at hpar'
    rw [initializeGating_eq_create, hpar'.1, hpar'.2.1, hseg.durations]
  rw [StartsCycle, hstart]
  constructor
  · intro heq
    rw [← heq] at hseg
    -- the index says which duration it is, the timer says which cycle
    have hindex := hseg.index.symm.trans hseg'.index
    have hij : j = i := by
      have hmod : j ≡ i [MOD ds.values.length] := Nat.ModEq.add_right_cancel' 1 hindex
      rwa [Nat.ModEq, Nat.mod_eq_of_lt hseg.lt, Nat.mod_eq_of_lt hseg'.lt] at hmod
    have htimer := hseg.changeTimer.symm.trans hseg'.changeTimer
    rw [Option.some.injEq, hij] at htimer
    exact Int.modEq_iff_dvd.mpr ⟨-k, by rw [Int.mul_neg, Int.mul_comm]; omega⟩
  · intro hmod
    obtain ⟨m, hm⟩ := Int.modEq_iff_dvd.mp hmod
    obtain ⟨hj, -⟩ := ds.take_sum_bounds j
    obtain ⟨-, hj'⟩ := ds.take_sum_bounds (j + 1)
    have hoff := Int.emod_nonneg offset htotal.ne'
    have hoff' := Int.emod_lt_of_pos offset htotal
    have hcycles : (k + m) * ds.total = k * ds.total + ds.total * m := by
      rw [Int.add_mul, Int.mul_comm m]
    have hup : (k + m) * ds.total < 1 * ds.total := by omega
    have hlow : -1 * ds.total < (k + m) * ds.total := by omega
    have hup' := Int.lt_of_mul_lt_mul_right hup (by omega)
    have hlow' := Int.lt_of_mul_lt_mul_right hlow (by omega)
    have hkm : k + m = 0 := by omega
    rw [hkm, Int.zero_mul] at hcycles
    obtain rfl : j = i :=
      ds.segment_unique (x := offset % ds.total) (by omega) (by omega) hle' hlt'
    refine (hseg.ext hseg' (by omega) ?_).symm
    rw [hpar, create_parameters, create_parameters]

/-- A gate whose durations are rewritten at `now` starts its cycle after every total of them. -/
theorem startsCycle_of_setDurations {now t total : Int} {values : List Int} {g g' : PeriodicGate}
    (h : g.setDurations now values = .ok g') (h0 : 0 ≤ g.initialOffset) (hpos : 0 < total)
    (htotal : values.sum = total) (ht : now ≤ t) :
    g'.StartsCycle t ↔ t ≡ now [ZMOD total] := by
  rw [setDurations] at h
  cases hread : readDurationsPar values with
  | error e =>
    rw [hread] at h
    cases h
  | ok ds =>
    have hds : ds.total = total := by
      rw [Durations.total, readDurationsPar_values hread, htotal]
    rw [hread] at h
    cases h
    rw [← hds] at hpos ⊢
    exact startsCycle_create_iff h0 hpos ht

/-- A gate that takes over a schedule at `now` starts its cycle there, whatever offset it is given. -/
theorem startsCycle_of_configureGate {gateCycleDuration now t : Int} {schedule : Schedule}
    (h : schedule.Separated gateCycleDuration) {p : GateParameters}
    (hp : computeParameters gateCycleDuration schedule = .ok p) (hne : p.durations ≠ [])
    {g g' : PeriodicGate} (hconf : configureGate gateCycleDuration now schedule g = .ok g')
    (ht : now ≤ t) : g'.StartsCycle t ↔ t ≡ now [ZMOD gateCycleDuration] := by
  have hex := computeParameters_executes h hp hne
  have htotal : Durations.total ⟨p.durations, hex.even, hex.pos⟩ = gateCycleDuration := hex.total
  have hpos : 0 < gateCycleDuration := Int.lt_of_le_of_lt hex.offset_nonneg hex.offset_lt
  rw [configureGate_of_executes hp hne hex, Except.ok.injEq] at hconf
  rw [← hconf, startsCycle_create_iff hex.offset_nonneg (by rw [htotal]; exact hpos) ht, htotal]

end PeriodicGate

/-! ## The result -/

open TsnStream in
/--
**Arrivals and gates share one phase.** The offset that is stored for an arrival is the time since
the creation of the application, up to a microsecond. A gate over a cycle of 100 ms whose durations
are rewritten when the application applies a schedule starts its cycle exactly at the times that are
whole cycles behind the creation, so that the stored offset is the position of the arrival in it.
-/
theorem phases_agree {creationTime : Int} (hc : 0 ≤ creationTime) (index : Nat) :
    (∀ t, creationTime ≤ t →
      0 ≤ arrivalOffset (getCreationTimeOffset creationTime) t ∧
      arrivalOffset (getCreationTimeOffset creationTime) t < 100 * ms ∧
      Near (100 * ms) us (arrivalOffset (getCreationTimeOffset creationTime) t)
        (t - creationTime)) ∧
    (∀ n, updateTime creationTime index n ≡ creationTime [ZMOD 100 * ms]) ∧
    ∀ n values (g g' : PeriodicGate),
      g.setDurations (updateTime creationTime index n) values = .ok g' → 0 ≤ g.initialOffset →
      values.sum = 100 * ms → ∀ start, updateTime creationTime index n ≤ start →
        (g'.StartsCycle start ↔ start ≡ creationTime [ZMOD 100 * ms]) ∧
        (g'.StartsCycle start → ∀ t, creationTime ≤ t →
          Near (100 * ms) us (arrivalOffset (getCreationTimeOffset creationTime) t)
            (t - start)) := by
  have hnear : ∀ t, creationTime ≤ t → Near (100 * ms) us
      (arrivalOffset (getCreationTimeOffset creationTime) t) (t - creationTime) := fun t ht =>
    arrivalOffset_near hc (Int.le_trans hc ht)
  refine ⟨fun t ht => ?_, updateTime_modEq creationTime index, ?_⟩
  · have hoff : getCreationTimeOffset creationTime ≤ 100 * sec := by
      have := (getCreationTimeOffset_bounds hc).2
      simp only [cycleTime, sec] at *
      omega
    obtain ⟨hlo, hhi⟩ := arrivalOffset_bounds hoff (Int.le_trans hc ht)
    exact ⟨hlo, hhi, hnear t ht⟩
  · intro n values g g' hwrite hoffset htotal start hstart
    have hphase := updateTime_modEq creationTime index n
    -- the gate starts its cycle with the update, and updates come whole cycles behind the creation
    have hiff : g'.StartsCycle start ↔ start ≡ creationTime [ZMOD 100 * ms] := by
      rw [startsCycle_of_setDurations hwrite hoffset (by decide) htotal hstart]
      exact ⟨fun h => h.trans hphase, fun h => h.trans hphase.symm⟩
    exact ⟨hiff, fun h t ht => (hnear t ht).congr_right ((hiff.mp h).symm.sub_left t)⟩

/-- A car with the index 2 that was created in the middle of a microsecond and of a cycle. -/
theorem phases_agree_third_update :
    ∃ g', defaultGate.setDurations (updateTime (3 * sec + 7 * ms + 1) 2 3) [20 * ms, 80 * ms] =
        .ok g' ∧
      g'.StartsCycle (11 * sec + 7 * ms + 1) ∧
      Near (100 * ms) us
        (TsnStream.arrivalOffset (getCreationTimeOffset (3 * sec + 7 * ms + 1)) (12 * sec))
        (12 * sec - (11 * sec + 7 * ms + 1)) := by
  obtain ⟨g', hg'⟩ : ∃ g', defaultGate.setDurations (updateTime (3 * sec + 7 * ms + 1) 2 3)
      [20 * ms, 80 * ms] = .ok g' := ⟨_, rfl⟩
  have hcreation : (0 : Int) ≤ 3 * sec + 7 * ms + 1 := by decide
  obtain ⟨-, -, h⟩ := phases_agree hcreation 2
  obtain ⟨hiff, hnear⟩ := h 3 _ _ g' hg' (by decide) (by decide) (11 * sec + 7 * ms + 1) (by decide)
  have hstart := hiff.mpr (by decide)
  exact ⟨g', hg', hstart, hnear hstart _ (by decide)⟩

end CooperativeTsn
