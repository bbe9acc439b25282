import CooperativeTsn.Gate.Schedule
import CooperativeTsn.Infra.Runs
import Mathlib.Data.List.Basic

/-!
# A gate that is configured again and again

A gate runs, is configured, runs on, and so on. What a new schedule leaves in the three parameters
should not depend on the schedules before it. A schedule that gives no durations returns before the
parameters are written, though ("Empty TSN schedule. Using values from omnetpp.ini"), and the gate
keeps whatever an older schedule wrote.

* `configureGate_parameters` — the parameters after one call
* `reconfigure_agree_iff` — two histories agree after a valid schedule iff it has durations, or they
  agreed before it
-/

namespace CooperativeTsn

open Infra.Runs PeriodicGate

/-- A schedule over the gate cycle whose slots are sorted, disjoint and of positive length. -/
structure Schedule.Valid (gateCycleDuration : Int) (s : Schedule) : Prop where
  cycle : s.cycleDuration = gateCycleDuration
  sorted : s.slots.Pairwise fun a b => a.end ≤ b.start
  pos : ∀ slot ∈ s.slots, 0 < slot.duration
  inside : ∀ slot ∈ s.slots, 0 ≤ slot.start ∧ slot.end ≤ gateCycleDuration

/-- The values of the three parameters. -/
def PeriodicGate.parameters (g : PeriodicGate) : GateParameters :=
  ⟨g.initiallyOpen, g.initialOffset, g.durations.values⟩

theorem writeParameters_eq (now : Int) (p : GateParameters) (g : PeriodicGate) :
    writeParameters now p g =
      (readDurationsPar p.durations).map (create now p.initiallyOpen p.offset) := by
  simp only [writeParameters, setDurations, setOffset, setInitiallyOpen,
    initializeGating_eq_create, create_initiallyOpen, create_initialOffset]

theorem create_parameters (now : Int) (initiallyOpen : Bool) (offset : Int) (ds : Durations) :
    (create now initiallyOpen offset ds).parameters = ⟨initiallyOpen, offset, ds.values⟩ := by
  simp [parameters]

/-! ## The parameters after one call -/

/-- What one call leaves in the parameters, or its error. -/
def parametersAfter (gateCycleDuration : Int) (schedule : Schedule) (old : GateParameters) :
    Except GateError GateParameters :=
  match computeParameters gateCycleDuration schedule with
  | .error e => .error e
  | .ok p => if p.durations = [] then .ok old else (readDurationsPar p.durations).map fun _ => p

theorem configureGate_parameters (gateCycleDuration now : Int) (schedule : Schedule)
    (g : PeriodicGate) :
    (configureGate gateCycleDuration now schedule g).map PeriodicGate.parameters =
      parametersAfter gateCycleDuration schedule g.parameters := by
  rw [configureGate, parametersAfter]
  cases computeParameters gateCycleDuration schedule with
  | error e => rfl
  | ok p =>
    dsimp only
    split
    · rfl
    · rw [writeParameters_eq]
      cases hr : readDurationsPar p.durations with
      | error e => rfl
      | ok ds =>
        have : (create now p.initiallyOpen p.offset ds).parameters = p := by
          rw [create_parameters, readDurationsPar_values hr]
        exact congrArg Except.ok this

/-! ## Schedules that give no durations -/

theorem scanSlots_length {gateCycleDuration : Int} {o : Bool} : ∀ {slots : List Slot}
    {acc scan : SlotScan}, scanSlots gateCycleDuration o slots acc = .ok scan →
    acc.durations.length + slots.length ≤ scan.durations.length
  | [], acc, scan, h => by
    cases h
    simp
  | slot :: slots, acc, scan, h => by
    obtain ⟨acc', hacc, hrest⟩ := scanSlots_cons_eq_ok.mp h
    have ih := scanSlots_length hrest
    have hstep : acc.durations.length + 1 ≤ acc'.durations.length := by
      rcases (scanSlot_eq_ok.mp hacc).2 with ⟨-, rfl⟩ | ⟨-, -, rfl⟩ <;> simp
    rw [List.length_cons]
    omega

/-- **A schedule gives no durations iff it has no slot, or one that fills its cycle.** -/
theorem durations_eq_nil_iff {gateCycleDuration : Int} {schedule : Schedule}
    (hne : ∀ slot ∈ schedule.slots, slot.duration ≠ 0) {p : GateParameters}
    (h : computeParameters gateCycleDuration schedule = .ok p) :
    p.durations = [] ↔
      schedule.slots = [] ∨ schedule.slots = [⟨0, schedule.cycleDuration⟩] := by
  obtain ⟨gateIndex, cycleStart, cycleDuration, slots, o⟩ := schedule
  obtain ⟨scan, hscan, rfl⟩ := computeParameters_ok h
  dsimp only at hne hscan ⊢
  rw [finishScan_durations_eq_nil]
  -- one slot can fill the cycle, two leave at least two durations
  match slots, hscan with
  | [], hscan =>
    cases hscan
    simp
  | [slot], hscan =>
    obtain ⟨acc, hacc, hrest⟩ := scanSlots_cons_eq_ok.mp hscan
    cases hrest
    have hd := hne slot (List.mem_singleton_self _)
    have hend : slot.end = slot.start + slot.duration := rfl
    have hfull : slot = ⟨0, cycleDuration⟩ ↔ slot.start = 0 ∧ slot.duration = cycleDuration := by
      cases slot
      simp
    simp only [reduceCtorEq, List.cons.injEq, and_true, false_or, hfull]
    rcases (scanSlot_eq_ok.mp hacc).2 with ⟨hs, rfl⟩ | ⟨hs, -, rfl⟩
    · simp only [List.nil_append, List.length_singleton]
      split <;> split <;> omega
    · simp only [List.nil_append, List.length_cons, List.length_nil]
      split <;> split <;> omega
  | slot :: slot' :: slots, hscan =>
    have hlen := scanSlots_length hscan
    simp only [List.length_nil, List.length_cons] at hlen
    simp only [reduceCtorEq, List.cons.injEq, and_false, or_self, iff_false]
    split <;> split <;> omega

/-- A valid schedule gives no durations iff it has no slot, or one that fills the cycle. -/
theorem computeParameters_durations_eq_nil {gateCycleDuration : Int} {schedule : Schedule}
    (hvalid : schedule.Valid gateCycleDuration) {p : GateParameters}
    (h : computeParameters gateCycleDuration schedule = .ok p) :
    p.durations = [] ↔ schedule.slots = [] ∨ schedule.slots = [⟨0, gateCycleDuration⟩] := by
  rw [durations_eq_nil_iff (fun slot hslot => (hvalid.pos slot hslot).ne') h, hvalid.cycle]

/-- A valid schedule can be turned into parameters. -/
theorem scanSlots_of_valid {gateCycleDuration : Int} (o : Bool) : ∀ {slots : List Slot}
    (acc : SlotScan), slots.Pairwise (fun a b => a.end ≤ b.start) →
    (∀ slot ∈ slots, 0 < slot.duration) →
    (∀ slot ∈ slots, 0 ≤ slot.start ∧ slot.end ≤ gateCycleDuration) →
    (∀ slot ∈ slots, acc.slotEnd ≤ slot.start) →
    ∃ scan, scanSlots gateCycleDuration o slots acc = .ok scan
  | [], acc, _, _, _, _ => ⟨acc, rfl⟩
  | slot :: slots, acc, hsorted, hpos, hinside, hacc => by
    rw [List.pairwise_cons] at hsorted
    have hi := hinside slot List.mem_cons_self
    have hrest := fun acc' (h : acc'.slotEnd = slot.end) =>
      scanSlots_of_valid o acc' hsorted.2
        (fun s hs => hpos s (List.mem_cons_of_mem _ hs))
        (fun s hs => hinside s (List.mem_cons_of_mem _ hs)) (fun s hs => h ▸ hsorted.1 s hs)
    by_cases hs : slot.start = 0
    · rw [scanSlots_cons_of_ok (scanSlot_of_zero hs hi.2)]
      exact hrest _ rfl
    · rw [scanSlots_cons_of_ok (scanSlot_of_gap (by omega) hi.2 (hacc slot List.mem_cons_self))]
      exact hrest _ rfl

theorem parametersAfter_of_valid {gateCycleDuration : Int} {schedule : Schedule}
    (hvalid : schedule.Valid gateCycleDuration)
    (hslots : schedule.slots = [] ∨ schedule.slots = [⟨0, gateCycleDuration⟩])
    (old : GateParameters) : parametersAfter gateCycleDuration schedule old = .ok old := by
  obtain ⟨scan, hscan⟩ := scanSlots_of_valid schedule.open ⟨!schedule.open, [], 0⟩
    hvalid.sorted hvalid.pos hvalid.inside fun slot hs => (hvalid.inside slot hs).1
  have hp : computeParameters gateCycleDuration schedule =
      .ok (finishScan schedule.cycleDuration scan) := by
    rw [computeParameters, hscan]
    rfl
  rw [parametersAfter, hp]
  exact if_pos ((computeParameters_durations_eq_nil hvalid hp).mpr hslots)

theorem parametersAfter_of_slots {gateCycleDuration : Int} {schedule : Schedule}
    (hvalid : schedule.Valid gateCycleDuration) (hnil : schedule.slots ≠ [])
    (hfull : schedule.slots ≠ [⟨0, gateCycleDuration⟩]) (old old' : GateParameters) :
    parametersAfter gateCycleDuration schedule old =
      parametersAfter gateCycleDuration schedule old' := by
  rw [parametersAfter, parametersAfter]
  cases hp : computeParameters gateCycleDuration schedule with
  | error e => rfl
  | ok p =>
    have hne : p.durations ≠ [] := by
      rw [Ne, computeParameters_durations_eq_nil hvalid hp]
      rintro (h | h)
      · exact hnil h
      · exact hfull h
    dsimp only
    rw [if_neg hne, if_neg hne]

/-! ## Histories -/

theorem handleMessage_parameters (now : Int) (g : PeriodicGate) :
    (g.handleMessage now).parameters = g.parameters := rfl

theorem fireUntil_parameters (t : Int) : ∀ (fuel : Nat) (g : PeriodicGate),
    (fireUntil t fuel g).parameters = g.parameters
  | 0, _ => rfl
  | fuel + 1, g => by
    rw [fireUntil]
    split
    · rfl
    · split
      · rw [fireUntil_parameters, handleMessage_parameters]
      · rfl

theorem runUntil_parameters (t : Int) (g : PeriodicGate) :
    (g.runUntil t).parameters = g.parameters := by
  rw [runUntil]
  split
  · rfl
  · exact fireUntil_parameters _ _ _

/-- The gate runs until the time of the call, and the schedule is applied. -/
def reconfigure (gateCycleDuration : Int) (g : PeriodicGate) (call : Int × Schedule) :
    Except GateError PeriodicGate :=
  configureGate gateCycleDuration call.1 call.2 (g.runUntil call.1)

theorem reconfigure_parameters (gateCycleDuration : Int) (g : PeriodicGate)
    (call : Int × Schedule) :
    (reconfigure gateCycleDuration g call).map PeriodicGate.parameters =
      parametersAfter gateCycleDuration call.2 g.parameters := by
  rw [reconfigure, configureGate_parameters, runUntil_parameters]

/-- Two gates agree after a valid schedule iff it gives durations, or they agreed before it. -/
theorem reconfigure_agree_iff {gateCycleDuration : Int} {final : Schedule}
    (hvalid : final.Valid gateCycleDuration) (g₁ g₂ : PeriodicGate) (now₁ now₂ : Int) :
    (reconfigure gateCycleDuration g₁ (now₁, final)).map PeriodicGate.parameters =
        (reconfigure gateCycleDuration g₂ (now₂, final)).map PeriodicGate.parameters ↔
      (final.slots ≠ [] ∧ final.slots ≠ [⟨0, gateCycleDuration⟩]) ∨
        g₁.parameters = g₂.parameters := by
  rw [reconfigure_parameters, reconfigure_parameters]
  by_cases hslots : final.slots = [] ∨ final.slots = [⟨0, gateCycleDuration⟩]
  · rw [parametersAfter_of_valid hvalid hslots, parametersAfter_of_valid hvalid hslots,
      Except.ok.injEq, ← not_or]
    simp [hslots]
  · rw [not_or] at hslots
    exact iff_of_true (parametersAfter_of_slots hvalid hslots.1 hslots.2 _ _) (Or.inl hslots)

/--
What the schedule leaves in the parameters does not depend on the earlier schedules: two gates with
the same ini values, each with its own history, hold the same values after it.
-/
def Schedule.HistoryFree (gateCycleDuration : Int) (final : Schedule) : Prop :=
  ∀ (g₁ g₂ g₁' g₂' : PeriodicGate) (history₁ history₂ : List (Int × Schedule)) (now₁ now₂ : Int),
    g₁.parameters = g₂.parameters →
    run (reconfigure gateCycleDuration) history₁ g₁ = .ok g₁' →
    run (reconfigure gateCycleDuration) history₂ g₂ = .ok g₂' →
    (reconfigure gateCycleDuration g₁' (now₁, final)).map PeriodicGate.parameters =
      (reconfigure gateCycleDuration g₂' (now₂, final)).map PeriodicGate.parameters

/-- A gate with the values that the ini file has by default. -/
def defaultGate : PeriodicGate := create 0 true 0 ⟨[], rfl, fun _ h => nomatch h⟩

/-- A schedule that a gate takes over, whatever the cycle. -/
def shortSlot (gateCycleDuration : Int) : Schedule :=
  ⟨0, -1, gateCycleDuration + 1, [⟨0, 1⟩], true⟩

theorem parametersAfter_shortSlot {gateCycleDuration : Int} (hpos : 0 < gateCycleDuration)
    (old : GateParameters) :
    parametersAfter gateCycleDuration (shortSlot gateCycleDuration) old =
      .ok ⟨true, 0, [1, gateCycleDuration]⟩ := by
  have hend : (⟨0, 1⟩ : Slot).end ≤ gateCycleDuration := hpos
  have hp : computeParameters gateCycleDuration (shortSlot gateCycleDuration) =
      .ok ⟨true, 0, [1, gateCycleDuration]⟩ := by
    rw [computeParameters, shortSlot, scanSlots_cons_of_ok (scanSlot_of_zero rfl hend)]
    simp [scanSlots, Except.map, finishScan, Slot.end, mergeLast, hpos.ne']
  have hr : readDurationsPar [1, gateCycleDuration] = .ok _ :=
    readDurationsPar_of_valid (by simp) (by simp [hpos])
  rw [parametersAfter, hp]
  simp only [List.cons_ne_nil, if_false, hr, Except.map]

/--
**The outcome of a valid schedule is free of history iff it has a slot and is not the one slot that
fills the cycle.**
-/
theorem Schedule.historyFree_iff {gateCycleDuration : Int} (hcycle : 0 < gateCycleDuration)
    {final : Schedule} (hvalid : final.Valid gateCycleDuration) :
    final.HistoryFree gateCycleDuration ↔
      final.slots ≠ [] ∧ final.slots ≠ [⟨0, gateCycleDuration⟩] := by
  constructor
  · intro h
    -- one gate is fresh, the other one has a schedule with a short slot behind it
    have hold := reconfigure_parameters gateCycleDuration defaultGate
      (0, shortSlot gateCycleDuration)
    rw [parametersAfter_shortSlot hcycle] at hold
    cases hg : reconfigure gateCycleDuration defaultGate (0, shortSlot gateCycleDuration) with
    | error e =>
      rw [hg] at hold
      cases hold
    | ok g =>
      rw [hg] at hold
      have hagree := h defaultGate defaultGate defaultGate g [] [(0, shortSlot gateCycleDuration)]
        0 0 rfl rfl (by rw [run_cons_of_ok hg, run_nil])
      rcases (reconfigure_agree_iff hvalid _ _ _ _).mp hagree with hslots | hsame
      · exact hslots
      · rw [Except.ok.inj hold] at hsame
        cases congrArg GateParameters.durations hsame
  · intro hslots g₁ g₂ g₁' g₂' history₁ history₂ now₁ now₂ _ _ _
    exact (reconfigure_agree_iff hvalid _ _ _ _).mpr (Or.inl hslots)

/-- A slot of 40 ms in a cycle of 100 ms. -/
theorem historyFree_one_slot :
    (⟨0, -1, 100, [⟨0, 40⟩], true⟩ : Schedule).HistoryFree 100 := by
  have hvalid : (⟨0, -1, 100, [⟨0, 40⟩], true⟩ : Schedule).Valid 100 :=
    ⟨rfl, by decide, by decide, by decide⟩
  exact (Schedule.historyFree_iff (by decide) hvalid).mpr (by decide)

/-- A gate that was given the slot from 0 to 40 keeps it when its slots are taken away. -/
theorem empty_schedule_keeps_older :
    ¬ (⟨0, -1, 100, [], true⟩ : Schedule).HistoryFree 100 := by
  intro h
  have := h defaultGate defaultGate defaultGate
    (create 0 true 0 ⟨[40, 60], rfl, by decide⟩) [] [(0, ⟨0, -1, 100, [⟨0, 40⟩], true⟩)]
    100 100 rfl rfl (by decide)
  exact absurd this (by decide)

/-! ## The configurator that leaves all gates open -/

/-- `AlwaysOpenGateScheduleConfigurator::computeGateScheduling` -/
def AlwaysOpenGateScheduleConfigurator.computeGateScheduling {Port Application : Type}
    (gateCycleDuration : Int) (numGates : Port → Nat) (ports : List Port)
    (applications : List Application) : Output Port Application where
  gateSchedules := ports.map fun port =>
    (port, (List.range (numGates port)).map fun gateIndex =>
      { gateIndex := gateIndex, cycleStart := 0, cycleDuration := gateCycleDuration, slots := [],
        «open» := false })
  applicationStartTimes := applications.map fun application => (application, 0)

/-- Its schedules have no closed slot, so every gate is left as it is. -/
theorem configureGateScheduling_alwaysOpen {Port Application : Type} [DecidableEq Port]
    (gateCycleDuration now : Int) (numGates : Port → Nat) {ports : List Port}
    (applications : List Application) {port : Port} (hport : port ∈ ports) {gateIndex : Nat}
    (hindex : gateIndex < numGates port) (g : PeriodicGate) :
    configureGateScheduling gateCycleDuration now
      (AlwaysOpenGateScheduleConfigurator.computeGateScheduling gateCycleDuration numGates ports
        applications) port gateIndex g = .ok g := by
  rw [configureGateScheduling, AlwaysOpenGateScheduleConfigurator.computeGateScheduling,
    List.lookup_graph _ hport]
  simp [hindex, configureGate, computeParameters, scanSlots, Except.map, finishScan]

end CooperativeTsn
