import CooperativeTsn.Flow.Delivery
import CooperativeTsn.Gate.Execution

/-!
# Which schedules a gate accepts

`configureGateScheduling` turns slots into durations and makes their number even, and
`readDurationsPar` rejects durations that are not positive. Between two slots there is always a
duration for the gap, even if there is no gap.

* `mergeLast_acceptable_iff` — an even list is accepted iff what it was made from is positive
* `Ordered.layout_pos_iff` — gaps and slots are positive iff no two slots touch
* `acceptable_iff` — what is computed for a schedule is accepted iff none of its slots touch
* `valid_schedule_accepted_iff` — the same for the schedules of a reply, at their gates
-/

namespace CooperativeTsn

open Infra.Runs ValueMap

/-! ## Durations that are accepted -/

/-- There are no durations, or the gate reads them. -/
def GateParameters.Acceptable (p : GateParameters) : Prop :=
  p.durations = [] ∨ ∃ ds, readDurationsPar p.durations = .ok ds

theorem exists_readDurationsPar {par : List Int} :
    (∃ ds, readDurationsPar par = .ok ds) ↔ par.length % 2 = 0 ∧ ∀ d ∈ par, 0 < d := by
  constructor
  · rintro ⟨ds, h⟩
    rw [← readDurationsPar_values h]
    exact ⟨ds.even, ds.pos⟩
  · rintro ⟨heven, hpos⟩
    exact ⟨_, readDurationsPar_of_valid heven hpos⟩

/-- The gate does not throw iff the parameters can be computed and are acceptable. -/
theorem exists_configureGate {gateCycleDuration : Int} {schedule : Schedule} (now : Int)
    (g : PeriodicGate) :
    (∃ g', configureGate gateCycleDuration now schedule g = .ok g') ↔
      ∃ p, computeParameters gateCycleDuration schedule = .ok p ∧ p.Acceptable := by
  rw [configureGate]
  cases computeParameters gateCycleDuration schedule with
  | error e => simp
  | ok p =>
    simp only [Except.ok.injEq, exists_eq_left', GateParameters.Acceptable]
    by_cases hnil : p.durations = []
    · simp [hnil]
    · rw [if_neg hnil, writeParameters_eq]
      simp only [map_eq_ok, hnil, false_or]
      constructor
      · rintro ⟨_, ds, hds, -⟩
        exact ⟨ds, hds⟩
      · rintro ⟨ds, hds⟩
        exact ⟨_, ds, hds, rfl⟩

theorem mergeLast_even : ∀ ds : List Int, (mergeLast ds).2.length % 2 = 0
  | [] => rfl
  | [_] => rfl
  | d :: e :: ds => by
    rw [mergeLast]
    split
    · next hodd =>
      simp only [List.length_cons, List.length_dropLast] at hodd ⊢
      omega
    · next heven =>
      dsimp only
      omega

/-- **An even list is accepted iff what is between its ends is positive**, if the ends are. -/
theorem mergeLast_acceptable_iff {initiallyOpen : Bool} {d : Int} {ds : List Int} (hd : 0 < d)
    (hlast : ∀ l ∈ ds.getLast?, 0 < l) :
    (⟨initiallyOpen, (mergeLast (d :: ds)).1, (mergeLast (d :: ds)).2⟩ :
      GateParameters).Acceptable ↔ ∀ x ∈ ds, 0 < x := by
  rw [GateParameters.Acceptable, exists_readDurationsPar]
  simp only [mergeLast_even, true_and]
  match ds with
  | [] => simp [mergeLast]
  | e :: ds =>
    have hl := hlast _ (List.getLast?_eq_some_getLast (List.cons_ne_nil e ds))
    have hall : (∀ x ∈ e :: ds, 0 < x) ↔ ∀ x ∈ (e :: ds).dropLast, 0 < x := by
      conv_lhs => rw [← List.dropLast_concat_getLast (List.cons_ne_nil e ds)]
      rw [List.forall_mem_append, List.forall_mem_singleton]
      exact and_iff_left hl
    rw [mergeLast]
    split
    · rw [List.forall_mem_cons, hall]
      simp only [reduceCtorEq, false_or]
      exact and_iff_right (by omega)
    · rw [List.forall_mem_cons]
      simp only [reduceCtorEq, false_or]
      exact and_iff_right hd

/-! ## Slots that touch -/

theorem Ordered.le_start : ∀ {slots : List Slot} {e : Int}, Ordered e slots →
    ∀ slot ∈ slots, e ≤ slot.start ∧ slot.start < slot.end
  | slot :: slots, e, ⟨hgap, hpos, hrest⟩, s, hs => by
    have hend : slot.end = slot.start + slot.duration := rfl
    rcases List.mem_cons.mp hs with rfl | hs
    · omega
    · have := hrest.le_start s hs
      omega

/-- Gaps and slots are positive iff every slot is behind a gap. -/
theorem Ordered.layout_pos_iff : ∀ {slots : List Slot} {e : Int}, Ordered e slots →
    ((∀ d ∈ layout e slots, 0 < d) ↔ Spaced e slots)
  | [], e, _ => by simp [layout, Spaced]
  | slot :: slots, e, ⟨hgap, hpos, hrest⟩ => by
    rw [layout, List.forall_mem_cons, List.forall_mem_cons, hrest.layout_pos_iff, Spaced,
      Int.sub_pos]

/-- Every slot is behind a gap iff none starts where another one ends. -/
theorem Ordered.spaced_iff : ∀ {slots : List Slot} {e : Int}, Ordered e slots →
    (Spaced e slots ↔ ∀ b ∈ slots, e ≠ b.start ∧ ∀ a ∈ slots, a.end ≠ b.start)
  | [], e, _ => by simp [Spaced]
  | slot :: slots, e, ⟨hgap, hpos, hrest⟩ => by
    have hend : slot.end = slot.start + slot.duration := rfl
    -- no slot ends where itself or an earlier one starts, so only the later ones count
    have hstarts := hrest.le_start
    rw [Spaced, hrest.spaced_iff]
    constructor
    · rintro ⟨hlt, -, htouch⟩ b hb
      rcases List.mem_cons.mp hb with rfl | hrestb
      · refine ⟨by omega, fun a ha => ?_⟩
        rcases List.mem_cons.mp ha with rfl | hresta
        · omega
        · have := hstarts a hresta
          omega
      · have hb' := hstarts b hrestb
        obtain ⟨hslot, hothers⟩ := htouch b hrestb
        refine ⟨by omega, fun a ha => ?_⟩
        rcases List.mem_cons.mp ha with rfl | hresta
        · exact hslot
        · exact hothers a hresta
    · intro h
      have hfirst := (h slot List.mem_cons_self).1
      refine ⟨by omega, hpos, fun b hb => ?_⟩
      have hb' := h b (List.mem_cons_of_mem _ hb)
      exact ⟨hb'.2 slot List.mem_cons_self, fun a ha => hb'.2 a (List.mem_cons_of_mem _ ha)⟩

theorem Ordered.layout_getLast? : ∀ {slots : List Slot} {e : Int}, Ordered e slots →
    ∀ l ∈ (layout e slots).getLast?, 0 < l
  | slot :: slots, e, ⟨_, hpos, hrest⟩, l, hl => by
    rw [layout, List.getLast?_cons, List.getLast?_cons, Option.getD_some, Option.mem_some] at hl
    cases hlast : (layout slot.end slots).getLast? with
    | none =>
      rw [hlast, Option.getD_none] at hl
      omega
    | some last =>
      rw [hlast, Option.getD_some] at hl
      exact hrest.layout_getLast? l (by rw [hlast, hl]; rfl)

/-! ## Schedules -/

/-- Slots of positive length inside the cycle that do not overlap, in any order. -/
structure Schedule.WellPlaced (s : Schedule) : Prop where
  disjoint : s.slots.Pairwise fun a b => a.end ≤ b.start ∨ b.end ≤ a.start
  pos : ∀ slot ∈ s.slots, 0 < slot.duration
  inside : ∀ slot ∈ s.slots, 0 ≤ slot.start ∧ slot.end ≤ s.cycleDuration

/-- Sorted by start, such slots follow each other. -/
theorem ordered_of_sorted : ∀ {slots : List Slot} {e : Int},
    (slots.Pairwise fun a b => a.start ≤ b.start) →
    (slots.Pairwise fun a b => a.end ≤ b.start ∨ b.end ≤ a.start) →
    (∀ slot ∈ slots, 0 < slot.duration) → (∀ slot ∈ slots, e ≤ slot.start) → Ordered e slots
  | [], _, _, _, _, _ => trivial
  | slot :: slots, e, hsorted, hdisjoint, hpos, hstarts => by
    rw [List.pairwise_cons] at hsorted hdisjoint
    refine ⟨hstarts slot List.mem_cons_self, hpos slot List.mem_cons_self,
      ordered_of_sorted hsorted.2 hdisjoint.2 (fun s hs => hpos s (List.mem_cons_of_mem _ hs))
        fun s hs => ?_⟩
    have hlater := hsorted.1 s hs
    have hs' := hpos s (List.mem_cons_of_mem _ hs)
    have hend : s.end = s.start + s.duration := rfl
    rcases hdisjoint.1 s hs with h | h
    · exact h
    · omega

/-- The first slot of a cycle, behind a gap or at its start. -/
def lead (slot : Slot) : List Int := if slot.start = 0 then [] else [slot.start]

/-- What is scanned of slots that follow each other. -/
theorem scanSlots_ordered {gateCycleDuration : Int} {o : Bool} {slot : Slot} {slots : List Slot}
    (h : Ordered 0 (slot :: slots)) (hends : ∀ s ∈ slot :: slots, s.end ≤ gateCycleDuration) :
    ∃ b, scanSlots gateCycleDuration o (slot :: slots) ⟨!o, [], 0⟩ =
      .ok ⟨b, lead slot ++ slot.duration :: layout slot.end slots,
        slot.end + (layout slot.end slots).sum⟩ := by
  obtain ⟨hstart, hpos, hrest⟩ := h
  have hend : slot.end = slot.start + slot.duration := rfl
  have hstarts : ∀ s ∈ slots, 0 < s.start := by
    intro s hs
    have := hrest.le_start s hs
    omega
  have hlater : ∀ s ∈ slots, s.end ≤ gateCycleDuration :=
    fun s hs => hends s (List.mem_cons_of_mem _ hs)
  rw [lead]
  by_cases hzero : slot.start = 0
  · rw [if_pos hzero, scanSlots_cons_of_ok (scanSlot_of_zero hzero (hends slot List.mem_cons_self)),
      scanSlots_layout hrest hstarts hlater]
    exact ⟨_, rfl⟩
  · rw [if_neg hzero, scanSlots_cons_of_ok (scanSlot_of_gap (by omega)
      (hends slot List.mem_cons_self) hstart), scanSlots_layout hrest hstarts hlater]
    exact ⟨!o, by simp⟩

/-- No slot ends behind the cycle of the gates, or they throw. -/
theorem scanSlots_ends {gateCycleDuration : Int} {o : Bool} : ∀ {slots : List Slot}
    {acc scan : SlotScan}, scanSlots gateCycleDuration o slots acc = .ok scan →
    ∀ slot ∈ slots, slot.end ≤ gateCycleDuration
  | slot :: slots, acc, scan, h, s, hs => by
    obtain ⟨acc', hacc, hrest⟩ := scanSlots_cons_eq_ok.mp h
    rcases List.mem_cons.mp hs with rfl | hs
    · exact (scanSlot_eq_ok.mp hacc).1
    · exact scanSlots_ends hrest s hs

theorem Ordered.layout_sum_nonneg : ∀ {slots : List Slot} {e : Int}, Ordered e slots →
    0 ≤ (layout e slots).sum
  | [], _, _ => Int.le_refl _
  | slot :: slots, e, ⟨hgap, hpos, hrest⟩ => by
    have ih := hrest.layout_sum_nonneg
    rw [layout, List.sum_cons, List.sum_cons]
    omega

/-- **What is made of the scanned durations is accepted iff no slot touches the one before.** -/
theorem finishScan_acceptable_iff {cycleDuration : Int} {b : Bool} {slot : Slot}
    {slots : List Slot} (h : Ordered 0 (slot :: slots))
    (hinside : ∀ s ∈ slot :: slots, s.end ≤ cycleDuration) :
    (finishScan cycleDuration ⟨b, lead slot ++ slot.duration :: layout slot.end slots,
      slot.end + (layout slot.end slots).sum⟩).Acceptable ↔ Spaced slot.end slots := by
  obtain ⟨hstart, hpos, hrest⟩ := h
  have hend : slot.end = slot.start + slot.duration := rfl
  have hsum := hrest.layout_sum_nonneg
  have hle := layout_sum_le (hinside slot List.mem_cons_self)
    fun s hs => hinside s (List.mem_cons_of_mem _ hs)
  -- the rest of the cycle is positive if it is added
  obtain ⟨rest, hrestpos, hdurations⟩ : ∃ rest : List Int, (∀ r ∈ rest, 0 < r) ∧
      ∀ ds : List Int, (if cycleDuration - (slot.end + (layout slot.end slots).sum) ≠ 0 then
        ds ++ [cycleDuration - (slot.end + (layout slot.end slots).sum)] else ds) = ds ++ rest := by
    by_cases hrem : cycleDuration - (slot.end + (layout slot.end slots).sum) = 0
    · exact ⟨[], nofun, fun ds => by rw [if_neg (not_not.mpr hrem), List.append_nil]⟩
    · exact ⟨_, List.forall_mem_singleton.mpr (by omega), fun ds => if_pos hrem⟩
  have hlast : ∀ l ∈ (layout slot.end slots ++ rest).getLast?, 0 < l := by
    intro l hl
    rw [List.getLast?_append] at hl
    rcases Option.or_eq_some_iff.mp hl with hl | ⟨-, hl⟩
    · exact hrestpos l (List.mem_of_getLast? hl)
    · exact hrest.layout_getLast? l hl
  have hall : (∀ x ∈ layout slot.end slots ++ rest, 0 < x) ↔ Spaced slot.end slots := by
    rw [List.forall_mem_append, hrest.layout_pos_iff]
    exact and_iff_left hrestpos
  rw [finishScan]
  simp only [hdurations]
  rw [if_pos (by omega), List.append_assoc, List.cons_append, lead]
  by_cases hzero : slot.start = 0
  · rw [if_pos hzero, List.nil_append, mergeLast_acceptable_iff hpos hlast, hall]
  · rw [if_neg hzero, List.singleton_append, mergeLast_acceptable_iff (by omega),
      List.forall_mem_cons, hall]
    · exact and_iff_right hpos
    · intro l hl
      rw [List.getLast?_cons, Option.mem_some] at hl
      subst hl
      cases hlast' : (layout slot.end slots ++ rest).getLast? with
      | none => exact hpos
      | some last => exact hlast last hlast'

/-- **A schedule is accepted iff no slot ends behind the cycle of the gates, and no two touch.** -/
theorem acceptable_iff {gateCycleDuration : Int} {schedule : Schedule}
    (h : Ordered 0 schedule.slots)
    (hinside : ∀ slot ∈ schedule.slots, slot.end ≤ schedule.cycleDuration) :
    (∃ p, computeParameters gateCycleDuration schedule = .ok p ∧ p.Acceptable) ↔
      (∀ slot ∈ schedule.slots, slot.end ≤ gateCycleDuration) ∧
        ∀ a ∈ schedule.slots, ∀ b ∈ schedule.slots, a.end ≠ b.start := by
  obtain ⟨gateIndex, cycleStart, cycleDuration, slots, o⟩ := schedule
  dsimp only at h hinside ⊢
  by_cases hends : ∀ slot ∈ slots, slot.end ≤ gateCycleDuration
  · rw [and_iff_right hends]
    match slots with
    | [] =>
      refine iff_of_true ⟨_, rfl, Or.inl rfl⟩ (by simp)
    | slot :: slots =>
      obtain ⟨b, hscan⟩ := scanSlots_ordered (o := o) h hends
      -- a first slot at time zero has no gap before it, and needs none
      have htouch : Spaced slot.end slots ↔
          ∀ a ∈ slot :: slots, ∀ b ∈ slot :: slots, a.end ≠ b.start := by
        obtain ⟨hstart, hpos, hrest⟩ := h
        have hbefore : Ordered (slot.start - 1) (slot :: slots) := ⟨by omega, hpos, hrest⟩
        have hspaced := hbefore.spaced_iff
        rw [Spaced] at hspaced
        constructor
        · intro hs a ha b hb
          exact (hspaced.mp ⟨by omega, hpos, hs⟩ b hb).2 a ha
        · intro hne
          refine (hspaced.mpr fun b hb => ⟨?_, fun a ha => hne a ha b hb⟩).2.2
          have := hbefore.le_start b hb
          have hfirst : slot.start ≤ b.start := by
            rcases List.mem_cons.mp hb with rfl | hb
            · omega
            · have := hrest.le_start b hb
              have hend : slot.end = slot.start + slot.duration := rfl
              omega
          omega
      rw [computeParameters, hscan, ← htouch]
      simp only [Except.map, Except.ok.injEq, exists_eq_left']
      exact finishScan_acceptable_iff h hinside
  · refine iff_of_false ?_ fun hcond => hends hcond.1
    rintro ⟨p, hp, -⟩
    obtain ⟨scan, hscan, -⟩ := computeParameters_ok hp
    exact hends (scanSlots_ends hscan)

/-! ## The schedules of a reply -/

section

variable {Module : Type} [DecidableEq Module] {tree : ModuleTree Module} {order : SlotSort}
  {numGates : PortId Module → Int} {input : Input Module} {json : ValueMap}
  {output : Output (PortId Module) Nat}

/-- Every schedule of the output has its slots sorted by start. -/
theorem slots_sorted (hconvert : convertJsonToOutput tree order numGates input json = .ok output)
    {port : PortId Module} {schedules : List Schedule}
    (hport : output.schedulesOf port = some schedules) {schedule : Schedule}
    (h : schedule ∈ schedules) : schedule.slots.Pairwise fun a b => a.start ≤ b.start := by
  have hstored := (schedulesOf_eq hconvert port).1
  rw [hport, Option.getD_some] at hstored
  subst hstored
  obtain ⟨jsonPort, -, h⟩ := List.mem_flatMap.mp h
  obtain ⟨gateIndex, -, rfl⟩ := List.mem_map.mp h
  exact order.sort_sorted _

/-- The schedule that a gate of the port is configured from. -/
theorem configureGateScheduling_eq {port : PortId Module} {schedules : List Schedule}
    (hport : output.schedulesOf port = some schedules) {gateIndex : Nat} {schedule : Schedule}
    (hschedule : schedules[gateIndex]? = some schedule) (gateCycleDuration now : Int)
    (g : PeriodicGate) :
    configureGateScheduling gateCycleDuration now output port gateIndex g =
      configureGate gateCycleDuration now schedule g := by
  rw [Output.schedulesOf] at hport
  rw [configureGateScheduling]
  split
  · next hnone =>
    rw [hnone] at hport
    cases hport
  · next found hfound =>
    obtain rfl := Option.some.inj (hfound.symm.trans hport)
    rw [hschedule]

/--
The gate of a port is left without durations or gets some that it reads, and whatever its past is,
it does not throw.
-/
structure Accepted (gateCycleDuration : Int) (output : Output (PortId Module) Nat)
    (port : PortId Module) (gateIndex : Nat) (schedule : Schedule) : Prop where
  durations : ∃ p, computeParameters gateCycleDuration schedule = .ok p ∧ p.Acceptable
  configured : ∀ now g, ∃ g',
    configureGateScheduling gateCycleDuration now output port gateIndex g = .ok g'

/--
**A valid schedule is accepted iff none of its slots starts where another one ends**, given that
they end within the cycle of the gates too.
-/
theorem valid_schedule_accepted_iff
    (hconvert : convertJsonToOutput tree order numGates input json = .ok output)
    {port : PortId Module} {schedules : List Schedule}
    (hport : output.schedulesOf port = some schedules) {gateIndex : Nat} {schedule : Schedule}
    (hschedule : schedules[gateIndex]? = some schedule) (hplaced : schedule.WellPlaced)
    (gateCycleDuration : Int) :
    Accepted gateCycleDuration output port gateIndex schedule ↔
      (∀ slot ∈ schedule.slots, slot.end ≤ gateCycleDuration) ∧
        ∀ a ∈ schedule.slots, ∀ b ∈ schedule.slots, a.end ≠ b.start := by
  have hordered := ordered_of_sorted (slots_sorted hconvert hport (List.mem_of_getElem? hschedule))
    hplaced.disjoint hplaced.pos fun slot hslot => (hplaced.inside slot hslot).1
  rw [← acceptable_iff hordered fun slot hslot => (hplaced.inside slot hslot).2]
  constructor
  · exact Accepted.durations
  · intro h
    refine ⟨h, fun now g => ?_⟩
    rw [configureGateScheduling_eq hport hschedule]
    exact (exists_configureGate now g).mpr h

end

/-! ## Slots behind a switch -/

/-- The schedule that a reply gives to the gate 4 of the first port of the network card. -/
theorem exists_scheduleOfFour {json : ValueMap} (schedule : Schedule)
    (hflows : getArray json "flows" = .ok [])
    (h : (convertSwitches carNetwork.tree stableSlotSort (fun _ => 8) bridgedTopology.switches
      json).toOption.any (fun schedules => ((⟨Infra.Assoc.collect schedules, []⟩ :
        Output (PortId (Fin 14)) Nat).schedulesOf (2, 0)).any fun found =>
          decide (found[4]? = some schedule)) = true) :
    ∃ output found, convertJsonToOutput carNetwork.tree stableSlotSort (fun _ => 8)
        ⟨[], bridgedTopology.switches, []⟩ json = .ok output ∧
      output.schedulesOf (2, 0) = some found ∧ found[4]? = some schedule := by
  obtain ⟨schedules, hschedules, h⟩ := exists_of_any h
  obtain ⟨found, hfound, h⟩ := (Option.any_eq_true _ _).mp h
  exact ⟨_, found, convertJsonToOutput_of_noFlows hschedules hflows, hfound, of_decide_eq_true h⟩

/-- Two slots with a gap in between. -/
theorem schedule_accepted_with_gap :
    ∃ output found, convertJsonToOutput carNetwork.tree stableSlotSort (fun _ => 8)
        ⟨[], bridgedTopology.switches, []⟩ replyForFour = .ok output ∧
      output.schedulesOf (2, 0) = some found ∧
      found[4]? = some ⟨4, -1, 1000000000, [⟨0, 100000000⟩, ⟨300000000, 100000000⟩], true⟩ ∧
      Accepted 1000000000 output (2, 0) 4
        ⟨4, -1, 1000000000, [⟨0, 100000000⟩, ⟨300000000, 100000000⟩], true⟩ := by
  obtain ⟨output, found, hconvert, hfound, hschedule⟩ := exists_scheduleOfFour
    ⟨4, -1, 1000000000, [⟨0, 100000000⟩, ⟨300000000, 100000000⟩], true⟩
    replyForFour_flows (by decide +kernel)
  exact ⟨output, found, hconvert, hfound, hschedule,
    (valid_schedule_accepted_iff hconvert hfound hschedule ⟨by decide, by decide, by decide⟩
      1000000000).mpr ⟨by decide, by decide⟩⟩

/-- Two slots for the priority 4, the second of which starts where the first one ends. -/
def replyTouching : ValueMap :=
  record [("switches", .array [.map (record [("name", .string "tsnNic"), ("ports", .array [
    portValue "tsnNic-eth[0]" [.map (record [("priority", .int 4 ""),
      ("slotsData", .array [slotValue 0 100, slotValue 100 50])])]])])]), ("flows", .array [])]

/-- The gate rejects the gap between them, which has no length. -/
theorem touching_slots_rejected :
    ∃ output found, convertJsonToOutput carNetwork.tree stableSlotSort (fun _ => 8)
        ⟨[], bridgedTopology.switches, []⟩ replyTouching = .ok output ∧
      output.schedulesOf (2, 0) = some found ∧
      found[4]? = some ⟨4, -1, 1000000000, [⟨0, 100000000⟩, ⟨100000000, 50000000⟩], true⟩ ∧
      (⟨4, -1, 1000000000, [⟨0, 100000000⟩, ⟨100000000, 50000000⟩], true⟩ : Schedule).WellPlaced ∧
      configureGateScheduling 1000000000 0 output (2, 0) 4 defaultGate =
        .error (.unacceptedDuration 0 1) ∧
      ¬ Accepted 1000000000 output (2, 0) 4
        ⟨4, -1, 1000000000, [⟨0, 100000000⟩, ⟨100000000, 50000000⟩], true⟩ := by
  have hflows : getArray replyTouching "flows" = .ok [] := by
    rw [getArray_eq_ok, replyTouching, lookup_record]
    simp
  obtain ⟨output, found, hconvert, hfound, hschedule⟩ := exists_scheduleOfFour
    ⟨4, -1, 1000000000, [⟨0, 100000000⟩, ⟨100000000, 50000000⟩], true⟩
    hflows (by decide +kernel)
  have herror : configureGateScheduling 1000000000 0 output (2, 0) 4 defaultGate =
      .error (.unacceptedDuration 0 1) := by
    rw [configureGateScheduling_eq hfound hschedule]
    decide
  refine ⟨output, found, hconvert, hfound, hschedule, ⟨by decide, by decide, by decide⟩, herror,
    fun h => ?_⟩
  obtain ⟨g', hg'⟩ := h.configured 0 defaultGate
  rw [herror] at hg'
  cases hg'

end CooperativeTsn
