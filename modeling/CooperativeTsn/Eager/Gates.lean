import CooperativeTsn.Eager.StartOffset
import CooperativeTsn.Flow.Acceptance
import CooperativeTsn.Gate.GuardBand
import Mathlib.Data.List.Pairwise

/-!
# The gates of a port

The schedules that are made of the reserved slots, and the gates that run them. Slots are compared
as they were reserved, and not modulo the cycle, so they have to lie within one.

* `reserved_within` — slots have a length, and are not before the cycle
* `outputSchedule_separated`, `outputSchedule_excludes` — the schedules of a port
* `gates_never_together` — the gates of a port never transmit at once
-/

namespace CooperativeTsn.Eager

open Infra.Runs Infra.Reservation PeriodicGate

variable {Module Nic : Type}

/-! ## Slots within the cycle -/

section

variable [DecidableEq Nic] {net : WiredNetwork Module Nic} {flows : List (Flow Module)} {fuel : Nat}
  {gateCycleDuration : Int} {startTimes : List Int} {s : InterfaceSchedules Nic}

/-- Slots have a length, and are not before the cycle. -/
theorem reserved_within (hcycle : 0 ≤ gateCycleDuration)
    (hpos : ∀ flow ∈ flows, ∀ nic,
      0 < net.transmissionDuration nic flow.startApplication.packetLength)
    (h : reserveFlows net gateCycleDuration fuel flows = .ok (startTimes, s)) (nic : Nic) :
    ∀ slot ∈ s nic, 0 ≤ slot.gateOpenTime ∧ slot.gateOpenTime < slot.gateCloseTime := by
  refine reserveFlows_invariant
    (I := fun s => ∀ nic, ∀ slot ∈ s nic, 0 ≤ slot.gateOpenTime ∧
      slot.gateOpenTime < slot.gateCloseTime)
    (P := fun t => 0 ≤ t) (fun flow hflow => ⟨fun s booked t hI ht nic => ?_, fun s nic t ht => ?_⟩)
    (fun t ht => ht hcycle) h (fun _ => List.forall_mem_nil _) nic
  · have hle : t ≤ (slotFor net flow s booked t).gateOpenTime := le_findGateOpenTime ..
    have hclose : (slotFor net flow s booked t).gateCloseTime =
      (slotFor net flow s booked t).gateOpenTime +
        net.transmissionDuration booked flow.startApplication.packetLength := rfl
    have hduration := hpos flow hflow booked
    by_cases hnic : nic = booked
    · subst hnic
      rw [pushSlot_self]
      refine List.forall_mem_append.mpr ⟨hI nic, List.forall_mem_singleton.mpr ?_⟩
      omega
    · rw [pushSlot_of_ne hnic]
      exact hI nic
  · have hle : t ≤ (slotFor net flow s nic t).gateOpenTime := le_findGateOpenTime ..
    have hclose : (slotFor net flow s nic t).gateCloseTime =
      (slotFor net flow s nic t).gateOpenTime +
        net.transmissionDuration nic flow.startApplication.packetLength := rfl
    have hduration := hpos flow hflow nic
    have hpropagation := net.propagationDelay_nonneg nic
    omega

end

/-! ## The schedules of a port -/

section

variable {gateCycleDuration gap : Int} {slots : List GateSlot} {order : SlotSort}

/-- The slot as it is written to the output. -/
def GateSlot.toSlot (slot : GateSlot) : Slot :=
  ⟨slot.gateOpenTime, slot.gateCloseTime - slot.gateOpenTime⟩

@[simp] theorem GateSlot.toSlot_end (slot : GateSlot) : slot.toSlot.end = slot.gateCloseTime := by
  show slot.gateOpenTime + (slot.gateCloseTime - slot.gateOpenTime) = slot.gateCloseTime
  omega

/-- The slots lie within the cycle, one after another in some order. -/
structure Fitting (gateCycleDuration gap : Int) (slots : List GateSlot) : Prop where
  gap_pos : 0 < gap
  clear : Clear gap (slots.map GateSlot.interval)
  within : ∀ slot ∈ slots, 0 ≤ slot.gateOpenTime ∧ slot.gateOpenTime < slot.gateCloseTime ∧
    slot.gateCloseTime ≤ gateCycleDuration

/-- A slot within the cycle is written as it is. -/
theorem outputSlots_eq {slot : GateSlot} (h0 : 0 ≤ slot.gateOpenTime)
    (hlt : slot.gateOpenTime < slot.gateCloseTime) (hle : slot.gateCloseTime ≤ gateCycleDuration) :
    outputSlots gateCycleDuration slot = [slot.toSlot] := by
  unfold outputSlots
  dsimp only
  rw [if_neg (by omega), simtimeModulo, Int.tmod_eq_of_lt h0 (by omega), GateSlot.toSlot]

theorem Fitting.slots_perm (h : Fitting gateCycleDuration gap slots) (i : Nat) :
    (outputSchedule order gateCycleDuration slots i).slots.Perm
      ((slots.filter fun slot => slot.gateOpenIndex = (i : Int)).map GateSlot.toSlot) := by
  refine (order.sort_perm _).trans (List.Perm.of_eq ?_)
  rw [List.flatMap_congr fun slot hslot => ?_, List.map_eq_flatMap]
  obtain ⟨h0, hlt, hle⟩ := h.within slot (List.mem_of_mem_filter hslot)
  exact outputSlots_eq h0 hlt hle

theorem Fitting.mem_slots (h : Fitting gateCycleDuration gap slots) {i : Nat} {slot : Slot} :
    slot ∈ (outputSchedule order gateCycleDuration slots i).slots ↔
      ∃ reserved ∈ slots, reserved.gateOpenIndex = (i : Int) ∧ reserved.toSlot = slot := by
  rw [(h.slots_perm i).mem_iff, List.mem_map]
  simp only [List.mem_filter, decide_eq_true_eq, and_assoc]

/-- **The slots of a gate are in order, with gaps between them.** -/
theorem outputSchedule_separated (h : Fitting gateCycleDuration gap slots) (i : Nat) :
    (outputSchedule order gateCycleDuration slots i).Separated gateCycleDuration := by
  have hpos : ∀ slot ∈ (outputSchedule order gateCycleDuration slots i).slots,
      0 ≤ slot.start ∧ 0 < slot.duration ∧ slot.end ≤ gateCycleDuration := by
    intro slot hslot
    obtain ⟨reserved, hreserved, -, rfl⟩ := h.mem_slots.mp hslot
    obtain ⟨h0, hlt, hle⟩ := h.within reserved hreserved
    rw [GateSlot.toSlot_end, GateSlot.toSlot]
    exact ⟨h0, by dsimp only; omega, hle⟩
  -- two slots keep the gap in one order or the other, and they are sorted
  have hapart : (outputSchedule order gateCycleDuration slots i).slots.Pairwise
      fun a b => a.end + gap ≤ b.start ∨ b.end + gap ≤ a.start := by
    refine ((h.slots_perm i).pairwise_iff fun h => Or.symm h).mpr ?_
    rw [List.pairwise_map]
    have hclear := h.clear
    rw [Clear, List.pairwise_map] at hclear
    refine (hclear.sublist List.filter_sublist).imp fun {a b} hab => ?_
    rw [GateSlot.toSlot_end, GateSlot.toSlot_end]
    exact hab
  have hsorted : (outputSchedule order gateCycleDuration slots i).slots.Pairwise
      fun a b => a.start ≤ b.start := order.sort_sorted _
  have hgap := h.gap_pos
  refine ⟨rfl, rfl, List.Pairwise.isChain ?_, fun slot hslot => (hpos slot hslot).2.1,
    fun slot hslot => ⟨(hpos slot hslot).1, (hpos slot hslot).2.2⟩⟩
  refine (hapart.and hsorted).imp_of_mem fun {a b} ha hb hab => ?_
  have hb' := (hpos b hb).2.1
  have hend : b.end = b.start + b.duration := rfl
  rcases hab.1 with hlt | hlt
  · omega
  · omega

/-- **The slots of two gates do not overlap.** -/
theorem outputSchedule_excludes (h : Fitting gateCycleDuration gap slots) {i j : Nat}
    (hne : i ≠ j) :
    (outputSchedule order gateCycleDuration slots i).Excludes
      (outputSchedule order gateCycleDuration slots j) := by
  intro a ha b hb
  obtain ⟨reserved, hreserved, hi, rfl⟩ := h.mem_slots.mp ha
  obtain ⟨reserved', hreserved', hj, rfl⟩ := h.mem_slots.mp hb
  have hdiffer : reserved ≠ reserved' := by
    rintro rfl
    omega
  have hclear := h.clear
  rw [Clear, List.pairwise_map] at hclear
  have hsymm : Std.Symm fun a b : GateSlot => a.interval.Apart gap b.interval :=
    ⟨fun _ _ hab => hab.symm⟩
  have hgap := h.gap_pos
  rw [GateSlot.toSlot_end, GateSlot.toSlot_end]
  rcases hclear.forall hreserved hreserved' hdiffer with hlt | hlt
  · exact Or.inl ((Int.le_add_of_nonneg_right hgap.le).trans hlt)
  · exact Or.inr ((Int.le_add_of_nonneg_right hgap.le).trans hlt)

end

/-! ## The gates of a port -/

/-- A gate whose slots leave a time of the cycle free gets durations. -/
theorem durations_ne_nil {gateCycleDuration t : Int} {schedule : Schedule} {p : GateParameters}
    (h : schedule.Separated gateCycleDuration) (hne : schedule.slots ≠ [])
    (ht : 0 ≤ t ∧ t < gateCycleDuration)
    (hfree : ∀ slot ∈ schedule.slots, slot.end ≤ t ∨ t < slot.start)
    (hp : computeParameters gateCycleDuration schedule = .ok p) : p.durations ≠ [] := by
  obtain ⟨scan, hscan, rfl⟩ := computeParameters_ok hp
  obtain ⟨slot, slots, hslots⟩ := List.exists_cons_of_ne_nil hne
  have hpos := h.pos
  have hinside := h.inside
  have hgaps := h.gaps
  rw [hslots] at hpos hinside hgaps hfree
  have hspaced := spaced_of_isChain hgaps fun s hs => hpos s (List.mem_cons_of_mem _ hs)
  have hslot := hinside slot List.mem_cons_self
  have hduration := hpos slot List.mem_cons_self
  have hend : slot.end = slot.start + slot.duration := rfl
  have hordered : Ordered 0 (slot :: slots) := ⟨hslot.1, hduration, hspaced.ordered⟩
  obtain ⟨b, hscan'⟩ := scanSlots_ordered (o := schedule.open) hordered
    fun s hs => (hinside s hs).2
  rw [hslots, hscan', Except.ok.injEq] at hscan
  subst hscan
  have hsum := hspaced.ordered.layout_sum_nonneg
  rw [Ne, finishScan_durations_eq_nil, h.cycle]
  dsimp only
  rw [if_pos (show slot.end + (layout slot.end slots).sum ≠ 0 by omega)]
  intro hle
  simp only [List.length_append, List.length_cons] at hle
  -- only a single slot that fills the cycle leaves no durations
  have hnil : slots = [] := by
    cases slots with
    | nil => rfl
    | cons s rest =>
      simp only [layout, List.length_cons] at hle
      omega
  subst hnil
  have hfirst := hfree slot List.mem_cons_self
  simp only [layout, List.sum_nil, List.length_nil, Int.add_zero] at hle
  rw [lead] at hle
  by_cases hzero : slot.start = 0
  · have hrest : gateCycleDuration ≠ slot.end := by omega
    rw [if_pos hzero, if_pos ⟨by omega, hrest⟩] at hle
    omega
  · rw [if_neg hzero, List.length_singleton] at hle
    omega

section

variable [DecidableEq Nic] {net : WiredNetwork Module Nic} {flows : List (Flow Module)} {fuel : Nat}
  {gateCycleDuration : Int} {startTimes : List Int} {s : InterfaceSchedules Nic} {order : SlotSort}
  {nic : Nic} {i j : Nat}

/-- The schedule that a gate is configured from. -/
theorem configureGateScheduling_makeOutput {now : Int} {g g' : PeriodicGate}
    (h : configureGateScheduling gateCycleDuration now
      (makeOutput net order gateCycleDuration startTimes s) nic i g = .ok g') :
    configureGate gateCycleDuration now (outputSchedule order gateCycleDuration (s nic) i) g =
      .ok g' := by
  rw [configureGateScheduling] at h
  split at h
  · cases h
  · next schedules hlookup =>
    obtain ⟨before, after, hports, -⟩ := List.lookup_eq_some_iff.mp hlookup
    have hmem : (nic, schedules) ∈
        (makeOutput net order gateCycleDuration startTimes s).gateSchedules := by
      rw [hports]
      exact List.mem_append_right _ List.mem_cons_self
    obtain ⟨⟨port, numGates⟩, -, hport⟩ := List.mem_map.mp hmem
    obtain ⟨rfl, rfl⟩ := Prod.mk.inj hport
    split at h
    · cases h
    · next schedule hschedule =>
      rw [List.getElem?_map] at hschedule
      obtain ⟨index, hindex, rfl⟩ := Option.map_eq_some_iff.mp hschedule
      obtain ⟨_, hget⟩ := List.getElem?_eq_some_iff.mp hindex
      rw [List.getElem_range] at hget
      exact hget ▸ h

/-- Slots that are reserved in order, within the cycle. -/
theorem reserved_fitting (hcycle : 0 ≤ gateCycleDuration)
    (hpos : ∀ flow ∈ flows, ∀ nic,
      0 < net.transmissionDuration nic flow.startApplication.packetLength)
    (h : reserveFlows net gateCycleDuration fuel flows = .ok (startTimes, s))
    (hgap : 0 < net.interFrameGap nic) (hfirst : FirstClosesFirst (s nic))
    (hinside : ∀ slot ∈ s nic, slot.gateCloseTime ≤ gateCycleDuration) :
    Fitting gateCycleDuration (net.interFrameGap nic) (s nic) :=
  ⟨hgap, (reserved_orderly h nic).all hfirst, fun slot hslot =>
    have hwithin := reserved_within hcycle hpos h nic slot hslot
    ⟨hwithin.1, hwithin.2, hinside slot hslot⟩⟩

/-- The slots of one gate leave those of another one free. -/
theorem Fitting.durations_ne_nil {slots : List GateSlot} {gap : Int} {p : GateParameters}
    (h : Fitting gateCycleDuration gap slots) (hne : i ≠ j)
    (hi : ∃ slot ∈ slots, slot.gateOpenIndex = (i : Int))
    (hj : ∃ slot ∈ slots, slot.gateOpenIndex = (j : Int))
    (hp : computeParameters gateCycleDuration (outputSchedule order gateCycleDuration slots i) =
      .ok p) : p.durations ≠ [] := by
  obtain ⟨slot, hslot, hindex⟩ := hi
  obtain ⟨slot', hslot', hindex'⟩ := hj
  obtain ⟨h0, hlt, hle⟩ := h.within slot' hslot'
  have hseparated : (outputSchedule order gateCycleDuration slots i).Separated gateCycleDuration :=
    outputSchedule_separated h i
  refine Eager.durations_ne_nil hseparated ?_ ⟨h0, by omega⟩ ?_ hp
  · exact List.ne_nil_of_mem (h.mem_slots.mpr ⟨slot, hslot, hindex, rfl⟩)
  · intro a ha
    have hother : slot'.toSlot ∈ (outputSchedule order gateCycleDuration slots j).slots :=
      h.mem_slots.mpr ⟨slot', hslot', hindex', rfl⟩
    have hstart : slot'.toSlot.start = slot'.gateOpenTime := rfl
    have hend := slot'.toSlot_end
    rcases outputSchedule_excludes h hne a ha _ hother with hab | hba
    · exact Or.inl (hstart ▸ hab)
    · have hpos := hseparated.inside a ha
      exact Or.inr (by omega)

/-- **Two gates of a port never transmit at the same time**, if the slots of the port lie within the
cycle and the one that was reserved first closes first. -/
theorem gates_never_together {now t t' x dataLength dataLength' : Int} {bitrate bitrate' : Rat}
    {settings settings' : GateSettings} {g g' g₀ g₀' : PeriodicGate}
    (hcycle : 0 ≤ gateCycleDuration)
    (hpos : ∀ flow ∈ flows, ∀ nic,
      0 < net.transmissionDuration nic flow.startApplication.packetLength)
    (h : reserveFlows net gateCycleDuration fuel flows = .ok (startTimes, s))
    (hgap : 0 < net.interFrameGap nic) (hfirst : FirstClosesFirst (s nic))
    (hinside : ∀ slot ∈ s nic, slot.gateCloseTime ≤ gateCycleDuration) (hne : i ≠ j)
    (hi : ∃ slot ∈ s nic, slot.gateOpenIndex = (i : Int))
    (hj : ∃ slot ∈ s nic, slot.gateOpenIndex = (j : Int))
    (hg : configureGateScheduling gateCycleDuration now
      (makeOutput net order gateCycleDuration startTimes s) nic i g₀ = .ok g)
    (hg' : configureGateScheduling gateCycleDuration now
      (makeOutput net order gateCycleDuration startTimes s) nic j g₀' = .ok g')
    (hbitrate : settings.bitrate = some bitrate) (hbitrate' : settings'.bitrate = some bitrate')
    (hguard : settings.enableImplicitGuardBand = true)
    (hguard' : settings'.enableImplicitGuardBand = true) (ht : now ≤ t) (ht' : now ≤ t')
    (hpull : settings.canPullPacket t (some dataLength) (g.runUntil t) = some dataLength)
    (hpull' : settings'.canPullPacket t' (some dataLength') (g'.runUntil t') = some dataLength')
    (hx : t ≤ x ∧ x < t + settings.flowDuration bitrate dataLength) :
    ¬ (t' ≤ x ∧ x < t' + settings'.flowDuration bitrate' dataLength') := by
  have hfitting := reserved_fitting hcycle hpos h hgap hfirst hinside
  have hconf := configureGateScheduling_makeOutput hg
  have hconf' := configureGateScheduling_makeOutput hg'
  obtain ⟨p, hp, -⟩ := (exists_configureGate now g₀).mp ⟨g, hconf⟩
  obtain ⟨p', hp', -⟩ := (exists_configureGate now g₀').mp ⟨g', hconf'⟩
  have hdurations := hfitting.durations_ne_nil hne hi hj hp
  have hdurations' := hfitting.durations_ne_nil hne.symm hj hi hp'
  rintro ⟨htx', hx'⟩
  obtain ⟨a, ha, hle, hlt⟩ := transmission_in_slot (outputSchedule_separated hfitting i) hp
    hdurations hconf hbitrate hguard ht hpull hx.1 hx.2
  obtain ⟨b, hb, hle', hlt'⟩ := transmission_in_slot (outputSchedule_separated hfitting j) hp'
    hdurations' hconf' hbitrate' hguard' ht' hpull' htx' hx'
  rcases outputSchedule_excludes hfitting hne a ha b hb with hab | hba
  · omega
  · omega

end

def carGate : PeriodicGate := create 0 true 0 ⟨[10000000, 90000000], rfl, by decide⟩

def carGate' : PeriodicGate :=
  create 0 false 9900000 ⟨[30000000, 20000000, 30000000, 20000000], rfl, by decide⟩

theorem carGate_configured : configureGateScheduling 100000000 0
    (makeOutput carWires stableSlotSort 100000000 [0, 0] carReserved) 10 0 defaultGate =
      .ok carGate := by rfl

theorem carGate'_configured : configureGateScheduling 100000000 0
    (makeOutput carWires stableSlotSort 100000000 [0, 0] carReserved) 10 1 defaultGate =
      .ok carGate' := by rfl

theorem carReserved_first : FirstClosesFirst (carReserved 10) := by
  intro first hfirst
  cases hfirst
  decide

theorem canPullPacket_car :
    shaperSettings.canPullPacket 0 (some 936) (carGate.runUntil 0) = some 936 := by
  decide +kernel

theorem canPullPacket_car' : shaperSettings.canPullPacket 20100000 (some 1936)
    (carGate'.runUntil 20100000) = some 1936 := by
  decide +kernel

theorem gates_never_together_car : ¬ (20100000 ≤ (5000000 : Int) ∧
    (5000000 : Int) < 20100000 + shaperSettings.flowDuration 100000000 1936) :=
  gates_never_together (by decide : (0 : Int) ≤ 100000000) (by decide +kernel) reserveFlows_car
    (by decide +kernel) carReserved_first (by decide) (by decide) (by decide) (by decide)
    carGate_configured carGate'_configured rfl rfl rfl rfl (Int.le_refl 0) (by decide)
    canPullPacket_car canPullPacket_car' ⟨by decide, by decide +kernel⟩

end CooperativeTsn.Eager
