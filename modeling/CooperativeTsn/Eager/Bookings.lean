import CooperativeTsn.Eager.Configurator

/-!
# The reserved slots

A slot is always reserved at the first place that `findGateOpenTime` comes to, and none is ever
given up.

* `findGateOpenTime_isLeast` — the packet does not wait longer than it has to
* `Orderly.push` — what a new slot keeps
* `reserveFlows_invariant` — what every new slot keeps holds of all schedules
* `reserved_orderly` — no slots of an interface clash, but perhaps with the one reserved first
-/

namespace CooperativeTsn.Eager

open Infra.Runs Infra.Reservation Infra.Worklist

variable {Module Nic State : Type}

/-! ## The place of a slot -/

section

variable {gap duration t t' : Int} {slots : List GateSlot}

/-- The slot does not come too close to a transmission that starts at the time. -/
def Free (gap duration : Int) (slots : List GateSlot) (t : Int) : Prop :=
  ∀ slot ∈ slots, slot.interval.Apart gap (span duration t)

instance : Decidable (Free gap duration slots t) :=
  inferInstanceAs (Decidable (∀ slot ∈ slots, slot.interval.Apart gap (span duration t)))

theorem free_iff : Free gap duration slots t ↔
    ∀ a ∈ slots.map GateSlot.interval, a.Apart gap (span duration t) := by
  unfold Free
  rw [List.forall_mem_map]

theorem le_findGateOpenTime (gap duration : Int) (slots : List GateSlot) (t : Int) :
    t ≤ findGateOpenTime gap duration slots t := by
  rw [findGateOpenTime]
  cases hobstacle : obstacle gap duration (slots.map GateSlot.interval) t with
  | none => exact Int.le_refl t
  | some a => exact (obstacle_eq_some hobstacle).2.1.le.trans (le_settle ..)

/-- A packet does not wait iff no slot is in its way. -/
theorem findGateOpenTime_eq_self :
    findGateOpenTime gap duration slots t = t ↔ Free gap duration slots t := by
  rw [free_iff, ← obstacle_eq_none, findGateOpenTime]
  cases hobstacle : obstacle gap duration (slots.map GateSlot.interval) t with
  | none => simp
  | some a =>
    refine iff_of_false ?_ (by simp)
    exact ((obstacle_eq_some hobstacle).2.1.trans_le (le_settle ..)).ne'

/-- No place is passed over. -/
theorem findGateOpenTime_le (ht : t ≤ t') (h : Free gap duration slots t') :
    findGateOpenTime gap duration slots t ≤ t' := by
  rw [free_iff] at h
  rw [findGateOpenTime]
  cases hobstacle : obstacle gap duration (slots.map GateSlot.interval) t with
  | none => exact ht
  | some a =>
    obtain ⟨ha, -, hclash⟩ := obstacle_eq_some hobstacle
    refine settle_le (stop_le_of_apart ht hclash (h a ha)) fun b hb => h b ?_
    rw [List.map_tail] at hb
    exact List.mem_of_mem_tail hb

/-- The place that is found is free but perhaps for the first slot. -/
theorem findGateOpenTime_free_tail :
    Free gap duration slots.tail (findGateOpenTime gap duration slots t) := by
  rw [free_iff, findGateOpenTime]
  cases hobstacle : obstacle gap duration (slots.map GateSlot.interval) t with
  | none =>
    intro a ha
    rw [List.map_tail] at ha
    exact obstacle_eq_none.mp hobstacle a (List.mem_of_mem_tail ha)
  | some a =>
    refine settle_apart ((ahead_length_le _ _ _).trans ?_)
    rw [List.length_map, List.length_tail]
    omega

/-- No slot closes before the one that was reserved first. -/
def FirstClosesFirst (slots : List GateSlot) : Prop :=
  ∀ first ∈ slots.head?, ∀ slot ∈ slots, first.gateCloseTime ≤ slot.gateCloseTime

/-- If the first slot closes first, a place behind any slot is behind the first one. -/
theorem findGateOpenTime_free (hfirst : FirstClosesFirst slots) :
    Free gap duration slots (findGateOpenTime gap duration slots t) := by
  have htail : Free gap duration slots.tail (findGateOpenTime gap duration slots t) :=
    findGateOpenTime_free_tail
  intro slot hslot
  cases hobstacle : obstacle gap duration (slots.map GateSlot.interval) t with
  | none =>
    rw [findGateOpenTime, hobstacle]
    exact free_iff.mpr (obstacle_eq_none.mp hobstacle) slot hslot
  | some a =>
    obtain ⟨ha, -⟩ := obstacle_eq_some hobstacle
    obtain ⟨s, hs, rfl⟩ := List.mem_map.mp ha
    match slots with
    | first :: rest =>
      rcases List.mem_cons.mp hslot with rfl | hrest
      · -- the first slot closes no later than the one that is in the way
        have hle : slot.gateCloseTime ≤ s.gateCloseTime := hfirst slot rfl s hs
        have hbehind : s.interval.stop + gap ≤ findGateOpenTime gap duration (slot :: rest) t := by
          rw [findGateOpenTime, hobstacle]
          exact le_settle ..
        exact Or.inl ((Int.add_le_add_right hle gap).trans hbehind)
      · exact htail slot hrest

/-- **If the first slot closes first, the packet gets the first place that is free.** -/
theorem findGateOpenTime_isLeast (hfirst : FirstClosesFirst slots) (t : Int) :
    IsLeast {t' | t ≤ t' ∧ Free gap duration slots t'} (findGateOpenTime gap duration slots t) :=
  ⟨⟨le_findGateOpenTime .., findGateOpenTime_free hfirst⟩, fun _ h => findGateOpenTime_le h.1 h.2⟩

/-! ### Slots without clashes -/

/-- No slots clash, but perhaps with the first one; and if that closes first, none at all. -/
structure Orderly (gap : Int) (slots : List GateSlot) : Prop where
  tail : Clear gap (slots.tail.map GateSlot.interval)
  all : FirstClosesFirst slots → Clear gap (slots.map GateSlot.interval)

theorem Orderly.nil (gap : Int) : Orderly gap [] := ⟨List.Pairwise.nil, fun _ => List.Pairwise.nil⟩

theorem FirstClosesFirst.of_append {slot : GateSlot} (h : FirstClosesFirst (slots ++ [slot])) :
    FirstClosesFirst slots := by
  intro first hhead s hs
  cases slots with
  | nil => cases hhead
  | cons a rest => exact h first hhead s (List.mem_append_left _ hs)

/-- A new slot clashes with none, but perhaps with the first one. -/
theorem Orderly.push (h : Orderly gap slots) (gateIndex t : Int) :
    Orderly gap (slots ++ [⟨gateIndex, findGateOpenTime gap duration slots t,
      findGateOpenTime gap duration slots t + duration⟩]) := by
  constructor
  · cases slots with
    | nil => exact List.Pairwise.nil
    | cons first rest =>
      rw [List.cons_append, List.tail_cons, List.map_append]
      exact h.tail.append (free_iff.mp findGateOpenTime_free_tail)
  · intro hfirst
    rw [List.map_append]
    exact (h.all hfirst.of_append).append (free_iff.mp (findGateOpenTime_free hfirst.of_append))

end

/-! ## What every slot keeps -/

section

variable {net : WiredNetwork Module Nic} {flow : Flow Module} {fuel : Nat}

/-- What the loop over the nodes of a fragment keeps, a visit of a network node keeps. -/
theorem visitFragments_invariant {endDevice : Module} {todo : Todo} {I : State → Prop}
    {P : Int → Prop}
    {walk : State → List Module → Int → List String → Except Halt (State × Int × List String)}
    (htodo : P todo.time) :
    ∀ {fragments : List (PathFragment Module)} {s s' : State} {added : List Todo},
      (∀ fragment ∈ fragments, ∀ s time path s' time' path',
        walk s fragment.networkNodes time path = .ok (s', time', path') → I s → P time →
          I s' ∧ P time') →
      visitFragments net endDevice walk todo fragments s = .ok (s', added) → I s →
      I s' ∧ ∀ todo' ∈ added, P todo'.time
  | [], s, s', added, _, h, hI => by
    rw [visitFragments, pure_eq_ok, Prod.mk.injEq] at h
    obtain ⟨rfl, rfl⟩ := h
    exact ⟨hI, nofun⟩
  | fragment :: fragments, s, s', added, hwalk, h, hI => by
    have hrest : ∀ f ∈ fragments, ∀ s time path s' time' path',
        walk s f.networkNodes time path = .ok (s', time', path') → I s → P time → I s' ∧ P time' :=
      fun f hf => hwalk f (List.mem_cons_of_mem _ hf)
    simp only [visitFragments, bind_eq_ok] at h
    obtain ⟨front, -, h⟩ := h
    split at h
    · simp only [bind_eq_ok, pure_eq_ok, Prod.mk.injEq] at h
      obtain ⟨⟨s₁, time, path⟩, hfirst, next, hnext, ⟨s₂, todos⟩, hothers, rfl, rfl⟩ := h
      obtain ⟨hI₁, htime⟩ := hwalk fragment List.mem_cons_self _ _ _ _ _ _ hfirst hI htodo
      obtain ⟨hI₂, htodos⟩ := visitFragments_invariant htodo hrest hothers hI₁
      refine ⟨hI₂, fun todo' htodo' => ?_⟩
      rcases List.mem_append.mp htodo' with hnew | hlater
      · simp only [followUp, bind_eq_ok, pure_eq_ok] at hnext
        obtain ⟨_, -, rfl⟩ := hnext
        split at hnew
        · rw [List.mem_singleton.mp hnew]
          exact htime
        · cases hnew
      · exact htodos todo' hlater
    · exact visitFragments_invariant htodo hrest h hI

/-- What it keeps on every fragment of the flow holds in the end. -/
theorem forPathFragments_invariant {I : State → Prop} {P : Int → Prop}
    {walk : State → List Module → Int → List String → Except Halt (State × Int × List String)}
    (hwalk : ∀ fragment ∈ flow.pathFragments, ∀ s time path s' time' path',
      walk s fragment.networkNodes time path = .ok (s', time', path') → I s → P time →
        I s' ∧ P time') {startTime : Int} (hstart : P startTime) {s s' : State}
    (h : forPathFragments net flow walk fuel startTime s = .ok s') (hI : I s) : I s' := by
  unfold forPathFragments at h
  refine workOff_invariant (P := fun todo => P todo.time) ?_ h hI ?_
  · intro s todo s' added hvisit hI htodo
    exact visitFragments_invariant htodo hwalk hvisit hI
  · intro todo htodo
    rw [List.mem_singleton.mp htodo]
    exact hstart

variable [DecidableEq Nic] {gateCycleDuration : Int}

/-- The slot that a packet of the flow gets. -/
def slotFor (net : WiredNetwork Module Nic) (flow : Flow Module)
    (interfaceSchedules : InterfaceSchedules Nic) (nic : Nic) (t : Int) : GateSlot :=
  ⟨flow.gateIndex, net.gateOpenTime interfaceSchedules flow.startApplication.packetLength nic t,
    net.gateOpenTime interfaceSchedules flow.startApplication.packetLength nic t +
      net.transmissionDuration nic flow.startApplication.packetLength⟩

/-- New slots of the flow keep the property, for packets at times of some kind. -/
structure Keeps (net : WiredNetwork Module Nic) (flow : Flow Module)
    (I : InterfaceSchedules Nic → Prop) (P : Int → Prop) : Prop where
  slot : ∀ s nic t, I s → P t → I (pushSlot s nic (slotFor net flow s nic t))
  time : ∀ s nic t, P t → P ((slotFor net flow s nic t).gateCloseTime + net.propagationDelay nic)

variable {I : InterfaceSchedules Nic → Prop} {P : Int → Prop}

theorem reserveNodes_invariant (hkeeps : Keeps net flow I P) {startTime : Int} :
    ∀ {nodes : List Module} {s s' : InterfaceSchedules Nic} {time time' : Int}
      {path path' : List String},
      reserveNodes net gateCycleDuration flow startTime s nodes time path = .ok (s', time', path') →
      I s → P time → I s' ∧ P time'
  | [], s, s', time, time', path, path', h, hI, hP => by
    simp only [reserveNodes, pure_eq_ok, Prod.mk.injEq] at h
    obtain ⟨rfl, rfl, -⟩ := h
    exact ⟨hI, hP⟩
  | [_], s, s', time, time', path, path', h, hI, hP => by
    simp only [reserveNodes, pure_eq_ok, Prod.mk.injEq] at h
    obtain ⟨rfl, rfl, -⟩ := h
    exact ⟨hI, hP⟩
  | m :: next :: nodes, s, s', time, time', path, path', h, hI, hP => by
    simp only [reserveNodes, bind_eq_ok] at h
    obtain ⟨nic, -, _, -, hrest⟩ := h
    exact reserveNodes_invariant hkeeps hrest (hkeeps.slot s nic time hI hP)
      (hkeeps.time s nic time hP)

theorem addForPathFragments_invariant (hkeeps : Keeps net flow I P) {startTime : Int}
    (hstart : P startTime) {s s' : InterfaceSchedules Nic}
    (h : addGateSchedulingForPathFragments net gateCycleDuration fuel flow startTime s = .ok s')
    (hI : I s) : I s' := by
  refine forPathFragments_invariant (P := P) (fun _ _ s time path s' time' path' hwalk => ?_)
    hstart h hI
  simp only [reserveFragment, bind_eq_ok, pure_eq_ok, Prod.mk.injEq] at hwalk
  obtain ⟨⟨s₁, time₁, path₁⟩, hnodes, _, -, _, -, rfl, rfl, -⟩ := hwalk
  exact reserveNodes_invariant hkeeps hnodes

theorem mem_indices {startIndex endIndex index : Int} :
    index ∈ indices startIndex endIndex ↔ startIndex ≤ index ∧ index < endIndex := by
  simp only [indices, List.mem_map, List.mem_range]
  constructor
  · rintro ⟨i, hi, rfl⟩
    omega
  · rintro ⟨h1, h2⟩
    exact ⟨(index - startIndex).toNat, by omega, by omega⟩

theorem addGateScheduling_invariant (hkeeps : Keeps net flow I P)
    {startIndex endIndex startOffset : Int}
    (hstart : ∀ index, startIndex ≤ index → index < endIndex →
      P (startOffset + index * flow.startApplication.packetInterval))
    {s s' : InterfaceSchedules Nic}
    (h : addGateScheduling net gateCycleDuration fuel flow startIndex endIndex startOffset s =
      .ok s') (hI : I s) : I s' :=
  run_invariant (fun _ index _ hindex hI hstep => addForPathFragments_invariant hkeeps
    (hstart index (mem_indices.mp hindex).1 (mem_indices.mp hindex).2) hstep hI) hI h

/-! ### The start of a flow -/

omit [DecidableEq Nic] in
/-- A delay is never negative. -/
theorem le_delayOnFragment {interfaceSchedules : InterfaceSchedules Nic} {packetLength : Int} :
    ∀ {nodes : List Module} {shift shift' time time' : Int} {path path' : List String},
      delayOnFragment net interfaceSchedules packetLength shift nodes time path =
        .ok (shift', time', path') → shift ≤ shift'
  | [], shift, shift', time, time', path, path', h => by
    simp only [delayOnFragment, pure_eq_ok, Prod.mk.injEq] at h
    omega
  | [_], shift, shift', time, time', path, path', h => by
    simp only [delayOnFragment, pure_eq_ok, Prod.mk.injEq] at h
    omega
  | m :: next :: nodes, shift, shift', time, time', path, path', h => by
    simp only [delayOnFragment, bind_eq_ok] at h
    obtain ⟨nic, -, h⟩ := h
    split at h
    · have hle := le_findGateOpenTime (net.interFrameGap nic)
        (net.transmissionDuration nic packetLength) (interfaceSchedules nic) time
      rw [pure_eq_ok, Prod.mk.injEq, WiredNetwork.gateOpenTime] at h
      omega
    · exact le_delayOnFragment h

omit [DecidableEq Nic] in
theorem shift_nonneg {startTime shift : Int} {interfaceSchedules : InterfaceSchedules Nic}
    (h : computeStartOffsetForPathFragments net fuel flow startTime interfaceSchedules =
      .ok shift) : 0 ≤ shift :=
  forPathFragments_invariant (I := fun shift => 0 ≤ shift) (P := fun _ => True)
    (fun _ _ _ _ _ _ _ _ hwalk hI _ => ⟨hI.trans (le_delayOnFragment hwalk), trivial⟩) trivial h
    (Int.le_refl 0)

omit [DecidableEq Nic] in
theorem le_shiftStartOffset {interfaceSchedules : InterfaceSchedules Nic} :
    ∀ {rounds : Nat} {startOffset startOffset' : Int},
      shiftStartOffset net fuel flow interfaceSchedules rounds startOffset = .ok startOffset' →
      startOffset ≤ startOffset'
  | 0, startOffset, startOffset', h => by cases h
  | rounds + 1, startOffset, startOffset', h => by
    simp only [shiftStartOffset, bind_eq_ok] at h
    obtain ⟨shift, hshift, h⟩ := h
    have hnonneg := shift_nonneg hshift
    split at h
    · rw [pure_eq_ok] at h
      omega
    · have hrest := le_shiftStartOffset h
      omega

/-! ### All flows -/

theorem startFlow_ok {s s' : List Int × InterfaceSchedules Nic}
    (h : startFlow net gateCycleDuration fuel s flow = .ok s') :
    ∃ startOffset, 0 ≤ startOffset ∧ s'.1 = s.1 ++ [startOffset] ∧
      computeStreamStartOffset net fuel flow s.2 = .ok startOffset ∧
      addGateScheduling net gateCycleDuration fuel flow 0 1 startOffset s.2 = .ok s'.2 := by
  simp only [startFlow, bind_eq_ok, pure_eq_ok] at h
  obtain ⟨startOffset, hoffset, schedules, hadd, rfl⟩ := h
  exact ⟨startOffset, le_shiftStartOffset hoffset, rfl, hoffset, hadd⟩

theorem repeatFlow_ok {flow : Flow Module × Int} {s s' : InterfaceSchedules Nic}
    (h : repeatFlow net gateCycleDuration fuel s flow = .ok s') :
    gateCycleDuration = gateCycleDuration.tdiv flow.1.startApplication.packetInterval *
        flow.1.startApplication.packetInterval ∧
      addGateScheduling net gateCycleDuration fuel flow.1 1
        (gateCycleDuration.tdiv flow.1.startApplication.packetInterval) flow.2 s = .ok s' := by
  simp only [repeatFlow, bind_eq_ok, ensure_eq_ok] at h
  obtain ⟨_, hmultiple, hadd⟩ := h
  exact ⟨hmultiple, hadd⟩

theorem reserveFlows_ok {flows : List (Flow Module)} {startTimes : List Int}
    {s : InterfaceSchedules Nic}
    (h : reserveFlows net gateCycleDuration fuel flows = .ok (startTimes, s)) :
    ∃ s₁, run (startFlow net gateCycleDuration fuel) flows ([], fun _ => []) =
        .ok (startTimes, s₁) ∧
      run (repeatFlow net gateCycleDuration fuel) (flows.zip startTimes) s₁ = .ok s := by
  simp only [reserveFlows, bind_eq_ok, pure_eq_ok, Prod.mk.injEq] at h
  obtain ⟨⟨starts, s₁⟩, hstart, s₂, hrepeat, rfl, rfl⟩ := h
  exact ⟨s₁, hstart, hrepeat⟩

/-- In a cycle that is not negative, the packets come in the order of their numbers. -/
theorem packet_nonneg {count packetInterval index : Int} (hcycle : 0 ≤ count * packetInterval)
    (hindex : 0 ≤ index) (hlt : index < count) : 0 ≤ index * packetInterval := by
  have hinterval : 0 ≤ packetInterval := by
    by_contra hneg
    have := Int.mul_neg_of_pos_of_neg (show 0 < count by omega) (show packetInterval < 0 by omega)
    omega
  exact Int.mul_nonneg hindex hinterval

/-- **What every new slot keeps holds of all schedules in the end.** -/
theorem reserveFlows_invariant {flows : List (Flow Module)}
    (hkeeps : ∀ flow ∈ flows, Keeps net flow I P)
    (hP : ∀ t, (0 ≤ gateCycleDuration → 0 ≤ t) → P t) {startTimes : List Int}
    {s : InterfaceSchedules Nic}
    (h : reserveFlows net gateCycleDuration fuel flows = .ok (startTimes, s))
    (hI : I fun _ => []) : I s := by
  obtain ⟨s₁, hstart, hrepeat⟩ := reserveFlows_ok h
  -- the first packet of each flow
  have hfirst : I s₁ ∧ ∀ startOffset ∈ startTimes, 0 ≤ startOffset := by
    refine run_invariant (I := fun s : List Int × InterfaceSchedules Nic =>
      I s.2 ∧ ∀ startOffset ∈ s.1, 0 ≤ startOffset) ?_ ⟨hI, List.forall_mem_nil _⟩ hstart
    rintro s flow s' hflow ⟨hI, hoffsets⟩ hstep
    obtain ⟨startOffset, hnonneg, hs', -, hadd⟩ := startFlow_ok hstep
    refine ⟨addGateScheduling_invariant (hkeeps flow hflow) (fun index h0 h1 => hP _ fun _ => ?_)
      hadd hI, ?_⟩
    · obtain rfl : index = 0 := by omega
      rw [Int.zero_mul, Int.add_zero]
      exact hnonneg
    · rw [hs']
      exact List.forall_mem_append.mpr ⟨hoffsets, List.forall_mem_singleton.mpr hnonneg⟩
  -- the other packets
  refine run_invariant (fun s flow s' hflow hI hstep => ?_) hfirst.1 hrepeat
  obtain ⟨hmultiple, hadd⟩ := repeatFlow_ok hstep
  obtain ⟨hmem, hoffset⟩ := List.of_mem_zip hflow
  refine addGateScheduling_invariant (hkeeps _ hmem) (fun index h1 hlt => hP _ fun hcycle => ?_)
    hadd hI
  have hpacket := packet_nonneg (hmultiple ▸ hcycle) (show 0 ≤ index by omega) hlt
  have := hfirst.2 _ hoffset
  omega

/-! ## The invariants of a run -/

@[simp] theorem pushSlot_self (s : InterfaceSchedules Nic) (nic : Nic) (entry : GateSlot) :
    pushSlot s nic entry nic = s nic ++ [entry] := Function.update_self ..

theorem pushSlot_of_ne {nic nic' : Nic} (h : nic' ≠ nic) (s : InterfaceSchedules Nic)
    (entry : GateSlot) : pushSlot s nic entry nic' = s nic' := Function.update_of_ne h ..

/-- **The slots of an interface clash with none but the first one, and if that closes first, they do
not clash at all.** -/
theorem reserved_orderly {flows : List (Flow Module)} {startTimes : List Int}
    {s : InterfaceSchedules Nic}
    (h : reserveFlows net gateCycleDuration fuel flows = .ok (startTimes, s)) (nic : Nic) :
    Orderly (net.interFrameGap nic) (s nic) := by
  refine reserveFlows_invariant (I := fun s => ∀ nic, Orderly (net.interFrameGap nic) (s nic))
    (P := fun _ => True) (fun flow _ => ⟨fun s booked t hI _ nic => ?_, fun _ _ _ _ => trivial⟩)
    (fun _ _ => trivial) h (fun nic => Orderly.nil _) nic
  by_cases hnic : nic = booked
  · subst hnic
    rw [pushSlot_self]
    exact (hI nic).push _ _
  · rw [pushSlot_of_ne hnic]
    exact hI nic

end

theorem reserved_orderly_car : Orderly (carWires.interFrameGap 10) (carReserved 10) :=
  reserved_orderly reserveFlows_car 10

/-- A long packet, and short ones that are sent again before it. -/
def clashingFlows : List (Flow (Fin 14)) :=
  [carFlow 1 [5, 2, 4] 3000 100000000, carFlow 0 [2, 4] 100 25000000,
    carFlow 0 [2, 4] 2700 100000000]

/-- A short packet that is moved behind another one gets a slot on top of the first one. -/
example : ((reserveFlows carWires 100000000 20 clashingFlows).toOption.any fun r =>
    ⟨1, 30100000, 60100000⟩ ∈ r.2 10 ∧ ⟨0, 29920000, 30920000⟩ ∈ r.2 10) = true := by
  decide +kernel

end CooperativeTsn.Eager
