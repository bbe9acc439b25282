import CooperativeTsn.Eager.StartOffset

/-!
# The packets of a flow

What is reserved for the packets of a flow with one path: at every interface a slot that opens when
the packet can be there, up to the end device.

* `reserveNodes_carries` — the slots of a packet on a fragment
* `reserveNodes_direct` — a packet that waits nowhere goes through at once
* `maxLatency_nonneg` — flows without a maximum latency are never scheduled
* `packets_carried` — all packets of a cycle have their slots, and arrive within the latency
-/

namespace CooperativeTsn.Eager

open Infra.Runs Infra.Reservation Infra.Worklist

variable {Module Nic State : Type} [DecidableEq Nic]

section

variable {net : WiredNetwork Module Nic} {flow flow' : Flow Module} {s s' : InterfaceSchedules Nic}
  {gateCycleDuration limit t t' arrival : Int} {nodes : List Module} {nics : List Nic} {fuel : Nat}

/-! ## The slots of a packet -/

/--
Slots of the flow, one at each interface: a slot has the length of the packet, opens when the packet
is there at the earliest, and closes before the limit.
-/
def Carries (net : WiredNetwork Module Nic) (flow : Flow Module) (s : InterfaceSchedules Nic)
    (limit : Int) : List Nic → Int → Int → Prop
  | [], t, arrival => t = arrival
  | nic :: nics, t, arrival => ∃ slot ∈ s nic, slot.gateOpenIndex = flow.gateIndex ∧
    t ≤ slot.gateOpenTime ∧ slot.gateCloseTime =
      slot.gateOpenTime + net.transmissionDuration nic flow.startApplication.packetLength ∧
    slot.gateCloseTime ≤ limit ∧
    Carries net flow s limit nics (slot.gateCloseTime + net.propagationDelay nic) arrival

/-- The slots of a packet that goes through without waiting. -/
def Direct (net : WiredNetwork Module Nic) (flow : Flow Module) (s : InterfaceSchedules Nic) :
    List Nic → Int → Prop
  | [], _ => True
  | nic :: nics, t =>
    ⟨flow.gateIndex, t,
      t + net.transmissionDuration nic flow.startApplication.packetLength⟩ ∈ s nic ∧
      Direct net flow s nics
        (t + net.transmissionDuration nic flow.startApplication.packetLength +
          net.propagationDelay nic)

theorem mem_pushSlot {nic nic' : Nic} {slot entry : GateSlot} (h : slot ∈ s nic) :
    slot ∈ pushSlot s nic' entry nic := by
  by_cases hnic : nic = nic'
  · subst hnic
    rw [pushSlot_self]
    exact List.mem_append_left _ h
  · rw [pushSlot_of_ne hnic]
    exact h

theorem Carries.push {nic' : Nic} {entry : GateSlot} : ∀ {nics : List Nic} {t : Int},
    Carries net flow s limit nics t arrival →
    Carries net flow (pushSlot s nic' entry) limit nics t arrival
  | [], _, h => h
  | _ :: _, _, ⟨slot, hslot, hindex, hopen, hclose, hlimit, hrest⟩ =>
    ⟨slot, mem_pushSlot hslot, hindex, hopen, hclose, hlimit, hrest.push⟩

theorem Direct.push {nic' : Nic} {entry : GateSlot} : ∀ {nics : List Nic} {t : Int},
    Direct net flow s nics t → Direct net flow (pushSlot s nic' entry) nics t
  | [], _, _ => trivial
  | _ :: _, _, ⟨hslot, hrest⟩ => ⟨mem_pushSlot hslot, hrest.push⟩

omit [DecidableEq Nic] in
theorem Carries.le_arrival (hlength : 0 ≤ flow.startApplication.packetLength) :
    ∀ {nics : List Nic} {t : Int}, Carries net flow s limit nics t arrival → t ≤ arrival
  | [], _, h => Int.le_of_eq h
  | nic :: nics, t, ⟨slot, _, _, hopen, hclose, _, hrest⟩ => by
    have hduration := net.transmissionDuration_nonneg nic hlength
    have hpropagation := net.propagationDelay_nonneg nic
    have := hrest.le_arrival hlength
    omega

/-- A slot that is reserved stays. -/
theorem keeps_mem {nic : Nic} {slot : GateSlot} :
    Keeps net flow' (fun s => slot ∈ s nic) fun _ => True :=
  ⟨fun _ _ _ h _ => mem_pushSlot h, fun _ _ _ _ => trivial⟩

/-- **A packet gets its slots on a fragment.** -/
theorem reserveNodes_carries {nics : List Nic} {startTime : Int} :
    ∀ {nodes : List Module} {s s' : InterfaceSchedules Nic} {t t' : Int} {path path' : List String},
      net.findNetworkInterfaces nodes = .ok nics →
      reserveNodes net gateCycleDuration flow startTime s nodes t path = .ok (s', t', path') →
      Carries net flow s' (startTime + gateCycleDuration) nics t t' := by
  induction nics with
  | nil =>
    intro nodes s s' t t' path path' hnics h
    rcases WiredNetwork.findNetworkInterfaces_nil hnics with rfl | ⟨m, rfl⟩
    · simp only [reserveNodes, pure_eq_ok, Prod.mk.injEq] at h
      exact h.2.1
    · simp only [reserveNodes, pure_eq_ok, Prod.mk.injEq] at h
      exact h.2.1
  | cons nic nics ih =>
    intro nodes s s' t t' path path' hnics h
    obtain ⟨m, next, rest, rfl, hnic, hrest⟩ := WiredNetwork.findNetworkInterfaces_cons hnics
    simp only [reserveNodes, bind_eq_ok, hnic, Except.ok.injEq, exists_eq_left', ensure_eq_ok] at h
    obtain ⟨_, hlimit, h⟩ := h
    -- the slot is still there when the others are reserved
    have hmem : slotFor net flow s nic t ∈ pushSlot s nic (slotFor net flow s nic t) nic := by
      simp
    exact ⟨slotFor net flow s nic t, (reserveNodes_invariant keeps_mem h hmem trivial).1, rfl,
      le_findGateOpenTime .., rfl, hlimit, ih hrest h⟩

omit [DecidableEq Nic] in
theorem unhindered_congr {packetLength : Int} : ∀ {nics : List Nic} {t : Int},
    (∀ nic ∈ nics, s' nic = s nic) → Unhindered net s packetLength nics t →
    Unhindered net s' packetLength nics t
  | [], _, _, _ => trivial
  | nic :: nics, t, hsame, ⟨hfree, hrest⟩ => by
    refine ⟨?_, unhindered_congr (fun nic' h => hsame nic' (List.mem_cons_of_mem _ h)) hrest⟩
    rw [hsame nic List.mem_cons_self]
    exact hfree

/-- **A packet that is not hindered is sent on at once**, if it leaves by no interface twice. -/
theorem reserveNodes_direct {nics : List Nic} {startTime : Int} (hnodup : nics.Nodup) :
    ∀ {nodes : List Module} {s s' : InterfaceSchedules Nic} {t t' : Int} {path path' : List String},
      net.findNetworkInterfaces nodes = .ok nics →
      Unhindered net s flow.startApplication.packetLength nics t →
      reserveNodes net gateCycleDuration flow startTime s nodes t path = .ok (s', t', path') →
      Direct net flow s' nics t := by
  induction nics with
  | nil =>
    intros
    trivial
  | cons nic nics ih =>
    intro nodes s s' t t' path path' hnics hfree h
    obtain ⟨m, next, rest, rfl, hnic, hrest⟩ := WiredNetwork.findNetworkInterfaces_cons hnics
    simp only [reserveNodes, bind_eq_ok, hnic, Except.ok.injEq, exists_eq_left', ensure_eq_ok] at h
    obtain ⟨_, -, h⟩ := h
    have htime : net.gateOpenTime s flow.startApplication.packetLength nic t = t :=
      findGateOpenTime_eq_self.mpr hfree.1
    rw [htime] at h
    rw [List.nodup_cons] at hnodup
    have hmem : (⟨flow.gateIndex, t,
        t + net.transmissionDuration nic flow.startApplication.packetLength⟩ : GateSlot) ∈
        pushSlot s nic ⟨flow.gateIndex, t,
          t + net.transmissionDuration nic flow.startApplication.packetLength⟩ nic := by
      simp
    refine ⟨(reserveNodes_invariant keeps_mem h hmem trivial).1,
      ih hnodup.2 hrest (unhindered_congr (fun nic' hnic' => ?_) hfree.2) h⟩
    have hne : nic' ≠ nic := by
      rintro rfl
      exact hnodup.1 hnic'
    exact pushSlot_of_ne hne _ _

/-! ## The packets of a flow with one path -/

/-- The packet that is sent at the time is carried to the end device, within the latency. -/
def Served (net : WiredNetwork Module Nic) (gateCycleDuration : Int) (flow : Flow Module)
    (nics : List Nic) (startTime : Int) (s : InterfaceSchedules Nic) : Prop :=
  ∃ arrival, Carries net flow s (startTime + gateCycleDuration) nics startTime arrival ∧
    arrival - startTime ≤ flow.startApplication.maxLatency

theorem keeps_served {startTime : Int} :
    Keeps net flow' (Served net gateCycleDuration flow nics startTime) fun _ => True :=
  ⟨fun _ _ _ ⟨arrival, h, hlatency⟩ _ => ⟨arrival, h.push, hlatency⟩, fun _ _ _ _ => trivial⟩

theorem keeps_direct : Keeps net flow' (fun s => Direct net flow s nics t) fun _ => True :=
  ⟨fun _ _ _ h _ => h.push, fun _ _ _ _ => trivial⟩

/-- The slots of one packet. -/
theorem SinglePath.served (h : SinglePath net flow nodes nics) {startTime : Int}
    (hadd : addGateSchedulingForPathFragments net gateCycleDuration fuel flow startTime s =
      .ok s') :
    Served net gateCycleDuration flow nics startTime s' ∧
      (nics.Nodup → Unhindered net s flow.startApplication.packetLength nics startTime →
        Direct net flow s' nics startTime) := by
  obtain ⟨time, path, hwalk⟩ := h.walk hadd
  obtain ⟨back, hback, hend⟩ := Option.map_eq_some_iff.mp h.back
  simp only [reserveFragment, bind_eq_ok, require_eq_ok, hback, Option.some.injEq, exists_eq_left',
    ensure_eq_ok, pure_eq_ok, Prod.mk.injEq] at hwalk
  obtain ⟨⟨s₁, t₁, p₁⟩, hnodes, _, hlatency, rfl, rfl, rfl⟩ := hwalk
  exact ⟨⟨t₁, reserveNodes_carries h.nics hnodes, hlatency hend⟩,
    fun hnodup hfree => reserveNodes_direct hnodup h.nics hfree hnodes⟩

/-- The slots of several packets. -/
theorem SinglePath.served_of_mem (h : SinglePath net flow nodes nics)
    {startIndex endIndex startOffset index : Int}
    (hadd : addGateScheduling net gateCycleDuration fuel flow startIndex endIndex startOffset s =
      .ok s') (hstart : startIndex ≤ index) (hend : index < endIndex) :
    Served net gateCycleDuration flow nics
      (startOffset + index * flow.startApplication.packetInterval) s' :=
  run_of_mem (mem_indices.mpr ⟨hstart, hend⟩) (fun _ _ hstep => (h.served hstep).1)
    (fun _ _ _ _ hI hstep => addForPathFragments_invariant keeps_served trivial hstep hI) hadd

/-- **A flow with one path and no maximum latency is never scheduled**, since the latency is -1. -/
theorem SinglePath.maxLatency_nonneg (h : SinglePath net flow nodes nics)
    (hlength : 0 ≤ flow.startApplication.packetLength) {startTime : Int}
    (hadd : addGateSchedulingForPathFragments net gateCycleDuration fuel flow startTime s =
      .ok s') : 0 ≤ flow.startApplication.maxLatency := by
  obtain ⟨⟨arrival, hcarries, hlatency⟩, -⟩ := h.served hadd
  have := hcarries.le_arrival hlength
  omega

/-! ## All flows -/

/-- The packets of a cycle, the first of which waits nowhere. -/
structure FlowServed (net : WiredNetwork Module Nic) (gateCycleDuration : Int) (flow : Flow Module)
    (nics : List Nic) (startOffset : Int) (s : InterfaceSchedules Nic) : Prop where
  direct : nics.Nodup → Direct net flow s nics startOffset
  packets : ∀ index, 0 ≤ index →
    index < max 1 (gateCycleDuration.tdiv flow.startApplication.packetInterval) →
    Served net gateCycleDuration flow nics
      (startOffset + index * flow.startApplication.packetInterval) s

theorem startFlow_keeps {I : InterfaceSchedules Nic → Prop}
    (hkeeps : Keeps net flow I fun _ => True) {s s' : List Int × InterfaceSchedules Nic}
    (h : startFlow net gateCycleDuration fuel s flow = .ok s') (hI : I s.2) : I s'.2 := by
  obtain ⟨_, -, -, -, hadd⟩ := startFlow_ok h
  exact addGateScheduling_invariant hkeeps (fun _ _ _ => trivial) hadd hI

theorem repeatFlow_keeps {I : InterfaceSchedules Nic → Prop} {p : Flow Module × Int}
    (hkeeps : Keeps net p.1 I fun _ => True)
    (h : repeatFlow net gateCycleDuration fuel s p = .ok s') (hI : I s) : I s' := by
  obtain ⟨-, hadd⟩ := repeatFlow_ok h
  exact addGateScheduling_invariant hkeeps (fun _ _ _ => trivial) hadd hI

/-- The first packet of a flow with one path. -/
structure FirstServed (net : WiredNetwork Module Nic) (gateCycleDuration : Int) (flow : Flow Module)
    (startOffset : Int) (s : InterfaceSchedules Nic) : Prop where
  direct : ∀ nodes nics, SinglePath net flow nodes nics → nics.Nodup →
    Direct net flow s nics startOffset
  first : ∀ nodes nics, SinglePath net flow nodes nics →
    Served net gateCycleDuration flow nics startOffset s

theorem keeps_firstServed {startOffset : Int} :
    Keeps net flow' (FirstServed net gateCycleDuration flow startOffset) fun _ => True where
  slot s nic t h _ :=
    ⟨fun nodes nics hsingle hnodup => (h.direct nodes nics hsingle hnodup).push,
      fun nodes nics hsingle => keeps_served.slot s nic t (h.first nodes nics hsingle) trivial⟩
  time _ _ _ _ := trivial

/-- The only packet is the one with the number 0. -/
theorem addGateScheduling_first {startOffset : Int}
    (h : addGateScheduling net gateCycleDuration fuel flow 0 1 startOffset s = .ok s') :
    addGateSchedulingForPathFragments net gateCycleDuration fuel flow startOffset s = .ok s' := by
  have hindices : indices 0 1 = [0] := by decide
  rw [addGateScheduling, hindices] at h
  obtain ⟨s₁, hstep, hrest⟩ := run_cons_ok h
  rw [run_nil, Except.ok.injEq] at hrest
  rwa [hrest, Int.zero_mul, Int.add_zero] at hstep

theorem startFlow_firstServed {s s' : List Int × InterfaceSchedules Nic}
    (h : startFlow net gateCycleDuration fuel s flow = .ok s') :
    ∃ startOffset, s'.1 = s.1 ++ [startOffset] ∧
      FirstServed net gateCycleDuration flow startOffset s'.2 := by
  obtain ⟨startOffset, -, hs', hsearch, hadd⟩ := startFlow_ok h
  have hone := addGateScheduling_first hadd
  refine ⟨startOffset, hs', fun nodes nics hsingle hnodup => ?_, fun nodes nics hsingle => ?_⟩
  · exact (hsingle.served hone).2 hnodup (hsingle.shiftStartOffset hsearch).1
  · exact (hsingle.served hone).1

theorem startFlows_firstServed : ∀ {flows : List (Flow Module)}
    {s s' : List Int × InterfaceSchedules Nic},
    run (startFlow net gateCycleDuration fuel) flows s = .ok s' →
    ∃ startTimes, s'.1 = s.1 ++ startTimes ∧ List.Forall₂ (fun flow startOffset =>
      FirstServed net gateCycleDuration flow startOffset s'.2) flows startTimes
  | [], s, s', h => by
    rw [run_nil, Except.ok.injEq] at h
    exact ⟨[], by rw [h, List.append_nil], .nil⟩
  | flow :: flows, s, s', h => by
    obtain ⟨s₁, hstep, hrest⟩ := run_cons_ok h
    obtain ⟨startOffset, hoffset, hfirst⟩ := startFlow_firstServed hstep
    obtain ⟨startTimes, htimes, hall⟩ := startFlows_firstServed hrest
    refine ⟨startOffset :: startTimes, by rw [htimes, hoffset, List.append_assoc]; rfl,
      .cons ?_ hall⟩
    exact run_invariant (I := fun s : List Int × InterfaceSchedules Nic =>
      FirstServed net gateCycleDuration flow startOffset s.2)
      (fun _ _ _ _ hI hstep => startFlow_keeps keeps_firstServed hstep hI) hfirst hrest

/-- **Every packet of a cycle has its slots, and arrives within the latency; the first one waits
nowhere.** -/
theorem packets_carried {flows : List (Flow Module)} {startTimes : List Int}
    (h : reserveFlows net gateCycleDuration fuel flows = .ok (startTimes, s)) {k : Nat}
    (hflow : flows[k]? = some flow) (hsingle : SinglePath net flow nodes nics) :
    ∃ startOffset, startTimes[k]? = some startOffset ∧
      FlowServed net gateCycleDuration flow nics startOffset s := by
  obtain ⟨s₁, hstart, hrepeat⟩ := reserveFlows_ok h
  obtain ⟨startTimes', htimes, hall⟩ := startFlows_firstServed hstart
  rw [List.nil_append] at htimes
  dsimp only at htimes hall
  subst htimes
  obtain ⟨hk, hget⟩ := List.getElem?_eq_some_iff.mp hflow
  have hk' : k < startTimes.length := hall.length_eq ▸ hk
  have hfirst : FirstServed net gateCycleDuration flow startTimes[k] s₁ :=
    hget ▸ (List.forall₂_iff_get.mp hall).2 k hk hk'
  have hmem : (flow, startTimes[k]) ∈ flows.zip startTimes := by
    refine List.mem_of_getElem? (i := k) ?_
    rw [List.getElem?_zip_eq_some]
    exact ⟨hflow, List.getElem?_eq_getElem hk'⟩
  refine ⟨startTimes[k], List.getElem?_eq_getElem hk', fun hnodup => ?_, fun index h0 hlt => ?_⟩
  · exact run_invariant (I := fun s => Direct net flow s nics startTimes[k])
      (fun _ _ _ _ hI hstep => repeatFlow_keeps keeps_direct hstep hI)
      (hfirst.direct nodes nics hsingle hnodup) hrepeat
  · by_cases hzero : index = 0
    · subst hzero
      rw [Int.zero_mul, Int.add_zero]
      exact run_invariant (fun _ _ _ _ hI hstep => repeatFlow_keeps keeps_served hstep hI)
        (hfirst.first nodes nics hsingle) hrepeat
    · refine run_of_mem hmem (fun s s' hstep => ?_)
        (fun _ _ _ _ hI hstep => repeatFlow_keeps keeps_served hstep hI) hrepeat
      obtain ⟨-, hadd⟩ := repeatFlow_ok hstep
      exact hsingle.served_of_mem hadd (by omega) (by dsimp only; omega)

end

theorem packets_carried_car : ∃ startOffset, ([0, 0] : List Int)[1]? = some startOffset ∧
    FlowServed carWires 100000000 (carFlow 1 [5, 2, 4] 2000 50000000) [13, 10] startOffset
      carReserved :=
  have hsingle : SinglePath carWires (carFlow 1 [5, 2, 4] 2000 50000000) [5, 2, 4] [13, 10] :=
    ⟨rfl, by decide +kernel, by decide +kernel, by decide +kernel⟩
  packets_carried reserveFlows_car rfl hsingle

end CooperativeTsn.Eager
