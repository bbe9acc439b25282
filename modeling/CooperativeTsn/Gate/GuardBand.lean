import CooperativeTsn.Flow.Input
import CooperativeTsn.Gate.Execution

/-!
# The guard band of a gate

A gate with a bitrate lets a packet through only if its transmission ends before the gate closes.
`PacketGateBase` asks for that whenever a packet is pulled or pushed.

* `isOpen_until_change` — a gate keeps its state until its change timer fires
* `open_until_end` — a packet that is let through finds the gate open until its end
* `transmission_in_slot` — with the parameters of a schedule it stays within a slot
* `transmissions_disjoint` — gates with schedules that exclude each other never transmit at once
* `flows_iff_fits` — a packet gets through in every cycle if it fits into an open duration of the
  gate, and else never
-/

namespace CooperativeTsn

open Infra.Waveform PeriodicGate

/-! ## Packets at a gate -/

/-- The parameters of `PacketGateBase`, and whether there is a guard band. Lengths are in bits. -/
structure GateSettings where
  /-- `none` for NaN -/
  bitrate : Option Rat
  extraLength : Int
  extraDuration : Int
  enableImplicitGuardBand : Bool

namespace GateSettings

/-- The time from the start of a packet to its end, `flowEndTime - getClockTime()`. -/
def flowDuration (settings : GateSettings) (bitrate : Rat) (dataLength : Int) : Int :=
  toSimTime ((dataLength + settings.extraLength : Int) / bitrate) + settings.extraDuration

/-- `PeriodicGate::canPacketFlowThrough`. There may be no packet; a packet counts by its length. -/
def canPacketFlowThrough (settings : GateSettings) (now : Int) (packet : Option Int)
    (g : PeriodicGate) : Bool :=
  match settings.bitrate, packet with
  | none, _ => true
  | some _, none => false
  | some bitrate, some dataLength =>
    if settings.enableImplicitGuardBand then
      match g.changeTimer with
      | none => true
      | some arrival => now + settings.flowDuration bitrate dataLength ≤ arrival
    else true

/-- `PacketGateBase::canPullPacket`, for the packet that the provider offers -/
def canPullPacket (settings : GateSettings) (now : Int) (packet : Option Int) (g : PeriodicGate) :
    Option Int :=
  if g.isOpen && settings.canPacketFlowThrough now packet g then packet else none

/-- `PacketGateBase::canPushPacket`, where the consumer can take the packet or not -/
def canPushPacket (settings : GateSettings) (now : Int) (consumer : Bool) (dataLength : Int)
    (g : PeriodicGate) : Bool :=
  g.isOpen && settings.canPacketFlowThrough now (some dataLength) g && consumer

/-- `updateIsInGuardBand`: the gate is open, but not for the packet in front of it. -/
def isInGuardBand (settings : GateSettings) (now : Int) (packet : Option Int) (g : PeriodicGate) :
    Bool :=
  g.isOpen && packet.isSome && !settings.canPacketFlowThrough now packet g

variable {settings : GateSettings} {now dataLength : Int} {bitrate : Rat} {g : PeriodicGate}

/-- A packet that is pulled finds the gate open, and its end is not behind the next change. -/
theorem canPullPacket_eq_some (hbitrate : settings.bitrate = some bitrate)
    (hguard : settings.enableImplicitGuardBand = true) :
    settings.canPullPacket now (some dataLength) g = some dataLength ↔
      g.isOpen = true ∧ ∀ arrival, g.changeTimer = some arrival →
        now + settings.flowDuration bitrate dataLength ≤ arrival := by
  unfold canPullPacket canPacketFlowThrough
  rw [hbitrate]
  simp only [hguard, if_true]
  cases g.changeTimer with
  | none => cases g.isOpen <;> simp
  | some arrival => cases g.isOpen <;> simp

/-- What can be pulled can be pushed as well, if the consumer takes it. -/
theorem canPushPacket_eq (settings : GateSettings) (now : Int) (consumer : Bool) (dataLength : Int)
    (g : PeriodicGate) : settings.canPushPacket now consumer dataLength g =
      (consumer && (settings.canPullPacket now (some dataLength) g).isSome) := by
  rw [canPushPacket, canPullPacket, Bool.and_comm]
  cases g.isOpen && settings.canPacketFlowThrough now (some dataLength) g <;> rfl

/-- A packet can be pulled at an open gate, or the gate is in its guard band. -/
theorem isInGuardBand_iff : settings.isInGuardBand now (some dataLength) g = true ↔
    g.isOpen = true ∧ settings.canPullPacket now (some dataLength) g = none := by
  rw [isInGuardBand, canPullPacket]
  cases g.isOpen <;> cases settings.canPacketFlowThrough now (some dataLength) g <;> simp

end GateSettings

/-! ## Between two changes -/

namespace PeriodicGate

section

variable {ds : Durations} {b : Bool} {offset now t t' : Int}

/-- The gate at a time within the duration number `j` of some cycle. -/
theorem runUntil_at (h0 : 0 ≤ offset) (htotal : 0 < ds.total) (ht : now ≤ t) {k : Int} {j : Nat}
    (hstart : now - offset % ds.total + k * ds.total + (ds.values.take j).sum ≤ t)
    (hend : t < now - offset % ds.total + k * ds.total + (ds.values.take (j + 1)).sum) :
    OnSegment (now - offset % ds.total) b ds k j ((create now b offset ds).runUntil t) := by
  obtain ⟨k', j', hseg, hstart', hend'⟩ := runUntil_onSegment (b := b) h0 htotal ht
  have hbounds := ds.take_sum_bounds
  -- the two cycles are the same, since both positions are below the total
  have hk : k = k' := by
    have hpos := hbounds j
    have hpos' := hbounds j'
    have hsucc := hbounds (j + 1)
    have hsucc' := hbounds (j' + 1)
    have hup : (k - k') * ds.total < 1 * ds.total := by rw [Int.sub_mul]; omega
    have hlow : (k' - k) * ds.total < 1 * ds.total := by rw [Int.sub_mul]; omega
    have hup' := Int.lt_of_mul_lt_mul_right hup htotal.le
    have hlow' := Int.lt_of_mul_lt_mul_right hlow htotal.le
    omega
  subst hk
  have hjj : j = j' := ds.segment_unique (x := t - (now - offset % ds.total) - k * ds.total)
    (by omega) (by omega) (by omega) (by omega)
  exact hjj ▸ hseg

/-- The state of a gate stays until its change timer fires. -/
theorem isOpen_until_change (h0 : 0 ≤ offset) (htotal : 0 < ds.total) (ht : now ≤ t)
    {arrival : Int} (ha : ((create now b offset ds).runUntil t).changeTimer = some arrival)
    (htt' : t ≤ t') (hbefore : t' < arrival) :
    ((create now b offset ds).runUntil t').isOpen =
      ((create now b offset ds).runUntil t).isOpen := by
  obtain ⟨k, j, hseg, hstart, -⟩ := runUntil_onSegment (b := b) h0 htotal ht
  have hend := hseg.changeTimer
  rw [ha, Option.some.injEq] at hend
  have hseg' := runUntil_at (b := b) h0 htotal (ht.trans htt') (hstart.trans htt')
    (hend ▸ hbefore)
  rw [hseg.isOpen, hseg'.isOpen]

/-- **A packet that is let through finds the gate open until its end.** -/
theorem open_until_end {settings : GateSettings} {bitrate : Rat} {dataLength : Int}
    (hbitrate : settings.bitrate = some bitrate)
    (hguard : settings.enableImplicitGuardBand = true) (h0 : 0 ≤ offset) (htotal : 0 < ds.total)
    (ht : now ≤ t)
    (hpull : settings.canPullPacket t (some dataLength) ((create now b offset ds).runUntil t) =
      some dataLength) (htt' : t ≤ t') (hend : t' < t + settings.flowDuration bitrate dataLength) :
    ((create now b offset ds).runUntil t').isOpen = true := by
  obtain ⟨hopen, harrival⟩ := (GateSettings.canPullPacket_eq_some hbitrate hguard).mp hpull
  obtain ⟨k, j, hseg, -⟩ := runUntil_onSegment (b := b) h0 htotal ht
  have hle := harrival _ hseg.changeTimer
  rw [isOpen_until_change h0 htotal ht hseg.changeTimer htt' (by omega)]
  exact hopen

/-! ## Packets that get through -/

/-- The packet fits into one of the durations in which the gate is open. -/
def Fits (settings : GateSettings) (bitrate : Rat) (dataLength : Int) (b : Bool) (ds : Durations) :
    Prop :=
  ∃ j, j < ds.values.length ∧ flips b j = true ∧
    settings.flowDuration bitrate dataLength ≤ ds.values.getD j 0

variable {settings : GateSettings} {bitrate : Rat} {dataLength : Int}

/-- A packet that is let through fits into the duration of the moment. -/
theorem fits_of_flows (hbitrate : settings.bitrate = some bitrate)
    (hguard : settings.enableImplicitGuardBand = true) (h0 : 0 ≤ offset) (htotal : 0 < ds.total)
    (ht : now ≤ t)
    (hpull : settings.canPullPacket t (some dataLength) ((create now b offset ds).runUntil t) =
      some dataLength) : Fits settings bitrate dataLength b ds := by
  obtain ⟨hopen, harrival⟩ := (GateSettings.canPullPacket_eq_some hbitrate hguard).mp hpull
  obtain ⟨k, j, hseg, hstart, -⟩ := runUntil_onSegment (b := b) h0 htotal ht
  have hle := harrival _ hseg.changeTimer
  have hsum := ds.take_succ_sum hseg.lt
  exact ⟨j, hseg.lt, hseg.isOpen ▸ hopen, by omega⟩

/-- At the start of a duration that it fits into, a packet can be pulled. -/
theorem flows_at_start (hbitrate : settings.bitrate = some bitrate)
    (hguard : settings.enableImplicitGuardBand = true) (h0 : 0 ≤ offset) (htotal : 0 < ds.total)
    {j : Nat} (hj : j < ds.values.length) (hopen : flips b j = true)
    (hfits : settings.flowDuration bitrate dataLength ≤ ds.values.getD j 0) {k : Int}
    (hstart : t = now - offset % ds.total + k * ds.total + (ds.values.take j).sum) (ht : now ≤ t) :
    settings.canPullPacket t (some dataLength) ((create now b offset ds).runUntil t) =
      some dataLength := by
  have hsum := ds.take_succ_sum hj
  have hpos := ds.getD_pos hj
  have hseg := runUntil_at (b := b) (k := k) (j := j) h0 htotal ht hstart.ge (by omega)
  refine (GateSettings.canPullPacket_eq_some hbitrate hguard).mpr ⟨hseg.isOpen.trans hopen, ?_⟩
  intro arrival harrival
  rw [hseg.changeTimer, Option.some.injEq] at harrival
  omega

/-- **A packet gets through within a cycle, from any time on, if it fits into an open duration of
the gate; if it fits into none it never gets through.** The gate takes its offset modulo the cycle.
-/
theorem flows_iff_fits (hbitrate : settings.bitrate = some bitrate)
    (hguard : settings.enableImplicitGuardBand = true) (h0 : 0 ≤ offset)
    (htotal : 0 < ds.total) {t₀ : Int} (ht₀ : now ≤ t₀) :
    Fits settings bitrate dataLength b ds ↔ ∃ t, t₀ ≤ t ∧ t < t₀ + ds.total ∧
      settings.canPullPacket t (some dataLength) ((create now b offset ds).runUntil t) =
        some dataLength := by
  constructor
  · rintro ⟨j, hj, hopen, hfits⟩
    -- the first start of the duration number `j` from `t₀` on
    set first := now - offset % ds.total + (ds.values.take j).sum
    have hmod := Int.emod_add_mul_ediv (first - t₀) ds.total
    have hnonneg := Int.emod_nonneg (first - t₀) htotal.ne'
    have hmodlt := Int.emod_lt_of_pos (first - t₀) htotal
    obtain ⟨k, hk⟩ : ∃ k, k * ds.total = -(ds.total * ((first - t₀) / ds.total)) :=
      ⟨-((first - t₀) / ds.total), by rw [Int.neg_mul, Int.mul_comm]⟩
    exact ⟨first + k * ds.total, by omega, by omega,
      flows_at_start hbitrate hguard h0 htotal hj hopen hfits (k := k) (by omega) (by omega)⟩
  · rintro ⟨t, ht, -, hpull⟩
    exact fits_of_flows hbitrate hguard h0 htotal (ht₀.trans ht) hpull

end

/-- 100 Mbit/s, with the PHY header of Ethernet -/
def shaperSettings : GateSettings := ⟨some 100000000, 64, 0, true⟩

theorem flows_iff_fits_line : Fits shaperSettings 100000000 936 true
      ⟨[20000000, 80000000], rfl, by decide⟩ ↔
    ∃ t, 7 ≤ t ∧ t < 7 + Durations.total ⟨[20000000, 80000000], rfl, by decide⟩ ∧
      shaperSettings.canPullPacket t (some 936)
        ((create 0 true 130000000 ⟨[20000000, 80000000], rfl, by decide⟩).runUntil t) = some 936 :=
  flows_iff_fits rfl rfl (by decide) (by decide) (by decide)

end PeriodicGate

/-! ## Gates with schedules -/

section

variable {gateCycleDuration now : Int} {schedule schedule' : Schedule} {p p' : GateParameters}
  {settings settings' : GateSettings} {bitrate bitrate' : Rat} {dataLength dataLength' t t' x : Int}
  {g g' g₀ g₀' : PeriodicGate}

/-- **A packet that a configured gate lets through lies within the slots of the schedule.** -/
theorem transmission_in_slot (h : schedule.Separated gateCycleDuration)
    (hp : computeParameters gateCycleDuration schedule = .ok p) (hne : p.durations ≠ [])
    (hg : configureGate gateCycleDuration now schedule g₀ = .ok g)
    (hbitrate : settings.bitrate = some bitrate)
    (hguard : settings.enableImplicitGuardBand = true) (ht : now ≤ t)
    (hpull : settings.canPullPacket t (some dataLength) (g.runUntil t) = some dataLength)
    (htx : t ≤ x) (hx : x < t + settings.flowDuration bitrate dataLength) :
    ∃ slot ∈ schedule.slots, slot.start ≤ (x - now) % gateCycleDuration ∧
      (x - now) % gateCycleDuration < slot.end := by
  have hex := computeParameters_executes h hp hne
  rw [configureGate_of_executes hp hne hex, Except.ok.injEq] at hg
  subst hg
  have hcycle : 0 < gateCycleDuration := Int.lt_of_le_of_lt hex.offset_nonneg hex.offset_lt
  have htotal : Durations.total ⟨p.durations, hex.even, hex.pos⟩ = gateCycleDuration := hex.total
  have hlt : p.offset < Durations.total ⟨p.durations, hex.even, hex.pos⟩ := by
    rw [htotal]
    exact hex.offset_lt
  have hopen := open_until_end hbitrate hguard hex.offset_nonneg (hcycle.trans_eq htotal.symm) ht
    hpull htx hx
  rwa [runUntil_isOpen hex.offset_nonneg hlt (ht.trans htx), htotal, ← Int.add_emod_emod,
    hex.level _ (Int.emod_nonneg _ hcycle.ne') (Int.emod_lt_of_pos _ hcycle)] at hopen

/-- The first fifth of a cycle of 100 µs. -/
def earlySlot : Schedule := ⟨7, 0, 100000000, [⟨0, 20000000⟩], true⟩

def earlyGate : PeriodicGate := create 0 true 0 ⟨[20000000, 80000000], rfl, by decide⟩

/-- A later part of the cycle. -/
def lateSlot : Schedule := ⟨0, 0, 100000000, [⟨50000000, 30000000⟩], true⟩

def lateGate : PeriodicGate := create 0 false 20000000 ⟨[70000000, 30000000], rfl, by decide⟩

theorem earlySlot_separated : earlySlot.Separated 100000000 :=
  ⟨rfl, rfl, by decide, by decide, by decide⟩

theorem lateSlot_separated : lateSlot.Separated 100000000 :=
  ⟨rfl, rfl, by decide, by decide, by decide⟩

theorem earlySlot_parameters :
    computeParameters 100000000 earlySlot = .ok ⟨true, 0, [20000000, 80000000]⟩ := rfl

theorem lateSlot_parameters :
    computeParameters 100000000 lateSlot = .ok ⟨false, 20000000, [70000000, 30000000]⟩ := rfl

theorem configureGate_early : configureGate 100000000 0 earlySlot defaultGate = .ok earlyGate := rfl

theorem configureGate_late : configureGate 100000000 0 lateSlot defaultGate = .ok lateGate := rfl

theorem canPullPacket_early :
    shaperSettings.canPullPacket 0 (some 936) (earlyGate.runUntil 0) = some 936 := by
  decide +kernel

theorem canPullPacket_late :
    shaperSettings.canPullPacket 50000000 (some 1936) (lateGate.runUntil 50000000) = some 1936 := by
  decide +kernel

/-- No two slots of the schedules overlap. -/
def Schedule.Excludes (s s' : Schedule) : Prop :=
  ∀ a ∈ s.slots, ∀ b ∈ s'.slots, a.end ≤ b.start ∨ b.end ≤ a.start

instance (s s' : Schedule) : Decidable (s.Excludes s') :=
  inferInstanceAs (Decidable (∀ a ∈ s.slots, ∀ b ∈ s'.slots, a.end ≤ b.start ∨ b.end ≤ a.start))

/-- **Gates that are configured together, with schedules that exclude each other, never transmit at
the same time.** -/
theorem transmissions_disjoint (h : schedule.Separated gateCycleDuration)
    (h' : schedule'.Separated gateCycleDuration)
    (hp : computeParameters gateCycleDuration schedule = .ok p) (hne : p.durations ≠ [])
    (hp' : computeParameters gateCycleDuration schedule' = .ok p') (hne' : p'.durations ≠ [])
    (hexcludes : schedule.Excludes schedule')
    (hg : configureGate gateCycleDuration now schedule g₀ = .ok g)
    (hg' : configureGate gateCycleDuration now schedule' g₀' = .ok g')
    (hbitrate : settings.bitrate = some bitrate) (hbitrate' : settings'.bitrate = some bitrate')
    (hguard : settings.enableImplicitGuardBand = true)
    (hguard' : settings'.enableImplicitGuardBand = true) (ht : now ≤ t) (ht' : now ≤ t')
    (hpull : settings.canPullPacket t (some dataLength) (g.runUntil t) = some dataLength)
    (hpull' : settings'.canPullPacket t' (some dataLength') (g'.runUntil t') = some dataLength')
    (hx : t ≤ x ∧ x < t + settings.flowDuration bitrate dataLength) :
    ¬ (t' ≤ x ∧ x < t' + settings'.flowDuration bitrate' dataLength') := by
  rintro ⟨htx', hx'⟩
  obtain ⟨a, ha, hle, hlt⟩ := transmission_in_slot h hp hne hg hbitrate hguard ht hpull hx.1 hx.2
  obtain ⟨b, hb, hle', hlt'⟩ :=
    transmission_in_slot h' hp' hne' hg' hbitrate' hguard' ht' hpull' htx' hx'
  rcases hexcludes a ha b hb with hab | hba
  · omega
  · omega

theorem transmissions_disjoint_early_late : ¬ (50000000 ≤ (5000000 : Int) ∧
    (5000000 : Int) < 50000000 + shaperSettings.flowDuration 100000000 1936) :=
  transmissions_disjoint earlySlot_separated lateSlot_separated earlySlot_parameters (by decide)
    lateSlot_parameters (by decide) (by decide) configureGate_early configureGate_late rfl rfl rfl
    rfl (Int.le_refl 0) (by decide) canPullPacket_early canPullPacket_late
    ⟨by decide, by decide +kernel⟩

end

end CooperativeTsn
