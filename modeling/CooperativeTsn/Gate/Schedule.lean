import CooperativeTsn.Gate.PeriodicGate

/-!
# Schedules and how they are written to a gate

`Output` of the gate schedule configurators and `configureGateScheduling`. Slots are turned into a
list of durations, the gap before a slot and the slot itself in turn; a slot at the start of the
cycle has no gap. What is left of the cycle behind the last slot is added, and an odd list is made
even by adding its last entry to its first.
-/

namespace CooperativeTsn

/-! ## Output -/

structure Slot where
  start : Int
  duration : Int
deriving DecidableEq, Repr

/-- The end of a slot. -/
def Slot.«end» (s : Slot) : Int := s.start + s.duration

/-- `Output::Schedule`, for one traffic class of a port -/
structure Schedule where
  gateIndex : Nat
  cycleStart : Int := -1
  cycleDuration : Int
  slots : List Slot
  /-- slots define open (or closed) intervals -/
  «open» : Bool := true
deriving DecidableEq, Repr

/-- `Output`: the schedules of each port and the start time of each application. -/
structure Output (Port Application : Type) where
  gateSchedules : List (Port × List Schedule)
  applicationStartTimes : List (Application × Int)

/-! ## Durations of a schedule -/

/-- The local variables of the loop over the slots. -/
structure SlotScan where
  initiallyOpen : Bool
  durations : List Int
  slotEnd : Int
deriving DecidableEq, Repr

/-- One slot. -/
def scanSlot (gateCycleDuration : Int) («open» : Bool) (acc : SlotScan) (slot : Slot) :
    Except GateError SlotScan :=
  if slot.start < 0 ∨ slot.end > gateCycleDuration then .error .invalidSlot
  else if slot.start = 0 then
    .ok ⟨«open», acc.durations ++ [slot.duration], slot.end⟩
  else if slot.start - acc.slotEnd < 0 then .error .negativeGap
  else .ok ⟨acc.initiallyOpen, acc.durations ++ [slot.start - acc.slotEnd, slot.duration], slot.end⟩

def scanSlots (gateCycleDuration : Int) («open» : Bool) :
    List Slot → SlotScan → Except GateError SlotScan
  | [], acc => .ok acc
  | slot :: slots, acc =>
    match scanSlot gateCycleDuration «open» acc slot with
    | .ok acc => scanSlots gateCycleDuration «open» slots acc
    | .error e => .error e

/-- The values for the three parameters of a gate. -/
structure GateParameters where
  initiallyOpen : Bool
  offset : Int
  durations : List Int
deriving DecidableEq, Repr

/-- Makes the list even: the last entry goes to the first one, and to the offset. -/
def mergeLast : List Int → Int × List Int
  | [] => (0, [])
  | [d] => if [d].length % 2 ≠ 0 then (0, []) else (0, [d])
  | d :: e :: ds =>
    if (d :: e :: ds).length % 2 ≠ 0 then
      let delta := (e :: ds).getLast (List.cons_ne_nil _ _)
      (delta, (d + delta) :: (e :: ds).dropLast)
    else (0, d :: e :: ds)

/-- What is done after the loop: the rest of the cycle is added and the list is made even. -/
def finishScan (cycleDuration : Int) (scan : SlotScan) : GateParameters :=
  let remainingDuration := cycleDuration - scan.slotEnd
  if scan.slotEnd ≠ 0 then
    let durations :=
      if remainingDuration ≠ 0 then scan.durations ++ [remainingDuration] else scan.durations
    ⟨scan.initiallyOpen, (mergeLast durations).1, (mergeLast durations).2⟩
  else ⟨scan.initiallyOpen, 0, scan.durations⟩

/-- The part of `configureGateScheduling` that comes before the parameters are written. -/
def computeParameters (gateCycleDuration : Int) (schedule : Schedule) :
    Except GateError GateParameters :=
  (scanSlots gateCycleDuration schedule.open schedule.slots ⟨!schedule.open, [], 0⟩).map
    (finishScan schedule.cycleDuration)

/-! ### Small lemmas -/

theorem scanSlot_of_zero {gateCycleDuration : Int} {o : Bool} {acc : SlotScan} {slot : Slot}
    (hstart : slot.start = 0) (hend : slot.end ≤ gateCycleDuration) :
    scanSlot gateCycleDuration o acc slot =
      .ok ⟨o, acc.durations ++ [slot.duration], slot.end⟩ := by
  rw [scanSlot, if_neg (by omega), if_pos hstart]

theorem scanSlot_of_gap {gateCycleDuration : Int} {o : Bool} {acc : SlotScan} {slot : Slot}
    (hstart : 0 < slot.start) (hend : slot.end ≤ gateCycleDuration)
    (hgap : acc.slotEnd ≤ slot.start) :
    scanSlot gateCycleDuration o acc slot =
      .ok ⟨acc.initiallyOpen, acc.durations ++ [slot.start - acc.slotEnd, slot.duration],
        slot.end⟩ := by
  rw [scanSlot, if_neg (by omega), if_neg (by omega), if_neg (by omega)]

theorem scanSlots_cons_of_ok {gateCycleDuration : Int} {o : Bool} {acc acc' : SlotScan}
    {slot : Slot} {slots : List Slot} (h : scanSlot gateCycleDuration o acc slot = .ok acc') :
    scanSlots gateCycleDuration o (slot :: slots) acc =
      scanSlots gateCycleDuration o slots acc' := by
  rw [scanSlots, h]

/-- What one slot adds. -/
theorem scanSlot_eq_ok {gateCycleDuration : Int} {o : Bool} {acc acc' : SlotScan} {slot : Slot} :
    scanSlot gateCycleDuration o acc slot = .ok acc' ↔
      slot.end ≤ gateCycleDuration ∧
      (slot.start = 0 ∧ ⟨o, acc.durations ++ [slot.duration], slot.end⟩ = acc' ∨
        0 < slot.start ∧ acc.slotEnd ≤ slot.start ∧ ⟨acc.initiallyOpen,
          acc.durations ++ [slot.start - acc.slotEnd, slot.duration], slot.end⟩ = acc') := by
  constructor
  · intro h
    rw [scanSlot] at h
    split at h
    · cases h
    · split at h
      · exact ⟨by omega, .inl ⟨‹_›, Except.ok.inj h⟩⟩
      · split at h
        · cases h
        · exact ⟨by omega, .inr ⟨by omega, by omega, Except.ok.inj h⟩⟩
  · rintro ⟨hend, ⟨hstart, rfl⟩ | ⟨hstart, hgap, rfl⟩⟩
    · exact scanSlot_of_zero hstart hend
    · exact scanSlot_of_gap hstart hend hgap

theorem scanSlots_cons_eq_ok {gateCycleDuration : Int} {o : Bool} {acc scan : SlotScan}
    {slot : Slot} {slots : List Slot} :
    scanSlots gateCycleDuration o (slot :: slots) acc = .ok scan ↔
      ∃ acc', scanSlot gateCycleDuration o acc slot = .ok acc' ∧
        scanSlots gateCycleDuration o slots acc' = .ok scan := by
  rw [scanSlots]
  cases scanSlot gateCycleDuration o acc slot <;> simp

theorem computeParameters_ok {gateCycleDuration : Int} {schedule : Schedule} {p : GateParameters}
    (h : computeParameters gateCycleDuration schedule = .ok p) :
    ∃ scan, scanSlots gateCycleDuration schedule.open schedule.slots ⟨!schedule.open, [], 0⟩ =
      .ok scan ∧ finishScan schedule.cycleDuration scan = p := by
  rw [computeParameters] at h
  cases hscan : scanSlots gateCycleDuration schedule.open schedule.slots ⟨!schedule.open, [], 0⟩ with
  | error e =>
    rw [hscan] at h
    cases h
  | ok scan =>
    rw [hscan] at h
    cases h
    exact ⟨scan, rfl, rfl⟩

theorem mergeLast_eq_nil {ds : List Int} : (mergeLast ds).2 = [] ↔ ds.length ≤ 1 := by
  match ds with
  | [] => simp [mergeLast]
  | [d] => simp [mergeLast]
  | d :: e :: ds =>
    rw [mergeLast]
    split <;> simp

theorem finishScan_durations_eq_nil {cycleDuration : Int} {scan : SlotScan} :
    (finishScan cycleDuration scan).durations = [] ↔
      scan.durations.length + (if scan.slotEnd ≠ 0 ∧ cycleDuration ≠ scan.slotEnd then 1 else 0) ≤
        if scan.slotEnd ≠ 0 then 1 else 0 := by
  rw [finishScan]
  by_cases hend : scan.slotEnd ≠ 0
  · rw [if_pos hend, mergeLast_eq_nil]
    by_cases hrem : cycleDuration - scan.slotEnd ≠ 0
    · rw [if_pos hrem, if_pos ⟨hend, by omega⟩, if_pos hend, List.length_append]
      rfl
    · rw [if_neg hrem, if_neg (by omega), if_pos hend, Nat.add_zero]
  · rw [if_neg hend, if_neg (by omega), if_neg hend]
    simp

/-! ## Writing the parameters -/

/-- The three assignments, at time `now`. Each of them makes the gate start over. -/
def writeParameters (now : Int) (p : GateParameters) (g : PeriodicGate) :
    Except GateError PeriodicGate :=
  ((g.setInitiallyOpen now p.initiallyOpen).setOffset now p.offset).setDurations now p.durations

/-- `configureGateScheduling` once the schedule is found. No durations: the gate is left alone. -/
def configureGate (gateCycleDuration now : Int) (schedule : Schedule) (g : PeriodicGate) :
    Except GateError PeriodicGate :=
  match computeParameters gateCycleDuration schedule with
  | .error e => .error e
  | .ok p => if p.durations = [] then .ok g else writeParameters now p g

/-- `configureGateScheduling(cModule*, cModule*, Interface*)` for the gate `gateIndex` of `port` -/
def configureGateScheduling {Port Application : Type} [DecidableEq Port]
    (gateCycleDuration now : Int) (output : Output Port Application) (port : Port)
    (gateIndex : Nat) (g : PeriodicGate) : Except GateError PeriodicGate :=
  match output.gateSchedules.lookup port with
  | none => .error .noScheduleForInterface
  | some schedules =>
    match schedules[gateIndex]? with
    | none => .error (.noScheduleForTrafficClass gateIndex)
    | some schedule => configureGate gateCycleDuration now schedule g

end CooperativeTsn
