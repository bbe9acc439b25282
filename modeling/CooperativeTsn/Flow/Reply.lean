import CooperativeTsn.Flow.Request
import CooperativeTsn.Gate.Schedule
import CooperativeTsn.Infra.Assoc
import Mathlib.Data.List.Sort
import Mathlib.Algebra.Order.Field.Rat
import Mathlib.Tactic.Linarith

/-!
# The reply of the scheduler

`TSNschedGateScheduleConfigurator::convertJsonToOutput`. Switches, ports and flows are found by the
names that the reply repeats from the request, and what is found first counts.

* `whileNegative_turns` — when the loop that moves a start time ends
* `portName_eq` — the name of a port, behind the name of its node
-/

namespace CooperativeTsn

open Infra.Runs Infra.Assoc ValueMap

variable {Module : Type}

/-- Why a reply is not converted. -/
inductive ReplyError where
  | simError (error : SimError)
  /-- the device of the flow has no port, or its data rate is zero -/
  | noDatarate
  /-- the loop that moves the start time does not end -/
  | endless

/-! ## Slots -/

/-- `std::sort` by start. Slots that start together may come in any order. -/
structure SlotSort where
  sort : List Slot → List Slot
  sort_perm : ∀ slots, (sort slots).Perm slots
  sort_sorted : ∀ slots, (sort slots).Pairwise fun slot1 slot2 => slot1.start ≤ slot2.start

/-- A sort that keeps the order of slots that start together. -/
def stableSlotSort : SlotSort where
  sort slots := slots.insertionSort fun slot1 slot2 => slot1.start ≤ slot2.start
  sort_perm slots := List.perm_insertionSort _ slots
  sort_sorted slots :=
    have : Std.Total fun slot1 slot2 : Slot => slot1.start ≤ slot2.start :=
      ⟨fun slot1 slot2 => Int.le_total slot1.start slot2.start⟩
    have : IsTrans Slot fun slot1 slot2 => slot1.start ≤ slot2.start :=
      ⟨fun _ _ _ h1 h2 => Int.le_trans h1 h2⟩
    List.pairwise_insertionSort _ slots

/-- A time in microseconds. -/
def getTime (fields : ValueMap) (key : String) : Except SimError Int := do
  let us ← (← get fields key).doubleValue
  pure (toSimTime (us / 1000000))

def getArray (fields : ValueMap) (key : String) : Except SimError (List Value) := do
  (← get fields key).arrayValue

/-- Slots without length are not used. -/
def readSlot (json : Value) : Except SimError (List Slot) := do
  let jsonSlot ← json.mapValue
  let slotStart ← getTime jsonSlot "slotStart"
  let slotDuration ← getTime jsonSlot "slotDuration"
  pure (if slotDuration = 0 then [] else [⟨slotStart, slotDuration⟩])

def readSlots (jsonPrioritySlot : ValueMap) : Except SimError (List Slot) := do
  let jsonSlots ← getArray jsonPrioritySlot "slotsData"
  let slots ← jsonSlots.mapM readSlot
  pure slots.flatten

/-- The slots of the entry, if it is for the gate. -/
def readPrioritySlot (gateIndex : Nat) (json : Value) : Except SimError (List Slot) := do
  let jsonPrioritySlot ← json.mapValue
  let priority ← getInt jsonPrioritySlot "priority"
  if gateIndex = priority then readSlots jsonPrioritySlot else pure []

def readSchedule (order : SlotSort) (jsonPort : ValueMap) (gateIndex : Nat) :
    Except SimError Schedule := do
  let cycleDuration ← getTime jsonPort "cycleDuration"
  let jsonPrioritySlots ← getArray jsonPort "prioritySlotsData"
  let slots ← jsonPrioritySlots.mapM (readPrioritySlot gateIndex)
  pure { gateIndex := gateIndex, cycleDuration := cycleDuration, slots := order.sort slots.flatten }

/-- One schedule for each gate of the port. -/
def readSchedules (order : SlotSort) (numGates : Int) (jsonPort : ValueMap) :
    Except SimError (List Schedule) :=
  (List.range numGates.toNat).mapM (readSchedule order jsonPort)

/-! ## Ports -/

/-- A port of the input: the node where it is and its place among the ports of the node. -/
abbrev PortId (Module : Type) := Module × Nat

/-- `portName.substr(portName.find('-') + 1)` -/
def portName (text : String) : String :=
  if '-' ∈ text.toList then String.ofList ((text.toList.dropWhile (· ≠ '-')).drop 1) else text

/-- An object of the reply with its name. -/
def readNamed (json : Value) : Except SimError (String × ValueMap) := do
  let fields ← json.mapValue
  let name ← getString fields "name"
  pure (name, fields)

section

variable (tree : ModuleTree Module) (order : SlotSort) (numGates : PortId Module → Int)

/-- All ports of the node have it as their `startNode`. -/
def findPort (switch_ : Node Module) (name : String) : Except SimError Nat :=
  require (.runtimeError ("Cannot find port: " ++ name))
    (switch_.ports.findIdx? fun port => tree.getFullName port.module = name)

def convertPort (switch_ : Node Module) (json : Value) :
    Except SimError (PortId Module × List Schedule) := do
  let (name, jsonPort) ← readNamed json
  let port ← findPort tree switch_ (portName name)
  let schedules ← readSchedules order (numGates (switch_.module, port)) jsonPort
  pure ((switch_.module, port), schedules)

def findSwitch (switches : List (Node Module)) (name : String) : Except SimError (Node Module) :=
  require (.runtimeError ("Cannot find switch: " ++ name))
    (switches.find? fun switch_ => tree.getFullName switch_.module = name)

def convertSwitch (switches : List (Node Module)) (json : Value) :
    Except SimError (List (PortId Module × List Schedule)) := do
  let (name, jsonSwitch) ← readNamed json
  let switch_ ← findSwitch tree switches name
  let jsonPorts ← getArray jsonSwitch "ports"
  jsonPorts.mapM (convertPort tree order numGates switch_)

def convertSwitches (switches : List (Node Module)) (json : ValueMap) :
    Except SimError (List (PortId Module × List Schedule)) := do
  let jsonSwitches ← getArray json "switches"
  let ports ← jsonSwitches.mapM (convertSwitch tree order numGates switches)
  pure ports.flatten

end

/-! ## Start times -/

/-- `while (startTime < 0) startTime += packetInterval` -/
def whileNegative (packetInterval : Rat) : Nat → Rat → Option Rat
  | 0, _ => none
  | fuel + 1, startTime =>
    if startTime < 0 then whileNegative packetInterval fuel (startTime + packetInterval)
    else some startTime

/-- The number of turns until the loop ends, if it does. -/
def turns (packetInterval startTime : Rat) : Nat := (-startTime / packetInterval).ceil.toNat + 1

/-- `s(application->packetLength / datarate)` for the first port of the device -/
def transmissionTime [DecidableEq Module] (input : Input Module) (application : Application Module) :
    Option Rat := do
  let device ← input.devices.find? fun device => device.module = application.device
  let port ← device.ports.head?
  if port.datarate = 0 then none else some (application.packetLength / port.datarate)

def adjustStartTime [DecidableEq Module] (input : Input Module) (application : Application Module)
    (firstSendingTime : Rat) : Except ReplyError Int := do
  let transmission ← require .noDatarate (transmissionTime input application)
  let packetInterval : Rat := application.packetInterval / 1000000000000
  let startTime := firstSendingTime - transmission
  let startTime ← require .endless
    (whileNegative packetInterval (turns packetInterval startTime) startTime)
  pure (toSimTime startTime)

def readFirstSendingTime (jsonFlow : ValueMap) : Except SimError Rat := do
  let us ← (← get jsonFlow "firstSendingTime").doubleValue
  pure (us / 1000000)

/-- The start time of a flow, from its object in the reply. -/
def readStartTime [DecidableEq Module] (input : Input Module) (flow : Flow Module)
    (jsonFlow : ValueMap) : Except ReplyError Int := do
  let firstSendingTime ← (readFirstSendingTime jsonFlow).mapError .simError
  adjustStartTime input flow.startApplication firstSendingTime

/-- Every flow has an application of its own, so its place stands for the application. -/
def findFlow (flows : List (Flow Module)) (name : String) : Except SimError (Nat × Flow Module) := do
  let i ← require (.runtimeError ("Cannot find flow: " ++ name))
    (flows.findIdx? fun flow => flow.name = name)
  let flow ← require .nullPointer flows[i]?
  pure (i, flow)

def convertFlow [DecidableEq Module] (input : Input Module) (json : Value) :
    Except ReplyError (Nat × Int) := do
  let (name, jsonFlow) ← (readNamed json).mapError .simError
  let (i, flow) ← (findFlow input.flows name).mapError .simError
  let startTime ← readStartTime input flow jsonFlow
  pure (i, startTime)

/-! ## The output -/

def convertJsonToOutput [DecidableEq Module] (tree : ModuleTree Module) (order : SlotSort)
    (numGates : PortId Module → Int) (input : Input Module) (json : ValueMap) :
    Except ReplyError (Output (PortId Module) Nat) := do
  let schedules ← (convertSwitches tree order numGates input.switches json).mapError .simError
  let jsonFlows ← (getArray json "flows").mapError .simError
  let startTimes ← jsonFlows.mapM (convertFlow input)
  pure ⟨collect schedules, assignAll startTimes⟩

section

variable {Port Application : Type} (output : Output Port Application)

def Output.schedulesOf [DecidableEq Port] (port : Port) : Option (List Schedule) :=
  output.gateSchedules.lookup port

def Output.startTimeOf [DecidableEq Application] (application : Application) : Option Int :=
  output.applicationStartTimes.lookup application

end

/-! ## Reading fields -/

theorem getArray_eq_ok {fields : ValueMap} {key : String} {values : List Value} :
    getArray fields key = .ok values ↔ fields.lookup key = some (.array values) := by
  rw [getArray, ValueMap.get]
  cases fields.lookup key with
  | none => simp [require, bind, Except.bind]
  | some value => cases value <;> simp [require, bind, Except.bind, Value.arrayValue]

theorem readNamed_eq_ok {json : Value} {name : String} {fields : ValueMap} :
    readNamed json = .ok (name, fields) ↔
      json = .map fields ∧ fields.lookup "name" = some (.string name) := by
  simp only [readNamed, bind_eq_ok, pure_eq_ok, getString_eq_ok, Prod.mk.injEq]
  constructor
  · rintro ⟨fields', hmap, name', hname, rfl, rfl⟩
    cases json with
    | map fields =>
      cases hmap
      exact ⟨rfl, hname⟩
    | _ => cases hmap
  · rintro ⟨rfl, hname⟩
    exact ⟨fields, rfl, name, hname, rfl, rfl⟩

/-! ## The loop over the start time -/

theorem whileNegative_of_nonneg {packetInterval t : Rat} (ht : 0 ≤ t) (fuel : Nat) :
    whileNegative packetInterval (fuel + 1) t = some t := by
  rw [whileNegative, if_neg (not_lt.mpr ht)]

/-- Without progress the loop does not end. -/
theorem whileNegative_of_nonpos {packetInterval : Rat} (hinterval : packetInterval ≤ 0) :
    ∀ (fuel : Nat) {t : Rat}, t < 0 → whileNegative packetInterval fuel t = none
  | 0, _, _ => rfl
  | fuel + 1, t, ht => by
    rw [whileNegative, if_pos ht]
    exact whileNegative_of_nonpos hinterval fuel (by linarith)

/-- `n` intervals lead out of the negative times. -/
theorem exists_whileNegative {packetInterval : Rat} : ∀ (n : Nat) {t : Rat},
    -t ≤ n * packetInterval → ∃ r, whileNegative packetInterval (n + 1) t = some r
  | 0, t, h => ⟨t, whileNegative_of_nonneg (by simpa using h) 0⟩
  | n + 1, t, h => by
    by_cases ht : t < 0
    · rw [whileNegative, if_pos ht]
      refine exists_whileNegative n ?_
      push_cast at h
      linarith
    · exact ⟨t, whileNegative_of_nonneg (not_lt.mp ht) _⟩

theorem whileNegative_add {packetInterval r : Rat} (more : Nat) : ∀ {fuel : Nat} {t : Rat},
    whileNegative packetInterval fuel t = some r →
    whileNegative packetInterval (fuel + more) t = some r
  | 0, _, h => by cases h
  | fuel + 1, t, h => by
    rw [Nat.succ_add, whileNegative]
    rw [whileNegative] at h
    split
    · next ht =>
      rw [if_pos ht] at h
      exact whileNegative_add more h
    · next ht => rwa [if_neg ht] at h

/-- **The loop ends iff it does so in the number of turns**, which is the case when the time is not
negative or the interval is positive. -/
theorem whileNegative_turns (packetInterval t : Rat) :
    (∃ r, whileNegative packetInterval (turns packetInterval t) t = some r) ↔
      0 ≤ t ∨ 0 < packetInterval := by
  constructor
  · rintro ⟨r, h⟩
    by_contra hnot
    rw [not_or, not_le, not_lt] at hnot
    rw [whileNegative_of_nonpos hnot.2 _ hnot.1] at h
    cases h
  · rintro (ht | hinterval)
    · exact ⟨t, whileNegative_of_nonneg ht _⟩
    · refine exists_whileNegative _ ?_
      have hceil : -t / packetInterval ≤ (((-t / packetInterval).ceil.toNat : Int) : Rat) :=
        Rat.le_ceil.trans (by exact_mod_cast Int.self_le_toNat _)
      rw [div_le_iff₀ hinterval] at hceil
      exact_mod_cast hceil

/-- No fuel gives another result. -/
theorem whileNegative_eq_turns {packetInterval t r : Rat} {fuel : Nat}
    (h : whileNegative packetInterval fuel t = some r) :
    whileNegative packetInterval (turns packetInterval t) t = some r := by
  have hends : 0 ≤ t ∨ 0 < packetInterval := by
    by_contra hnot
    rw [not_or, not_le, not_lt] at hnot
    rw [whileNegative_of_nonpos hnot.2 _ hnot.1] at h
    cases h
  obtain ⟨r', h'⟩ := (whileNegative_turns packetInterval t).mpr hends
  have h1 := whileNegative_add (turns packetInterval t) h
  have h2 := whileNegative_add fuel h'
  rw [Nat.add_comm, h1] at h2
  rw [h', h2]

/-! ## The names of ports -/

/-- The name of a node has no dash. -/
theorem portName_eq (tree : ModuleTree Module) (node port : Module) :
    portName (tree.getFullName node ++ "-" ++ tree.getFullName port) = tree.getFullName port := by
  have hdash : ∀ c ∈ (tree.getFullName node).toList, decide (c ≠ '-') = true := by
    intro c hc
    rcases tree.getFullName_chars node c hc with h | h
    · rw [decide_eq_true_eq]
      rintro rfl
      exact absurd h (by decide)
    · rw [decide_eq_true_eq]
      rintro rfl
      exact absurd h (by decide)
  rw [portName, if_pos (by simp)]
  simp only [String.toList_append]
  rw [List.append_assoc, List.dropWhile_append_of_pos hdash]
  simp

end CooperativeTsn
