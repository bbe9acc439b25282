import CooperativeTsn.Flow.Exchange
import CooperativeTsn.Gate.History
import CooperativeTsn.Infra.Updates

/-!
# From the reply to the gates

The reply lists slots for the priorities of a port, and each gate of the port should get the slots
that are listed for its index. `convertJsonToOutput` makes one schedule for each of the gates that
the port is said to have and asks the reply what it lists for them; what it lists for other
priorities is not looked at. `configureGateScheduling` then goes through the gates that are there.

* `readSchedules_eq` — the schedules that an object of the reply gives its port
* `configureGateScheduling_spec` — what the loop over the gates leaves in each of them
* `slots_delivered_iff` — when every slot that is listed reaches the gate of its priority
-/

namespace CooperativeTsn

open Infra.Runs Infra.Assoc Infra.Updates ValueMap

variable {Module Gate : Type}

/-! ## The gates of a topology -/

/-- Why the gates are not configured. -/
inductive ConfigureError where
  | simError (error : SimError)
  | gateError (error : GateError)

/-- A topology with the gates in the queues of its network interfaces. -/
structure GatedTopology (Module Gate : Type) extends Topology Module where
  /-- the `PeriodicGate`s among the submodules of `.macLayer.queue` -/
  gates : Module → List Gate
  /-- `getIndex` -/
  gateIndex : Gate → Nat
  interfaces_nodup : ((nodes.flatMap Node.ports).map Port.module).Nodup
  gates_nodup : ∀ m, (gates m).Nodup

/-- The ports of the input, by their network interfaces. -/
def Topology.inputPorts (topology : Topology Module) : List (Module × PortId Module) :=
  topology.nodes.flatMap fun node => node.ports.zipIdx.map fun port =>
    (port.1.module, (node.module, port.2))

/-- `Input::getPort` -/
def Topology.getPort [DecidableEq Module] (topology : Topology Module) (networkInterface : Module) :
    Except SimError (PortId Module) :=
  require (.runtimeError "Cannot find port") (topology.inputPorts.lookup networkInterface)

namespace GatedTopology

/-- All gates, each with the network interface it is in. -/
def allGates (topology : GatedTopology Module Gate) : List (Module × Gate) :=
  (topology.nodes.flatMap Node.ports).flatMap fun port =>
    (topology.gates port.module).map fun gate => (port.module, gate)

/-- `configureGateScheduling()`: the loops over the nodes, their interfaces and the gates -/
def configureGateScheduling [DecidableEq Module] [DecidableEq Gate]
    (topology : GatedTopology Module Gate) (gateCycleDuration now : Int)
    (output : Output (PortId Module) Nat) :
    (Module × Gate → PeriodicGate) → Except ConfigureError (Module × Gate → PeriodicGate) :=
  updateEach (fun key gate => do
    let port ← (topology.toTopology.getPort key.1).mapError .simError
    (CooperativeTsn.configureGateScheduling gateCycleDuration now output port
      (topology.gateIndex key.2) gate).mapError .gateError) topology.allGates

end GatedTopology

/-! ## What a reply lists -/

/-- A slot as the reply gives it, in microseconds. -/
structure JsonSlot where
  start : Rat
  duration : Rat
deriving DecidableEq

/-- The slot as a simulation time. -/
def JsonSlot.toSlot (slot : JsonSlot) : Slot :=
  ⟨toSimTime (slot.start / 1000000), toSimTime (slot.duration / 1000000)⟩

def jsonSlot (json : Value) : Except SimError JsonSlot := do
  let fields ← json.mapValue
  let start ← (← get fields "slotStart").doubleValue
  let duration ← (← get fields "slotDuration").doubleValue
  pure ⟨start, duration⟩

def jsonPrioritySlots (json : Value) : Except SimError (Int × List JsonSlot) := do
  let fields ← json.mapValue
  let priority ← getInt fields "priority"
  let slots ← (← getArray fields "slotsData").mapM jsonSlot
  pure (priority, slots)

/-- All slots that an object of a port lists for a priority. What cannot be read lists none. -/
def slotsFor (priority : Int) (jsonPort : ValueMap) : List JsonSlot :=
  ((getArray jsonPort "prioritySlotsData").toOption.getD []).flatMap fun json =>
    match jsonPrioritySlots json with
    | .ok (p, slots) => if p = priority then slots else []
    | .error _ => []

/-- The slots of positive length. -/
def listedSlots (priority : Int) (jsonPorts : List ValueMap) : List JsonSlot :=
  (jsonPorts.flatMap (slotsFor priority)).filter (0 < ·.duration)

/-- The port that an object of the reply is about. -/
def locatePort (tree : ModuleTree Module) (switch_ : Node Module) (json : Value) :
    Except SimError (PortId Module × ValueMap) := do
  let (name, jsonPort) ← readNamed json
  let port ← findPort tree switch_ (portName name)
  pure ((switch_.module, port), jsonPort)

def locatePorts (tree : ModuleTree Module) (switches : List (Node Module)) (json : ValueMap) :
    Except SimError (List (PortId Module × ValueMap)) := do
  let jsonSwitches ← getArray json "switches"
  let ports ← jsonSwitches.mapM fun json => do
    let (name, jsonSwitch) ← readNamed json
    let switch_ ← findSwitch tree switches name
    let jsonPorts ← getArray jsonSwitch "ports"
    jsonPorts.mapM (locatePort tree switch_)
  pure ports.flatten

/-- The objects of the reply that are about the port. -/
def jsonPortsOf [DecidableEq Module] (tree : ModuleTree Module) (switches : List (Node Module))
    (json : ValueMap) (port : PortId Module) : List ValueMap :=
  (((locatePorts tree switches json).toOption.getD []).filter (·.1 = port)).map Prod.snd

/-! ## Slots that reach their gate -/

/-- The slots of positive length that schedules hold for the gate of a priority. -/
def heldSlots (priority : Int) (schedules : List Schedule) : List Slot :=
  ((schedules.filter fun schedule => schedule.gateIndex = priority).flatMap Schedule.slots).filter
    (0 < ·.duration)

/-- The parameters of the gate are those of the schedule. -/
def Written (gateCycleDuration : Int) (schedule : Schedule) (g : PeriodicGate) : Prop :=
  ∃ p, computeParameters gateCycleDuration schedule = .ok p ∧ p.durations ≠ [] ∧ g.parameters = p

/-- The slots that are listed for a priority of a port reach its gate, each once. -/
structure Delivered (topology : GatedTopology Module Gate) (gateCycleDuration : Int)
    (schedules : List Schedule) (gates : Module × Gate → PeriodicGate) (networkInterface : Module)
    (priority : Int) (listed : List JsonSlot) : Prop where
  /-- each slot is in a schedule of its priority, once -/
  placed : (heldSlots priority schedules).Perm (listed.map JsonSlot.toSlot)
  /-- the schedule that holds them is written to the gate of the priority -/
  written : ∃ gate ∈ topology.gates networkInterface,
    topology.gateIndex gate = priority ∧
    ∃ schedule, schedules[topology.gateIndex gate]? = some schedule ∧
      (heldSlots priority [schedule]).Perm (listed.map JsonSlot.toSlot) ∧
      Written gateCycleDuration schedule (gates (networkInterface, gate))

/-- One slot that begins with the cycle and lasts as long. -/
def FillsCycle (priority : Int) (jsonPort : ValueMap) : Prop :=
  ∃ cycleDuration, getTime jsonPort "cycleDuration" = .ok cycleDuration ∧
    ((slotsFor priority jsonPort).map JsonSlot.toSlot).filter (·.duration ≠ 0) =
      [⟨0, cycleDuration⟩]

/-- What the port and the reply have to fulfil for the slots of a priority. -/
structure Deliverable (topology : GatedTopology Module Gate) (numGates : Int)
    (networkInterface : Module) (priority : Int) (jsonPorts : List ValueMap) : Prop where
  /-- the port is said to have a gate for the priority -/
  inRange : 0 ≤ priority ∧ priority < numGates
  /-- no slot is rounded to nothing -/
  long : ∀ slot ∈ listedSlots priority jsonPorts, 0 < slot.toSlot.duration
  /-- the gate is there -/
  gate : ∃ gate ∈ topology.gates networkInterface, topology.gateIndex gate = priority
  /-- only the first object of the port lists slots -/
  first : listedSlots priority jsonPorts.tail = []
  notFull : ∀ jsonPort ∈ jsonPorts.head?, ¬ FillsCycle priority jsonPort

/-! ## What is read from an object of a port -/

/-- The schedule for a gate. -/
def scheduleOf (order : SlotSort) (jsonPort : ValueMap) (gateIndex : Nat) : Schedule where
  gateIndex := gateIndex
  cycleDuration := (getTime jsonPort "cycleDuration").toOption.getD 0
  slots := order.sort (((slotsFor gateIndex jsonPort).map JsonSlot.toSlot).filter (·.duration ≠ 0))

theorem readSlot_ok {json : Value} {slots : List Slot} (h : readSlot json = .ok slots) :
    ∃ slot, jsonSlot json = .ok slot ∧ [slot.toSlot].filter (·.duration ≠ 0) = slots := by
  simp only [readSlot, getTime, bind_eq_ok, pure_eq_ok] at h
  obtain ⟨fields, hfields, _, ⟨v, hv, start, hstart, rfl⟩, _, ⟨w, hw, duration, hduration, rfl⟩,
    rfl⟩ := h
  refine ⟨⟨start, duration⟩, ?_, ?_⟩
  · simp only [jsonSlot, bind_eq_ok, pure_eq_ok]
    exact ⟨fields, hfields, v, hv, _, hstart, w, hw, _, hduration, rfl⟩
  · by_cases hzero : toSimTime (duration / 1000000) = 0
    · rw [if_pos hzero, List.filter_cons_of_neg (by simp [JsonSlot.toSlot, hzero])]
      rfl
    · rw [if_neg hzero, List.filter_cons_of_pos (by simp [JsonSlot.toSlot, hzero])]
      rfl

theorem readSlots_ok {jsonPrioritySlot : ValueMap} {slots : List Slot}
    (h : readSlots jsonPrioritySlot = .ok slots) :
    ∃ values jsonSlots, getArray jsonPrioritySlot "slotsData" = .ok values ∧
      values.mapM jsonSlot = .ok jsonSlots ∧
      (jsonSlots.map JsonSlot.toSlot).filter (·.duration ≠ 0) = slots := by
  simp only [readSlots, bind_eq_ok, pure_eq_ok] at h
  obtain ⟨values, hvalues, perSlot, hread, rfl⟩ := h
  obtain ⟨jsonSlots, hjson, hall⟩ := mapM_forall₂ (fun _ _ => readSlot_ok) hread
  refine ⟨values, jsonSlots, hvalues, hjson, ?_⟩
  clear hread hjson
  induction hall with
  | nil => rfl
  | @cons slot _ jsonSlots _ hslot _ ih =>
    rw [List.flatten_cons, ← ih, ← hslot, ← List.filter_append]
    rfl

/-- What an object of `prioritySlotsData` gives to a gate. -/
theorem readPrioritySlot_ok {gateIndex : Nat} {json : Value} {slots : List Slot}
    (h : readPrioritySlot gateIndex json = .ok slots) :
    ((match jsonPrioritySlots json with
      | .ok (p, slots) => if p = gateIndex then slots else []
      | .error _ => []).map JsonSlot.toSlot).filter (·.duration ≠ 0) = slots := by
  simp only [readPrioritySlot, bind_eq_ok] at h
  obtain ⟨fields, hfields, priority, hpriority, h⟩ := h
  by_cases hp : (gateIndex : Int) = priority
  · rw [if_pos hp] at h
    obtain ⟨values, jsonSlots, hvalues, hjson, rfl⟩ := readSlots_ok h
    have hread : jsonPrioritySlots json = .ok (priority, jsonSlots) := by
      simp only [jsonPrioritySlots, bind_eq_ok, pure_eq_ok]
      exact ⟨fields, hfields, priority, hpriority, values, hvalues, jsonSlots, hjson, rfl⟩
    simp only [hread, hp, if_true]
  · rw [if_neg hp, pure_eq_ok] at h
    subst h
    cases hread : jsonPrioritySlots json with
    | error e => rfl
    | ok read =>
      simp only [jsonPrioritySlots, bind_eq_ok, pure_eq_ok] at hread
      obtain ⟨fields', hfields', priority', hpriority', _, -, _, -, rfl⟩ := hread
      obtain rfl := Except.ok.inj (hfields.symm.trans hfields')
      obtain rfl := Except.ok.inj (hpriority.symm.trans hpriority')
      simp only [Ne.symm hp, if_false]
      rfl

theorem readSchedule_ok {order : SlotSort} {jsonPort : ValueMap} {gateIndex : Nat}
    {schedule : Schedule} (h : readSchedule order jsonPort gateIndex = .ok schedule) :
    (∃ cycleDuration, getTime jsonPort "cycleDuration" = .ok cycleDuration) ∧
      schedule = scheduleOf order jsonPort gateIndex := by
  simp only [readSchedule, bind_eq_ok, pure_eq_ok] at h
  obtain ⟨cycleDuration, hcycle, values, hvalues, perPriority, hread, rfl⟩ := h
  have hslots := mapM_eq_map (fun _ _ h => (readPrioritySlot_ok h).symm) hread
  refine ⟨⟨cycleDuration, hcycle⟩, ?_⟩
  rw [scheduleOf, slotsFor, hcycle, hvalues, hslots, List.map_flatMap, List.filter_flatMap]
  rfl

/-- The schedules that an object of the reply gives its port. -/
theorem readSchedules_eq {order : SlotSort} {numGates : Int} {jsonPort : ValueMap}
    {schedules : List Schedule} (h : readSchedules order numGates jsonPort = .ok schedules) :
    schedules = (List.range numGates.toNat).map (scheduleOf order jsonPort) :=
  mapM_eq_map (fun _ _ h => (readSchedule_ok h).2) h

/-! ## The slots of a port -/

/-- A slot that is not rounded to nothing has a positive length. -/
theorem JsonSlot.duration_pos {slot : JsonSlot} (h : 0 < slot.toSlot.duration) :
    0 < slot.duration := by
  have hfloor : (1 : Int) ≤ (slot.duration / 1000000 * 1000000000000 + 1 / 2).floor := h
  rw [Rat.le_floor_iff] at hfloor
  push_cast at hfloor
  linarith

theorem listedSlots_cons (priority : Int) (jsonPort : ValueMap) (jsonPorts : List ValueMap) :
    listedSlots priority (jsonPort :: jsonPorts) =
      listedSlots priority [jsonPort] ++ listedSlots priority jsonPorts := by
  simp [listedSlots]

theorem heldSlots_append (priority : Int) (schedules more : List Schedule) :
    heldSlots priority (schedules ++ more) =
      heldSlots priority schedules ++ heldSlots priority more := by
  simp [heldSlots]

theorem heldSlots_singleton (order : SlotSort) (jsonPort : ValueMap) (gateIndex : Nat) :
    heldSlots gateIndex [scheduleOf order jsonPort gateIndex] =
      (scheduleOf order jsonPort gateIndex).slots.filter (0 < ·.duration) := by
  simp [heldSlots, scheduleOf]

/-- The schedule for a gate holds what is listed for it, if it is not rounded to nothing. -/
theorem heldSlots_scheduleOf (order : SlotSort) (jsonPort : ValueMap) (gateIndex : Nat) :
    (heldSlots gateIndex [scheduleOf order jsonPort gateIndex]).Perm
      (((listedSlots gateIndex [jsonPort]).map JsonSlot.toSlot).filter (0 < ·.duration)) := by
  have hlisted : (((slotsFor gateIndex jsonPort).map JsonSlot.toSlot).filter (·.duration ≠ 0)).filter
      (0 < ·.duration) =
      ((listedSlots gateIndex [jsonPort]).map JsonSlot.toSlot).filter (0 < ·.duration) := by
    rw [listedSlots, List.flatMap_singleton, List.filter_map, List.filter_map, List.filter_map,
      List.filter_filter, List.filter_filter]
    refine congrArg _ (List.filter_congr fun slot _ => ?_)
    have hpos := @JsonSlot.duration_pos slot
    simp only [Function.comp_apply, ne_eq, decide_not]
    rw [Bool.eq_iff_iff]
    simp only [Bool.and_eq_true, decide_eq_true_eq, Bool.not_eq_true', decide_eq_false_iff_not]
    constructor
    · rintro ⟨h, -⟩
      exact ⟨h, hpos h⟩
    · rintro ⟨h, -⟩
      exact ⟨h, h.ne'⟩
  rw [heldSlots_singleton, ← hlisted]
  exact (order.sort_perm _).filter _

/-- One object fills the schedule of the priority, if there is one. -/
theorem heldSlots_schedules (order : SlotSort) (n : Nat) (jsonPort : ValueMap) (priority : Int) :
    (heldSlots priority ((List.range n).map (scheduleOf order jsonPort))).Perm
      (if 0 ≤ priority ∧ priority < n then
        ((listedSlots priority [jsonPort]).map JsonSlot.toSlot).filter (0 < ·.duration)
      else []) := by
  have hfilter : heldSlots priority ((List.range n).map (scheduleOf order jsonPort)) =
      heldSlots priority (((List.range n).filter fun i : Nat => (i : Int) = priority).map
        (scheduleOf order jsonPort)) := by
    rw [heldSlots, heldSlots, List.filter_map, List.filter_map, List.filter_filter]
    simp [Function.comp_def, scheduleOf]
  rw [hfilter]
  split
  · next hrange =>
    obtain ⟨i, rfl⟩ := Int.eq_ofNat_of_zero_le hrange.1
    -- one gate index is the priority
    have hone : (List.range n).filter (fun j : Nat => (j : Int) = i) = [i] := by
      have hmem : i ∈ List.range n := List.mem_range.mpr (by omega)
      simp only [Int.natCast_inj]
      rw [List.filter_eq, List.count_eq_one_of_mem List.nodup_range hmem]
      rfl
    rw [hone]
    exact heldSlots_scheduleOf order jsonPort i
  · next hrange =>
    have hnone : (List.range n).filter (fun j : Nat => (j : Int) = priority) = [] := by
      rw [List.filter_eq_nil_iff]
      intro j hj heq
      rw [decide_eq_true_eq] at heq
      exact hrange (by rw [List.mem_range] at hj; omega)
    rw [hnone]
    exact .refl _

/-- The schedules of a port, from all objects of the reply that are about it. -/
def portSchedules (order : SlotSort) (numGates : Int) (jsonPorts : List ValueMap) : List Schedule :=
  jsonPorts.flatMap fun jsonPort => (List.range numGates.toNat).map (scheduleOf order jsonPort)

theorem heldSlots_portSchedules (order : SlotSort) (numGates : Int) (priority : Int) :
    ∀ jsonPorts : List ValueMap,
    (heldSlots priority (portSchedules order numGates jsonPorts)).Perm
      (if 0 ≤ priority ∧ priority < numGates then
        ((listedSlots priority jsonPorts).map JsonSlot.toSlot).filter (0 < ·.duration)
      else [])
  | [] => by
    have : heldSlots priority (portSchedules order numGates []) = [] := rfl
    rw [this]
    split <;> exact .refl _
  | jsonPort :: jsonPorts => by
    have hhead := heldSlots_schedules order numGates.toNat jsonPort priority
    have htail := heldSlots_portSchedules order numGates priority jsonPorts
    have hrange : 0 ≤ priority ∧ priority < (numGates.toNat : Int) ↔
        0 ≤ priority ∧ priority < numGates := by omega
    rw [portSchedules, List.flatMap_cons, heldSlots_append, listedSlots_cons, List.map_append,
      List.filter_append]
    refine (hhead.append htail).trans ?_
    simp only [hrange]
    split <;> exact .refl _

section

variable [DecidableEq Module] {tree : ModuleTree Module} {order : SlotSort}
  {numGates : PortId Module → Int} {input : Input Module} {json : ValueMap}
  {output : Output (PortId Module) Nat}

omit [DecidableEq Module] in
theorem convertPort_ok {switch_ : Node Module} {value : Value}
    {entry : PortId Module × List Schedule}
    (h : convertPort tree order numGates switch_ value = .ok entry) :
    ∃ located, locatePort tree switch_ value = .ok located ∧ located.1 = entry.1 ∧
      readSchedules order (numGates located.1) located.2 = .ok entry.2 := by
  simp only [convertPort, bind_eq_ok, pure_eq_ok] at h
  obtain ⟨⟨name, jsonPort⟩, hname, port, hport, schedules, hread, rfl⟩ := h
  refine ⟨((switch_.module, port), jsonPort), ?_, rfl, hread⟩
  simp only [locatePort, bind_eq_ok, pure_eq_ok]
  exact ⟨_, hname, port, hport, rfl⟩

omit [DecidableEq Module] in
/-- Every entry comes from an object that is about its port. -/
theorem convertSwitches_ok {switches : List (Node Module)}
    {entries : List (PortId Module × List Schedule)}
    (h : convertSwitches tree order numGates switches json = .ok entries) :
    ∃ located, locatePorts tree switches json = .ok located ∧
      List.Forall₂ (fun object entry => object.1 = entry.1 ∧
        readSchedules order (numGates object.1) object.2 = .ok entry.2) located entries := by
  simp only [convertSwitches, bind_eq_ok, pure_eq_ok] at h
  obtain ⟨values, hvalues, perSwitch, hswitches, rfl⟩ := h
  obtain ⟨located, hlocated, hall⟩ := mapM_forall₂ (g := fun json => do
      let (name, jsonSwitch) ← readNamed json
      let switch_ ← findSwitch tree switches name
      let jsonPorts ← getArray jsonSwitch "ports"
      jsonPorts.mapM (locatePort tree switch_)) (fun value ports hswitch => by
    simp only [convertSwitch, bind_eq_ok] at hswitch ⊢
    obtain ⟨named, hnamed, switch_, hfind, jsonPorts, hports, hconvert⟩ := hswitch
    obtain ⟨objects, hobjects, hall⟩ := mapM_forall₂ (fun _ _ => convertPort_ok) hconvert
    exact ⟨objects, ⟨named, hnamed, switch_, hfind, jsonPorts, hports, hobjects⟩, hall⟩) hswitches
  refine ⟨located.flatten, ?_, List.rel_flatten hall⟩
  simp only [locatePorts, bind_eq_ok, pure_eq_ok]
  exact ⟨values, hvalues, located, hlocated, rfl⟩

/-- What is stored for a port is what the objects of the port give. -/
theorem schedulesOf_eq (h : convertJsonToOutput tree order numGates input json = .ok output)
    (port : PortId Module) :
    (output.schedulesOf port).getD [] =
        portSchedules order (numGates port) (jsonPortsOf tree input.switches json port) ∧
      ∀ jsonPort ∈ jsonPortsOf tree input.switches json port,
        ∃ schedules, readSchedules order (numGates port) jsonPort = .ok schedules := by
  simp only [convertJsonToOutput, bind_eq_ok, pure_eq_ok, mapError_eq_ok] at h
  obtain ⟨entries, hentries, _, -, _, -, houtput⟩ := h
  obtain ⟨located, hlocated, hall⟩ := convertSwitches_ok hentries
  -- the schedules of all entries for the port are stored, in their order
  have hstored : (output.schedulesOf port).getD [] = valuesAt port entries := by
    rw [← houtput, Output.schedulesOf, lookup_collect]
    split
    · rfl
    · next hnot => rw [valuesAt_of_not_mem hnot, Option.getD_none]
  rw [hstored, jsonPortsOf, hlocated]
  clear hstored hlocated hentries houtput
  show valuesAt port entries = portSchedules order (numGates port)
    ((located.filter (·.1 = port)).map Prod.snd) ∧ ∀ jsonPort ∈
      (located.filter (·.1 = port)).map Prod.snd, _
  -- the objects of the reply and the entries go side by side
  induction hall with
  | nil => exact ⟨rfl, by simp⟩
  | @cons object entry located entries hentry _ ih =>
    obtain ⟨hport, hread⟩ := hentry
    rw [valuesAt] at ih ⊢
    by_cases hsame : entry.1 = port
    · have hobject : object.1 = port := hport.trans hsame
      rw [hobject] at hread
      rw [List.filter_cons_of_pos (by simpa using hsame),
        List.filter_cons_of_pos (by simpa using hobject), List.flatMap_cons, List.map_cons, ih.1,
        portSchedules, portSchedules, List.flatMap_cons, readSchedules_eq hread]
      exact ⟨rfl, List.forall_mem_cons.mpr ⟨⟨_, hread⟩, ih.2⟩⟩
    · have hobject : object.1 ≠ port := fun heq => hsame (hport.symm.trans heq)
      rw [List.filter_cons_of_neg (by simpa using hsame),
        List.filter_cons_of_neg (by simpa using hobject)]
      exact ih

/-! ## The loop over the gates -/

variable [DecidableEq Gate] {topology : GatedTopology Module Gate}

omit [DecidableEq Gate] in
theorem getPort_eq {node : Node Module} {j : Nat} {port : Port Module} (hnode : node ∈ topology.nodes)
    (hport : node.ports[j]? = some port) :
    topology.toTopology.getPort port.module = .ok (node.module, j) := by
  have hfst : topology.toTopology.inputPorts.map Prod.fst =
      (topology.nodes.flatMap Node.ports).map Port.module := by
    rw [Topology.inputPorts, List.map_flatMap, List.map_flatMap]
    refine List.flatMap_congr fun node _ => ?_
    rw [List.map_map]
    conv_rhs => rw [← List.zipIdx_map_fst 0 node.ports, List.map_map]
    rfl
  have hmem : (port.module, (node.module, j)) ∈ topology.toTopology.inputPorts :=
    List.mem_flatMap.mpr ⟨node, hnode, List.mem_map.mpr
      ⟨(port, j), List.mk_mem_zipIdx_iff_getElem?.mpr hport, rfl⟩⟩
  rw [Topology.getPort, require_eq_ok]
  exact lookup_of_nodup (by rw [hfst]; exact topology.interfaces_nodup) hmem

omit [DecidableEq Module] [DecidableEq Gate] in
theorem allGates_nodup : topology.allGates.Nodup := by
  rw [GatedTopology.allGates, List.nodup_flatMap]
  refine ⟨fun port _ => (topology.gates_nodup port.module).map fun a b h => (Prod.mk.inj h).2, ?_⟩
  have hpairs := topology.interfaces_nodup
  rw [List.Nodup, List.pairwise_map] at hpairs
  refine hpairs.imp fun {a b} hne key ha hb => hne ?_
  obtain ⟨_, -, rfl⟩ := List.mem_map.mp ha
  obtain ⟨_, -, hkey⟩ := List.mem_map.mp hb
  exact (Prod.mk.inj hkey).1.symm

/-- Each gate is configured from the schedule with its index. -/
theorem configureGateScheduling_spec {gateCycleDuration now : Int}
    {gates gates' : Module × Gate → PeriodicGate}
    (h : topology.configureGateScheduling gateCycleDuration now output gates = .ok gates')
    {node : Node Module} {j : Nat} {port : Port Module} (hnode : node ∈ topology.nodes)
    (hport : node.ports[j]? = some port) {gate : Gate} (hgate : gate ∈ topology.gates port.module) :
    ∃ schedule, ((output.schedulesOf (node.module, j)).getD [])[topology.gateIndex gate]? =
        some schedule ∧
      configureGate gateCycleDuration now schedule (gates (port.module, gate)) =
        .ok (gates' (port.module, gate)) := by
  have hkey : (port.module, gate) ∈ topology.allGates :=
    List.mem_flatMap.mpr ⟨port, List.mem_flatMap.mpr ⟨node, hnode, List.mem_of_getElem? hport⟩,
      List.mem_map_of_mem hgate⟩
  have hupdate := updateEach_mem allGates_nodup hkey h
  simp only [bind_eq_ok, mapError_eq_ok, getPort_eq hnode hport, Except.ok.injEq,
    exists_eq_left'] at hupdate
  rw [configureGateScheduling] at hupdate
  rw [Output.schedulesOf]
  split at hupdate
  · cases hupdate
  · next schedules hschedules =>
    split at hupdate
    · cases hupdate
    · next schedule hschedule =>
      rw [hschedules, Option.getD_some]
      exact ⟨schedule, hschedule, hupdate⟩

end

/-! ## When slots reach their gate -/

section

variable {tree : ModuleTree Module} {order : SlotSort} {numGates : PortId Module → Int}
  {input : Input Module} {json : ValueMap} {output : Output (PortId Module) Nat}
  {topology : GatedTopology Module Gate}

theorem slots_scheduleOf (order : SlotSort) (jsonPort : ValueMap) (gateIndex : Nat) :
    ∀ slot ∈ (scheduleOf order jsonPort gateIndex).slots, slot.duration ≠ 0 := by
  intro slot hslot
  simpa using List.of_mem_filter ((order.sort_perm _).mem_iff.mp hslot)

theorem fillsCycle_iff {order : SlotSort} {jsonPort : ValueMap} {gateIndex : Nat}
    (hcycle : ∃ cycleDuration, getTime jsonPort "cycleDuration" = .ok cycleDuration) :
    FillsCycle gateIndex jsonPort ↔ (scheduleOf order jsonPort gateIndex).slots =
      [⟨0, (scheduleOf order jsonPort gateIndex).cycleDuration⟩] := by
  obtain ⟨cycleDuration, hcycle⟩ := hcycle
  have hsort : ∀ (slots : List Slot) slot, order.sort slots = [slot] ↔ slots = [slot] := by
    intro slots slot
    rw [← List.perm_singleton, ← List.perm_singleton]
    exact ⟨(order.sort_perm slots).symm.trans, (order.sort_perm slots).trans⟩
  rw [FillsCycle, scheduleOf, hcycle]
  simp only [Except.ok.injEq, exists_eq_left', hsort]
  rfl

/-- A gate that was configured has got the schedule, unless one slot fills the cycle. -/
theorem written_iff {gateCycleDuration now : Int} {schedule : Schedule} {g g' : PeriodicGate}
    (h : configureGate gateCycleDuration now schedule g = .ok g')
    (hne : ∀ slot ∈ schedule.slots, slot.duration ≠ 0) (hslots : schedule.slots ≠ []) :
    Written gateCycleDuration schedule g' ↔ schedule.slots ≠ [⟨0, schedule.cycleDuration⟩] := by
  have hpar := configureGate_parameters gateCycleDuration now schedule g
  rw [h, parametersAfter] at hpar
  cases hp : computeParameters gateCycleDuration schedule with
  | error e =>
    rw [hp] at hpar
    cases hpar
  | ok p =>
    have hnil := durations_eq_nil_iff hne hp
    simp only [hslots, false_or] at hnil
    rw [Ne, ← hnil]
    constructor
    · rintro ⟨p', hp', hdurations, -⟩
      rwa [← Except.ok.inj (hp.symm.trans hp')] at hdurations
    · intro hdurations
      rw [hp] at hpar
      simp only [if_neg hdurations] at hpar
      obtain ⟨_, -, hparameters⟩ := map_eq_ok.mp hpar.symm
      exact ⟨p, hp, hdurations, hparameters.symm⟩

/-- The slots are in the schedule of their priority iff it is one of the port and none is rounded to
nothing. -/
theorem placed_iff {numGates priority : Int} {jsonPorts : List ValueMap}
    (hlisted : listedSlots priority jsonPorts ≠ []) :
    (heldSlots priority (portSchedules order numGates jsonPorts)).Perm
        ((listedSlots priority jsonPorts).map JsonSlot.toSlot) ↔
      (0 ≤ priority ∧ priority < numGates) ∧
        ∀ slot ∈ listedSlots priority jsonPorts, 0 < slot.toSlot.duration := by
  have hheld := heldSlots_portSchedules order numGates priority jsonPorts
  have hall : ((listedSlots priority jsonPorts).map JsonSlot.toSlot).filter (0 < ·.duration) =
      (listedSlots priority jsonPorts).map JsonSlot.toSlot ↔
        ∀ slot ∈ listedSlots priority jsonPorts, 0 < slot.toSlot.duration := by
    rw [List.filter_eq_self, List.forall_mem_map]
    simp only [decide_eq_true_eq]
  by_cases hrange : 0 ≤ priority ∧ priority < numGates
  · rw [if_pos hrange] at hheld
    rw [and_iff_right hrange, ← hall]
    constructor
    · intro hperm
      exact List.filter_sublist.eq_of_length (hheld.symm.trans hperm).length_eq
    · intro heq
      rw [heq] at hheld
      exact hheld
  · rw [if_neg hrange] at hheld
    refine iff_of_false (fun hperm => hlisted ?_) fun h => hrange h.1
    have := (hheld.symm.trans hperm).length_eq
    rw [List.length_nil, List.length_map] at this
    exact List.eq_nil_of_length_eq_zero this.symm

theorem portSchedules_getElem? {numGates : Int} {i : Nat} (hi : i < numGates.toNat)
    (jsonPort : ValueMap) (rest : List ValueMap) :
    (portSchedules order numGates (jsonPort :: rest))[i]? = some (scheduleOf order jsonPort i) := by
  rw [portSchedules, List.flatMap_cons, List.getElem?_append_left (by simpa using hi),
    List.getElem?_map, List.getElem?_range hi]
  rfl

/-- If no slot is rounded to nothing, the first object's schedule holds all slots iff the other
objects list none. -/
theorem heldSlots_first_iff {i : Nat} {jsonPort : ValueMap} {rest : List ValueMap}
    (hlong : ∀ slot ∈ listedSlots i (jsonPort :: rest), 0 < slot.toSlot.duration) :
    (heldSlots i [scheduleOf order jsonPort i]).Perm
        ((listedSlots i (jsonPort :: rest)).map JsonSlot.toSlot) ↔ listedSlots i rest = [] := by
  have hheld := heldSlots_scheduleOf order jsonPort i
  rw [listedSlots_cons] at hlong ⊢
  have hall : ((listedSlots i [jsonPort]).map JsonSlot.toSlot).filter (0 < ·.duration) =
      (listedSlots i [jsonPort]).map JsonSlot.toSlot := by
    rw [List.filter_eq_self, List.forall_mem_map]
    exact fun slot hslot => decide_eq_true (hlong slot (List.mem_append_left _ hslot))
  rw [hall] at hheld
  constructor
  · intro hperm
    have hlen := (hheld.symm.trans hperm).length_eq
    rw [List.length_map, List.length_map, List.length_append] at hlen
    exact List.eq_nil_of_length_eq_zero (by omega)
  · intro hnil
    rwa [hnil, List.append_nil]

/-- The gate of a schedule that holds slots has got it, unless one slot fills the cycle. -/
theorem written_scheduleOf_iff {gateCycleDuration now numGates : Int} {i : Nat} {jsonPort : ValueMap}
    {g g' : PeriodicGate}
    (hread : ∃ schedules, readSchedules order numGates jsonPort = .ok schedules)
    (hi : i < numGates.toNat)
    (hconfigure : configureGate gateCycleDuration now (scheduleOf order jsonPort i) g = .ok g')
    (hheld : heldSlots i [scheduleOf order jsonPort i] ≠ []) :
    Written gateCycleDuration (scheduleOf order jsonPort i) g' ↔ ¬ FillsCycle i jsonPort := by
  obtain ⟨_, hread⟩ := hread
  obtain ⟨_, -, hschedule⟩ := mapM_getElem? hread (List.getElem?_range hi)
  rw [heldSlots_singleton] at hheld
  have hslots : (scheduleOf order jsonPort i).slots ≠ [] := by
    intro hnil
    rw [hnil] at hheld
    exact hheld rfl
  rw [fillsCycle_iff (readSchedule_ok hschedule).1,
    written_iff hconfigure (slots_scheduleOf _ _ _) hslots]

variable [DecidableEq Module] [DecidableEq Gate]

/-- The slots of one priority of one port. -/
theorem delivered_iff {gateCycleDuration now : Int} {gates gates' : Module × Gate → PeriodicGate}
    (hconvert : convertJsonToOutput tree order numGates input json = .ok output)
    (hconfigure : topology.configureGateScheduling gateCycleDuration now output gates = .ok gates')
    {node : Node Module} {j : Nat} {port : Port Module} (hnode : node ∈ topology.nodes)
    (hport : node.ports[j]? = some port) {priority : Int}
    (hlisted : listedSlots priority (jsonPortsOf tree input.switches json (node.module, j)) ≠ []) :
    Delivered topology gateCycleDuration ((output.schedulesOf (node.module, j)).getD []) gates'
        port.module priority
        (listedSlots priority (jsonPortsOf tree input.switches json (node.module, j))) ↔
      Deliverable topology (numGates (node.module, j)) port.module priority
        (jsonPortsOf tree input.switches json (node.module, j)) := by
  obtain ⟨hschedules, hread⟩ := schedulesOf_eq hconvert (node.module, j)
  have hspec : ∀ gate ∈ topology.gates port.module, _ := fun _ hgate =>
    configureGateScheduling_spec hconfigure hnode hport hgate
  rw [hschedules] at hspec ⊢
  generalize jsonPortsOf tree input.switches json (node.module, j) = jsonPorts at *
  generalize numGates (node.module, j) = n at *
  cases jsonPorts with
  | nil => exact absurd rfl hlisted
  | cons jsonPort rest =>
    have hreadPort := hread jsonPort List.mem_cons_self
    have hne : ∀ {l : List Slot},
        l.Perm ((listedSlots priority (jsonPort :: rest)).map JsonSlot.toSlot) → l ≠ [] := by
      rintro _ hperm rfl
      rw [List.nil_perm, List.map_eq_nil_iff] at hperm
      exact hlisted hperm
    constructor
    · rintro ⟨hplaced, hwritten⟩
      obtain ⟨hrange, hlong⟩ := (placed_iff hlisted).mp hplaced
      obtain ⟨gate, hgate, rfl, schedule, hschedule, hheld, hw⟩ := hwritten
      -- the gate is among those that the schedules were made for, so it has been configured
      have hi : topology.gateIndex gate < n.toNat := by omega
      obtain ⟨schedule', hschedule', hconf⟩ := hspec gate hgate
      rw [portSchedules_getElem? hi, Option.some.injEq] at hschedule hschedule'
      subst hschedule hschedule'
      refine ⟨hrange, hlong, ⟨gate, hgate, rfl⟩, (heldSlots_first_iff hlong).mp hheld, ?_⟩
      rintro _ ⟨⟩
      exact (written_scheduleOf_iff hreadPort hi hconf (hne hheld)).mp hw
    · rintro ⟨hrange, hlong, ⟨gate, hgate, rfl⟩, hfirst, hfull⟩
      have hi : topology.gateIndex gate < n.toNat := by omega
      have hheld : (heldSlots _ [scheduleOf order jsonPort _]).Perm _ :=
        (heldSlots_first_iff hlong).mpr hfirst
      obtain ⟨schedule, hschedule, hconf⟩ := hspec gate hgate
      have hget := hschedule
      rw [portSchedules_getElem? hi, Option.some.injEq] at hget
      subst hget
      have hw := (written_scheduleOf_iff hreadPort hi hconf (hne hheld)).mpr (hfull jsonPort rfl)
      exact ⟨(placed_iff hlisted).mpr ⟨hrange, hlong⟩,
        ⟨gate, hgate, rfl, _, hschedule, hheld, hw⟩⟩

/-- Every slot that the reply lists for a priority of a port reaches the gate of the priority. -/
def NoSlotDropped (tree : ModuleTree Module) (topology : GatedTopology Module Gate)
    (gateCycleDuration : Int) (input : Input Module) (json : ValueMap)
    (output : Output (PortId Module) Nat) (gates : Module × Gate → PeriodicGate) : Prop :=
  ∀ switch_ ∈ input.switches, ∀ (j : Nat) port, switch_.ports[j]? = some port → ∀ priority,
    listedSlots priority (jsonPortsOf tree input.switches json (switch_.module, j)) ≠ [] →
    Delivered topology gateCycleDuration ((output.schedulesOf (switch_.module, j)).getD []) gates
      port.module priority
      (listedSlots priority (jsonPortsOf tree input.switches json (switch_.module, j)))

/-- **No slot is dropped iff the ports have the gates that the reply has slots for**, the objects of
a port do not share a priority, and no slot fills the cycle. -/
theorem slots_delivered_iff {ops : ValueOps} {pcpOrder : PcpSort Module}
    {configuration : List Value} {gateCycleDuration now : Int}
    {gates gates' : Module × Gate → PeriodicGate}
    (hinput : createGateSchedulingInput tree ops topology.toTopology pcpOrder configuration =
      .ok input)
    (hconvert : convertJsonToOutput tree order numGates input json = .ok output)
    (hconfigure : topology.configureGateScheduling gateCycleDuration now output gates =
      .ok gates') :
    NoSlotDropped tree topology gateCycleDuration input json output gates' ↔
      ∀ switch_ ∈ input.switches, ∀ (j : Nat) port, switch_.ports[j]? = some port → ∀ priority,
        listedSlots priority (jsonPortsOf tree input.switches json (switch_.module, j)) ≠ [] →
        Deliverable topology (numGates (switch_.module, j)) port.module priority
          (jsonPortsOf tree input.switches json (switch_.module, j)) := by
  have hnodes : ∀ switch_ ∈ input.switches, switch_ ∈ topology.nodes := by
    simp only [createGateSchedulingInput, bind_eq_ok, pure_eq_ok] at hinput
    obtain ⟨_, -, rfl⟩ := hinput
    exact fun _ => List.mem_of_mem_filter
  refine forall₂_congr fun switch_ hswitch => forall₃_congr fun j port hport =>
    forall₂_congr fun priority hlisted => ?_
  exact delivered_iff hconvert hconfigure (hnodes switch_ hswitch) hport hlisted

end

/-! ## Two devices behind a switch with gates -/

/-- The ports of the network card have `numGates` gates each. -/
def gatedTopology (numGates : Int) : GatedTopology (Fin 14) Nat where
  toTopology := bridgedTopology
  gates m := if m = 10 ∨ m = 11 then List.range numGates.toNat else []
  gateIndex gate := gate
  interfaces_nodup := by decide
  gates_nodup m := by
    split
    · exact List.nodup_range
    · exact List.nodup_nil

def slotValue (slotStart slotDuration : Int) : Value :=
  .map (record [("slotStart", .int slotStart ""), ("slotDuration", .int slotDuration "")])

def portValue (name : String) (prioritySlots : List Value) : Value :=
  .map (record [("name", .string name), ("cycleDuration", .int 1000 ""),
    ("prioritySlotsData", .array prioritySlots)])

/-- Two slots of 100 us for the priority 4, in a cycle of 1 ms. -/
def replyForFour : ValueMap :=
  record [("switches", .array [.map (record [("name", .string "tsnNic"), ("ports", .array [
    portValue "tsnNic-eth[0]" [.map (record [("priority", .int 4 ""),
      ("slotsData", .array [slotValue 0 100, slotValue 300 100])])],
    portValue "tsnNic-eth[1]" []])])]), ("flows", .array [])]

/-- The priorities for which an object of a port has slots. -/
def prioritiesOf (jsonPort : ValueMap) : List Int :=
  ((getArray jsonPort "prioritySlotsData").toOption.getD []).filterMap fun json =>
    (jsonPrioritySlots json).toOption.map Prod.fst

theorem mem_prioritiesOf {priority : Int} {jsonPorts : List ValueMap}
    (h : listedSlots priority jsonPorts ≠ []) : priority ∈ jsonPorts.flatMap prioritiesOf := by
  obtain ⟨slot, hslot⟩ := List.exists_mem_of_ne_nil _ h
  obtain ⟨jsonPort, hport, hslot⟩ := List.mem_flatMap.mp (List.mem_of_mem_filter hslot)
  obtain ⟨json, hjson, hslot⟩ := List.mem_flatMap.mp hslot
  refine List.mem_flatMap.mpr ⟨jsonPort, hport, List.mem_filterMap.mpr ⟨json, hjson, ?_⟩⟩
  cases hread : jsonPrioritySlots json with
  | error e =>
    rw [hread] at hslot
    cases hslot
  | ok read =>
    rw [hread] at hslot
    by_cases hp : read.1 = priority
    · simp [Except.toOption, hp]
    · simp [hp] at hslot

theorem convertJsonToOutput_of_noFlows {Module : Type} [DecidableEq Module]
    {tree : ModuleTree Module} {order : SlotSort} {numGates : PortId Module → Int}
    {input : Input Module} {json : ValueMap} {schedules : List (PortId Module × List Schedule)}
    (hswitches : convertSwitches tree order numGates input.switches json = .ok schedules)
    (hflows : getArray json "flows" = .ok []) :
    convertJsonToOutput tree order numGates input json = .ok ⟨collect schedules, []⟩ := by
  simp only [convertJsonToOutput, bind_eq_ok, pure_eq_ok, mapError_eq_ok]
  exact ⟨_, hswitches, _, hflows, [], rfl, rfl⟩

theorem replyForFour_flows : getArray replyForFour "flows" = .ok [] := by
  rw [getArray_eq_ok, replyForFour, lookup_record]
  simp

/-- Flows with the gate index 4, the reply for them, and gates that take it over. -/
theorem exists_replyForFour (numGates : Int)
    (h : (convertSwitches carNetwork.tree stableSlotSort (fun _ => numGates)
      bridgedTopology.switches replyForFour).toOption.any (fun schedules =>
        ((gatedTopology numGates).configureGateScheduling 1000000000 0 ⟨collect schedules, []⟩
          fun _ => defaultGate).isOk) = true) :
    ∃ input output gates',
      createGateSchedulingInput carNetwork.tree basicOps (gatedTopology numGates).toTopology
        stableSort [.map (meshEntry [])] = .ok input ∧
      input.switches = bridgedTopology.switches ∧ (∃ flow ∈ input.flows, flow.gateIndex = 4) ∧
      convertJsonToOutput carNetwork.tree stableSlotSort (fun _ => numGates) input replyForFour =
        .ok output ∧
      (gatedTopology numGates).configureGateScheduling 1000000000 0 output
        (fun _ => defaultGate) = .ok gates' := by
  have hvalid : ∀ value ∈ [Value.map (meshEntry [])], ValidEntry value :=
    List.forall_mem_singleton.mpr (.of_isOk (by decide +kernel) (by decide +kernel))
  obtain ⟨input, _, flows, hinput, -, -, hswitches, hperm, hcheck⟩ :=
    exists_bridgedInput [.map (meshEntry [])] hvalid
      (fun flows => flows.any fun flow => decide (flow.gateIndex = 4)) (by decide +kernel)
  obtain ⟨schedules, hschedules, hconfigure⟩ := exists_of_any h
  obtain ⟨gates', hgates'⟩ := exists_of_isOk hconfigure
  obtain ⟨flow, hflow, hindex⟩ := List.any_eq_true.mp hcheck
  exact ⟨input, _, gates', hinput, hswitches,
    ⟨flow, hperm.mem_iff.mpr hflow, of_decide_eq_true hindex⟩,
    convertJsonToOutput_of_noFlows (by rw [hswitches]; exact hschedules) replyForFour_flows,
    hgates'⟩

/-- With eight gates at each port, both slots reach the gate 4. -/
theorem slots_delivered_eight :
    ∃ input output gates',
      createGateSchedulingInput carNetwork.tree basicOps (gatedTopology 8).toTopology stableSort
        [.map (meshEntry [])] = .ok input ∧
      convertJsonToOutput carNetwork.tree stableSlotSort (fun _ => 8) input replyForFour =
        .ok output ∧
      (gatedTopology 8).configureGateScheduling 1000000000 0 output (fun _ => defaultGate) =
        .ok gates' ∧
      NoSlotDropped carNetwork.tree (gatedTopology 8) 1000000000 input replyForFour output
        gates' := by
  obtain ⟨input, output, gates', hinput, hswitches, -, hconvert, hconfigure⟩ :=
    exists_replyForFour 8 (by decide +kernel)
  refine ⟨input, output, gates', hinput, hconvert, hconfigure,
    (slots_delivered_iff hinput hconvert hconfigure).mpr ?_⟩
  rw [hswitches]
  intro switch_ hswitch j port hport priority hlisted
  have hone : bridgedTopology.switches =
      [⟨2, true, false, [carPort 10 "eth0" 4 12, carPort 11 "eth1" 5 13]⟩] := rfl
  rw [hone, List.mem_singleton] at hswitch
  subst hswitch
  have hpriority := mem_prioritiesOf hlisted
  match j, hport with
  | 0, hport =>
    obtain rfl := Option.some.inj hport
    have hpriorities : (jsonPortsOf carNetwork.tree bridgedTopology.switches replyForFour
        (2, 0)).flatMap prioritiesOf = [4] := by decide +kernel
    rw [hpriorities, List.mem_singleton] at hpriority
    subst hpriority
    refine ⟨by decide, by decide +kernel, ⟨4, by decide, rfl⟩, by decide +kernel, ?_⟩
    have htwo : (jsonPortsOf carNetwork.tree bridgedTopology.switches replyForFour
        (2, 0)).head?.all (fun jsonPort => (((slotsFor 4 jsonPort).map JsonSlot.toSlot).filter
          (·.duration ≠ 0)).length = 2) = true := by decide +kernel
    rintro jsonPort hjsonPort ⟨_, -, hfull⟩
    rw [Option.mem_def.mp hjsonPort, Option.all_some, hfull] at htwo
    cases htwo
  | 1, hport =>
    have hpriorities : (jsonPortsOf carNetwork.tree bridgedTopology.switches replyForFour
        (2, 1)).flatMap prioritiesOf = [] := by decide +kernel
    rw [hpriorities] at hpriority
    cases hpriority

/-- With four gates at each port, the slots are dropped. -/
theorem slots_for_missing_gate_dropped :
    ∃ input output gates',
      createGateSchedulingInput carNetwork.tree basicOps (gatedTopology 4).toTopology stableSort
        [.map (meshEntry [])] = .ok input ∧
      (∃ flow ∈ input.flows, flow.gateIndex = 4) ∧
      convertJsonToOutput carNetwork.tree stableSlotSort (fun _ => 4) input replyForFour =
        .ok output ∧
      (gatedTopology 4).configureGateScheduling 1000000000 0 output (fun _ => defaultGate) =
        .ok gates' ∧
      ¬ NoSlotDropped carNetwork.tree (gatedTopology 4) 1000000000 input replyForFour output
        gates' := by
  obtain ⟨input, output, gates', hinput, hswitches, hflow, hconvert, hconfigure⟩ :=
    exists_replyForFour 4 (by decide +kernel)
  refine ⟨input, output, gates', hinput, hflow, hconvert, hconfigure, fun h => ?_⟩
  have hnode : (⟨2, true, false, [carPort 10 "eth0" 4 12, carPort 11 "eth1" 5 13]⟩ :
      Node (Fin 14)) ∈ input.switches := by
    rw [hswitches]
    exact List.mem_singleton_self _
  have hlisted : listedSlots 4 (jsonPortsOf carNetwork.tree input.switches replyForFour (2, 0)) ≠
      [] := by
    rw [hswitches]
    decide +kernel
  have hdelivered := h _ hnode 0 _ rfl 4 hlisted
  have hschedules := (schedulesOf_eq hconvert (2, 0)).1
  rw [hschedules] at hdelivered
  have hrange := ((placed_iff hlisted).mp hdelivered.placed).1
  exact absurd hrange.2 (by decide)

end CooperativeTsn
