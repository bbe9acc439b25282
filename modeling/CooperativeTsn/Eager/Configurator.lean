import CooperativeTsn.Flow.Reply
import CooperativeTsn.Infra.Reservation
import CooperativeTsn.Infra.Worklist

/-!
# The eager gate scheduler

`EagerGateScheduleConfigurator`. The packets of a flow get, at each interface on their way, a slot
for their transmission. The first packet of a flow is started when it does not have to wait for any
slot, the later ones keep the interval and may wait.

* `delayOnFragment`, `reserveFragment` — the two loops over the nodes of a path fragment
* `visitFragments` — the fragments that start at a node, for either loop
* `computeStreamStartOffset` — when the first packet is sent
* `computeGateScheduling` — the schedules of all gates
-/

namespace CooperativeTsn.Eager

open Infra.Runs Infra.Reservation Infra.Worklist

variable {Module Nic State : Type}

/-- Why a computation has no result. -/
inductive Halt where
  | error (e : SimError)
  /-- it has not come to its end yet -/
  | unfinished
deriving DecidableEq, Repr

/-! ## The network -/

/-- The topology with its nodes and interfaces, as the scheduler reads it. -/
structure WiredNetwork (Module Nic : Type) where
  tree : ModuleTree Module
  /-- the module that has the configurator and the network nodes as its submodules -/
  parentModule : Module
  /-- `getNodeFor`, and of its outgoing links the remote node and the interface -/
  linksOut : Module → Option (List (Module × Option Nic))
  /-- in bits per second -/
  datarate : Nic → Rat
  /-- the delay of a `cDatarateChannel`; the channel may be another one -/
  channelDelay : Nic → Option Int
  /-- for each port of the network nodes the number of its gates, or -1 -/
  ports : List (Nic × Int)
  datarate_pos : ∀ nic, 0 < datarate nic
  channelDelay_nonneg : ∀ nic, ∀ delay ∈ channelDelay nic, 0 ≤ delay

namespace WiredNetwork

variable (net : WiredNetwork Module Nic)

/-- The submodule with the name and the index of the node. -/
def findNetworkNode (m : Module) : Option Module :=
  if net.tree.isVector m then
    net.tree.getSubmodule net.parentModule
      (String.ofList ((net.tree.getFullName m).toList.takeWhile (· ≠ '[')))
      ((net.tree.getIndex m).elim (-1) Nat.cast)
  else net.tree.getSubmodule net.parentModule (net.tree.getFullName m) (-1)

/-- The interface towards the next node. -/
def findNetworkInterface (m next : Module) : Except Halt Nic := do
  let networkNode ← require (.error .nullPointer) (net.findNetworkNode m)
  let links ← require (.error .nullPointer) (net.linksOut networkNode)
  let link ← require (.error .nullPointer)
    (links.find? fun link => net.tree.getFullName link.1 = net.tree.getFullName next)
  require (.error .nullPointer) link.2

def transmissionDuration (nic : Nic) (packetLength : Int) : Int :=
  toSimTime (packetLength / net.datarate nic)

def interFrameGap (nic : Nic) : Int := toSimTime (96 / net.datarate nic)

def propagationDelay (nic : Nic) : Int := (net.channelDelay nic).getD 0

end WiredNetwork

/-! ## Slots -/

/-- `EagerGateScheduleConfigurator::Slot` -/
structure GateSlot where
  gateOpenIndex : Int
  gateOpenTime : Int
  gateCloseTime : Int
deriving DecidableEq, Repr

def GateSlot.interval (slot : GateSlot) : Booking Int := ⟨slot.gateOpenTime, slot.gateCloseTime⟩

/-- The slots of each interface, in the order in which they were reserved. -/
abbrev InterfaceSchedules (Nic : Type) : Type := Nic → List GateSlot

/--
The loop over the slots. Behind a slot that is in the way it starts over with `i = 0`, and the loop
then goes on with `i++`: the first slot is looked at only once.
-/
def findGateOpenTime (interFrameGap gateOpenDuration : Int) (interfaceSchedule : List GateSlot)
    (nextGateOpenTime : Int) : Int :=
  match obstacle interFrameGap gateOpenDuration (interfaceSchedule.map GateSlot.interval)
    nextGateOpenTime with
  | none => nextGateOpenTime
  | some slot =>
    settle interFrameGap gateOpenDuration (interfaceSchedule.tail.map GateSlot.interval)
      interfaceSchedule.length (slot.stop + interFrameGap)

namespace WiredNetwork

variable (net : WiredNetwork Module Nic)

/-- When the gate at an interface can open for the packet. -/
def gateOpenTime (interfaceSchedules : InterfaceSchedules Nic) (packetLength : Int) (nic : Nic)
    (nextGateOpenTime : Int) : Int :=
  findGateOpenTime (net.interFrameGap nic) (net.transmissionDuration nic packetLength)
    (interfaceSchedules nic) nextGateOpenTime

end WiredNetwork

/-! ## Path fragments -/

/-- An entry of `todos`: a network node, when the packet is there, and the nodes behind it. -/
structure Todo where
  networkNodeName : String
  time : Int
  path : List String
deriving DecidableEq, Repr

section

variable (net : WiredNetwork Module Nic)

/-- The fragments from the last node of a fragment, unless the flow ends or has been there. -/
def followUp (endDevice : Module) (networkNodes : List Module) (time : Int) (path : List String) :
    Except Halt (List Todo) := do
  let endNetworkNode ← require (.error .nullPointer) networkNodes.getLast?
  let endNetworkNodeName := net.tree.getFullName endNetworkNode
  pure (if endNetworkNodeName ≠ net.tree.getFullName endDevice ∧ endNetworkNodeName ∉ path then
    [⟨endNetworkNodeName, time, path⟩] else [])

/-- The loop over the fragments, for those that start at the node of the entry. -/
def visitFragments (endDevice : Module)
    (walk : State → List Module → Int → List String → Except Halt (State × Int × List String))
    (todo : Todo) : List (PathFragment Module) → State → Except Halt (State × List Todo)
  | [], s => pure (s, [])
  | fragment :: fragments, s => do
    let front ← require (.error .nullPointer) fragment.networkNodes.head?
    if net.tree.getFullName front = todo.networkNodeName then
      let (s, time, path) ← walk s fragment.networkNodes todo.time todo.path
      let added ← followUp net endDevice fragment.networkNodes time path
      let (s, todos) ← visitFragments endDevice walk todo fragments s
      pure (s, added ++ todos)
    else visitFragments endDevice walk todo fragments s

/-- The loop over `todos`, which starts at the source of the flow. -/
def forPathFragments (flow : Flow Module)
    (walk : State → List Module → Int → List String → Except Halt (State × Int × List String))
    (fuel : Nat) (startTime : Int) (s : State) : Except Halt State :=
  workOff .unfinished
    (fun s todo => visitFragments net flow.endDevice walk todo flow.pathFragments s) fuel
    [⟨net.tree.getFullName flow.startApplication.device, startTime, []⟩] s

/-! ### The start of a flow -/

/-- The first delay on a fragment is added to the shift, and ends the loop over its nodes. -/
def delayOnFragment (interfaceSchedules : InterfaceSchedules Nic) (packetLength : Int)
    (startOffsetShift : Int) :
    List Module → Int → List String → Except Halt (Int × Int × List String)
  | m :: next :: nodes, nextGateOpenTime, extendedPath => do
    let networkInterface ← net.findNetworkInterface m next
    let gateOpenTime :=
      net.gateOpenTime interfaceSchedules packetLength networkInterface nextGateOpenTime
    let gateCloseTime := gateOpenTime + net.transmissionDuration networkInterface packetLength
    let gateOpenDelay := gateOpenTime - nextGateOpenTime
    let extendedPath := extendedPath ++ [net.tree.getFullName m]
    if gateOpenDelay ≠ 0 then
      pure (startOffsetShift + gateOpenDelay, nextGateOpenTime, extendedPath)
    else
      delayOnFragment interfaceSchedules packetLength startOffsetShift (next :: nodes)
        (gateCloseTime + net.propagationDelay networkInterface) extendedPath
  | _, nextGateOpenTime, extendedPath => pure (startOffsetShift, nextGateOpenTime, extendedPath)

def computeStartOffsetForPathFragments (fuel : Nat) (flow : Flow Module) (startTime : Int)
    (interfaceSchedules : InterfaceSchedules Nic) : Except Halt Int :=
  forPathFragments net flow
    (delayOnFragment net interfaceSchedules flow.startApplication.packetLength) fuel startTime 0

/-- The `while` loop, with this many rounds at most. -/
def shiftStartOffset (fuel : Nat) (flow : Flow Module)
    (interfaceSchedules : InterfaceSchedules Nic) : Nat → Int → Except Halt Int
  | 0, _ => .error .unfinished
  | rounds + 1, startOffset => do
    let startOffsetShift ←
      computeStartOffsetForPathFragments net fuel flow startOffset interfaceSchedules
    if startOffsetShift = 0 then pure startOffset
    else shiftStartOffset fuel flow interfaceSchedules rounds (startOffset + startOffsetShift)

def computeStreamStartOffset (fuel : Nat) (flow : Flow Module)
    (interfaceSchedules : InterfaceSchedules Nic) : Except Halt Int :=
  shiftStartOffset net fuel flow interfaceSchedules fuel 0

/-! ### The slots of a packet -/

variable [DecidableEq Nic]

def pushSlot (interfaceSchedules : InterfaceSchedules Nic) (nic : Nic) (entry : GateSlot) :
    InterfaceSchedules Nic :=
  Function.update interfaceSchedules nic (interfaceSchedules nic ++ [entry])

/-- Reserves a slot at each interface of a fragment. -/
def reserveNodes (gateCycleDuration : Int) (flow : Flow Module) (startTime : Int) :
    InterfaceSchedules Nic → List Module → Int → List String →
      Except Halt (InterfaceSchedules Nic × Int × List String)
  | interfaceSchedules, m :: next :: nodes, nextGateOpenTime, extendedPath => do
    let networkInterface ← net.findNetworkInterface m next
    let packetLength := flow.startApplication.packetLength
    let gateOpenTime :=
      net.gateOpenTime interfaceSchedules packetLength networkInterface nextGateOpenTime
    let gateCloseTime := gateOpenTime + net.transmissionDuration networkInterface packetLength
    ensure (gateCloseTime ≤ startTime + gateCycleDuration)
      (.error (.runtimeError "Gate scheduling doesn't fit into cycle duration"))
    reserveNodes gateCycleDuration flow startTime
      (pushSlot interfaceSchedules networkInterface ⟨flow.gateIndex, gateOpenTime, gateCloseTime⟩)
      (next :: nodes) (gateCloseTime + net.propagationDelay networkInterface)
      (extendedPath ++ [net.tree.getFullName m])
  | interfaceSchedules, _, nextGateOpenTime, extendedPath =>
    pure (interfaceSchedules, nextGateOpenTime, extendedPath)

/-- The latency is checked where the flow ends. -/
def reserveFragment (gateCycleDuration : Int) (flow : Flow Module) (startTime : Int)
    (interfaceSchedules : InterfaceSchedules Nic) (networkNodes : List Module)
    (time : Int) (path : List String) :
    Except Halt (InterfaceSchedules Nic × Int × List String) := do
  let (interfaceSchedules, nextGateOpenTime, extendedPath) ←
    reserveNodes net gateCycleDuration flow startTime interfaceSchedules networkNodes time path
  let endNetworkNode ← require (.error .nullPointer) networkNodes.getLast?
  ensure (net.tree.getFullName endNetworkNode = net.tree.getFullName flow.endDevice →
      nextGateOpenTime - startTime ≤ flow.startApplication.maxLatency)
    (.error (.runtimeError "Cannot fit scheduling int maximum allowed latency"))
  pure (interfaceSchedules, nextGateOpenTime, extendedPath)

def addGateSchedulingForPathFragments (gateCycleDuration : Int) (fuel : Nat) (flow : Flow Module)
    (startTime : Int) (interfaceSchedules : InterfaceSchedules Nic) :
    Except Halt (InterfaceSchedules Nic) :=
  forPathFragments net flow (reserveFragment net gateCycleDuration flow startTime) fuel startTime
    interfaceSchedules

/-- The numbers from `startIndex` to before `endIndex`. -/
def indices (startIndex endIndex : Int) : List Int :=
  (List.range (endIndex - startIndex).toNat).map fun i : Nat => startIndex + i

def addGateScheduling (gateCycleDuration : Int) (fuel : Nat) (flow : Flow Module)
    (startIndex endIndex startOffset : Int) (interfaceSchedules : InterfaceSchedules Nic) :
    Except Halt (InterfaceSchedules Nic) :=
  run (fun interfaceSchedules index =>
    addGateSchedulingForPathFragments net gateCycleDuration fuel flow
      (startOffset + index * flow.startApplication.packetInterval) interfaceSchedules)
    (indices startIndex endIndex) interfaceSchedules

/-! ## All flows -/

/-- The first loop: the start of a flow, and the slots of its first packet. -/
def startFlow (gateCycleDuration : Int) (fuel : Nat)
    (s : List Int × InterfaceSchedules Nic) (flow : Flow Module) :
    Except Halt (List Int × InterfaceSchedules Nic) := do
  let startOffset ← computeStreamStartOffset net fuel flow s.2
  let interfaceSchedules ← addGateScheduling net gateCycleDuration fuel flow 0 1 startOffset s.2
  pure (s.1 ++ [startOffset], interfaceSchedules)

/-- The second loop: the slots of the other packets of a cycle. -/
def repeatFlow (gateCycleDuration : Int) (fuel : Nat) (interfaceSchedules : InterfaceSchedules Nic)
    (flow : Flow Module × Int) : Except Halt (InterfaceSchedules Nic) := do
  let packetInterval := flow.1.startApplication.packetInterval
  let count := gateCycleDuration.tdiv packetInterval
  ensure (gateCycleDuration = count * packetInterval) (.error (.runtimeError
    "Gate cycle duration must be a multiple of the application packet interval"))
  addGateScheduling net gateCycleDuration fuel flow.1 1 count flow.2 interfaceSchedules

/-- The start of each flow, and the slots of all interfaces. -/
def reserveFlows (gateCycleDuration : Int) (fuel : Nat) (flows : List (Flow Module)) :
    Except Halt (List Int × InterfaceSchedules Nic) := do
  let (startTimes, interfaceSchedules) ←
    run (startFlow net gateCycleDuration fuel) flows ([], fun _ => [])
  let interfaceSchedules ←
    run (repeatFlow net gateCycleDuration fuel) (flows.zip startTimes) interfaceSchedules
  pure (startTimes, interfaceSchedules)

end

/-! ## The output -/

def simtimeModulo (a b : Int) : Int := a.tmod b

/-- A slot over the end of the cycle is continued at its start. -/
def outputSlots (gateCycleDuration : Int) (slot : GateSlot) : List Slot :=
  let slotDuration := slot.gateCloseTime - slot.gateOpenTime
  if slot.gateOpenTime < gateCycleDuration ∧ slot.gateCloseTime > gateCycleDuration then
    [⟨slot.gateOpenTime, gateCycleDuration - slot.gateOpenTime⟩,
      ⟨0, slotDuration - (gateCycleDuration - slot.gateOpenTime)⟩]
  else [⟨simtimeModulo slot.gateOpenTime gateCycleDuration, slotDuration⟩]

def outputSchedule (order : SlotSort) (gateCycleDuration : Int) (slots : List GateSlot)
    (gateIndex : Nat) : Schedule where
  gateIndex := gateIndex
  cycleStart := 0
  cycleDuration := gateCycleDuration
  slots := order.sort ((slots.filter fun slot => slot.gateOpenIndex = (gateIndex : Int)).flatMap
    (outputSlots gateCycleDuration))

/-- The schedules of all ports, and the start times by the number of the flow. -/
def makeOutput (net : WiredNetwork Module Nic) (order : SlotSort) (gateCycleDuration : Int)
    (startTimes : List Int) (interfaceSchedules : InterfaceSchedules Nic) : Output Nic Nat where
  gateSchedules := net.ports.map fun (nic, numGates) =>
    (nic, (List.range numGates.toNat).map
      (outputSchedule order gateCycleDuration (interfaceSchedules nic)))
  applicationStartTimes := startTimes.zipIdx.map Prod.swap

/-- `computeGateScheduling` -/
def computeGateScheduling [DecidableEq Nic] (net : WiredNetwork Module Nic) (order : SlotSort)
    (gateCycleDuration : Int) (fuel : Nat) (flows : List (Flow Module)) :
    Except Halt (Output Nic Nat) := do
  let (startTimes, interfaceSchedules) ← reserveFlows net gateCycleDuration fuel flows
  pure (makeOutput net order gateCycleDuration startTimes interfaceSchedules)

/-! ## The network of a car -/

/-- The network card with a cable of 100 Mbit/s to each of the two devices. -/
def carWires : WiredNetwork (Fin 14) (Fin 14) where
  tree := carNetwork.tree
  parentModule := 1
  linksOut m :=
    if m = 2 then some [(4, some 10), (5, some 11)]
    else if m = 4 then some [(2, some 12)]
    else if m = 5 then some [(2, some 13)]
    else none
  datarate _ := 100000000
  channelDelay _ := some 100000
  ports := [(10, 2), (11, 2), (12, 2), (13, 2)]
  datarate_pos _ := by decide
  channelDelay_nonneg _ := by simp

def carFlow (gateIndex : Int) (path : List (Fin 14)) (packetLength packetInterval : Int) :
    Flow (Fin 14) where
  name := "flow"
  gateIndex := gateIndex
  cutthroughSwitchingHeaderSize := 0
  startApplication := ⟨3, 0, packetLength, packetInterval, 100000000, 0, path.headD 0⟩
  endDevice := path.getLastD 0
  pathFragments := [⟨path, [], []⟩]

/-- From the card to the first device, and twice in a cycle from one device to the other. -/
def carFlows : List (Flow (Fin 14)) :=
  [carFlow 0 [2, 4] 1000 100000000, carFlow 1 [5, 2, 4] 2000 50000000]

def carReserved : InterfaceSchedules (Fin 14) := fun nic =>
  if nic = 10 then [⟨0, 0, 10000000⟩, ⟨1, 20100000, 40100000⟩, ⟨1, 70100000, 90100000⟩]
  else if nic = 13 then [⟨1, 0, 20000000⟩, ⟨1, 50000000, 70000000⟩]
  else []

theorem reserveFlows_car :
    reserveFlows carWires 100000000 20 carFlows = .ok ([0, 0], carReserved) := by
  obtain ⟨⟨startTimes, s⟩, h, hall⟩ : ∃ r, reserveFlows carWires 100000000 20 carFlows = .ok r ∧
      decide (r.1 = [0, 0] ∧ ∀ nic, r.2 nic = carReserved nic) = true :=
    exists_of_any (by decide +kernel)
  obtain ⟨hstart, hs⟩ := of_decide_eq_true hall
  rw [h, ← funext hs, ← hstart]

end CooperativeTsn.Eager
