import CooperativeTsn.Flow.PatternMatcher
import CooperativeTsn.Net.ModuleTree
import CooperativeTsn.Net.NetworkConfigurator
import Mathlib.Data.List.Nodup
import Mathlib.Data.List.ProdSigma

/-!
# Flows of a configuration

The input of the gate scheduler and `GateScheduleConfiguratorBase::addFlows`. Every entry of the
configuration makes one flow for each pair of nodes whose paths match its source and its
destination.

* `flowsOfPairs_eq` — the flows of an entry are those of the pairs that match
* `exists_makeFlow_of_mem` — a flow is made from a pair that matches
* `makeFlows_eq_singleton` — an entry makes one flow iff one pair matches
* `addFlows_perm` — the flows of the input are those of the entries
-/

namespace CooperativeTsn

open Infra.Runs

/-! ## The topology -/

/-- A wired network interface. -/
structure Port (Module : Type) where
  module : Module
  interfaceName : String
  /-- in bits per second -/
  datarate : Rat
  /-- in seconds -/
  propagationTime : Rat
  endNode : Module
  otherPort : Module

structure Node (Module : Type) where
  module : Module
  hasInterfaceTable : Bool
  hasRoutingTable : Bool
  ports : List (Port Module)

structure Topology (Module : Type) where
  nodes : List (Node Module)
  nodup : (nodes.map Node.module).Nodup
  /-- the nodes with their links, as the searches see them -/
  graph : List (NodeGraph.TopologyNode Module)
  attributes : NodeGraph.Attributes Module Nat

variable {Module : Type}

def isBridgeNode (node : Node Module) : Bool := !node.hasRoutingTable || !node.hasInterfaceTable

namespace Topology

variable (topology : Topology Module)

/-- `addDevices` -/
def devices : List (Node Module) := topology.nodes.filter fun node => !isBridgeNode node

/-- `addSwitches` -/
def switches : List (Node Module) := topology.nodes.filter fun node => isBridgeNode node

def networkNodes : List (Node Module) := topology.devices ++ topology.switches

/-- The fuel of the search lasts, so only a path that is missing throws. -/
def computeShortestNodePath [DecidableEq Module] (source destination : Module) :
    Except SimError (List Module) :=
  (NodeGraph.computeShortestNodePath topology.graph topology.attributes source destination).getD
    (.error .outOfRange)

def getDevice [DecidableEq Module] (m : Module) : Except SimError (Node Module) :=
  require (.runtimeError "Cannot find device") (topology.devices.find? fun node => node.module = m)

end Topology

/-! ## Flows -/

/-- `Input::Application` -/
structure Application (Module : Type) where
  module : Module
  pcp : Int
  /-- in bits -/
  packetLength : Int
  packetInterval : Int
  maxLatency : Int
  maxJitter : Int
  device : Module
deriving DecidableEq

structure PathFragment (Module : Type) where
  networkNodes : List Module
  inputPorts : List Module
  outputPorts : List Module
deriving DecidableEq

structure Flow (Module : Type) where
  name : String
  gateIndex : Int
  cutthroughSwitchingHeaderSize : Int
  startApplication : Application Module
  endDevice : Module
  pathFragments : List (PathFragment Module)
deriving DecidableEq

/-- A simulation time from floating point: picoseconds, rounded. -/
def toSimTime (seconds : Rat) : Int := (seconds * 1000000000000 + 1 / 2).floor

/-! ### Path fragments -/

/-- What comes before the first dot, and what comes behind it. -/
def splitNodeName (text : String) : String × String :=
  (String.ofList (text.toList.takeWhile (· ≠ '.')),
    String.ofList ((text.toList.dropWhile (· ≠ '.')).drop 1))

variable (tree : ModuleTree Module) (ops : ValueOps) (topology : Topology Module)

/-- The port towards the next node. -/
def findOutputPort (node : Node Module) (endNodeName interfaceName : String) :
    Option (Port Module) :=
  node.ports.find? fun port =>
    tree.getFullName port.endNode = endNodeName ∧
      (interfaceName = "" ∨ interfaceName = port.interfaceName)

/-- The loop over the nodes of a fragment. A name that no node has is skipped. -/
def readPath : List Value → Except SimError (PathFragment Module)
  | [] => pure ⟨[], [], []⟩
  | value :: values => do
    let (nodeName, interfaceName) := splitNodeName (← value.stringValue)
    match topology.networkNodes.find? (fun node => tree.getFullName node.module = nodeName) with
    | none => readPath values
    | some node =>
      match values with
      | [] => pure ⟨[node.module], [], []⟩
      | next :: _ => do
        let (endNodeName, _) := splitNodeName (← next.stringValue)
        let port ← require .nullPointer (findOutputPort tree node endNodeName interfaceName)
        let path ← readPath values
        pure ⟨node.module :: path.networkNodes, port.otherPort :: path.inputPorts,
          port.module :: path.outputPorts⟩

def readPaths : List Value → Except SimError (List (PathFragment Module))
  | [] => pure []
  | value :: values => do
    let path ← readPath tree topology (← value.arrayValue)
    let paths ← readPaths values
    pure (path :: paths)

/-- The one fragment that is taken when the entry names none. -/
def shortestFragment [DecidableEq Module] (source destination : Module) :
    Except SimError (List Value) := do
  let path ← topology.computeShortestNodePath source destination
  pure [.array (path.map fun m => .string (tree.getFullName m))]

/-- The fragments that the entry names, or else the shortest path. -/
def flowFragments [DecidableEq Module] (entry : ValueMap) (source destination : Module) :
    Except SimError (List Value) :=
  if entry.containsKey "pathFragments" then do (← entry.get "pathFragments").arrayValue
  else shortestFragment tree topology source destination

/-! ### One entry -/

/-- A flow without a name is numbered. -/
def flowName (entry : ValueMap) (flowIndex : Nat) : Except SimError (String × Nat) :=
  if entry.containsKey "name" then do
    let name ← entry.getString "name"
    pure (name, flowIndex)
  else pure ("flow" ++ toString flowIndex, flowIndex + 1)

/-- The body of the loop over the pairs of nodes. -/
def makeFlow [DecidableEq Module] (entry : ValueMap) (source destination : Node Module)
    (flowIndex : Nat) : Except SimError (Flow Module × Nat) := do
  let pcp ← entry.getInt "pcp"
  let gateIndex ← entry.getInt "gateIndex"
  let packetLength ← entry.getInUnit ops "packetLength" "b"
  let headerSize ← entry.getOptional "cutthroughSwitchingHeaderSize" 0 (·.doubleValueInUnit ops "b")
  let packetInterval ← entry.getInUnit ops "packetInterval" "s"
  let maxLatency ← entry.getOptional "maxLatency" (-1) (·.doubleValueInUnit ops "s")
  let maxJitter ← entry.getOptional "maxJitter" 0 (·.doubleValueInUnit ops "s")
  let startDevice ← topology.getDevice source.module
  let endDevice ← topology.getDevice destination.module
  let application ← entry.getString "application"
  let startApplicationModule ← require
    (.runtimeError ("Cannot find flow start application, path = " ++ application))
    (tree.getModuleByPath startDevice.module ("." ++ application))
  let (name, flowIndex) ← flowName entry flowIndex
  let fragments ← flowFragments tree topology entry source.module destination.module
  let pathFragments ← readPaths tree topology fragments
  pure ({
    name := name
    gateIndex := gateIndex
    cutthroughSwitchingHeaderSize := truncateBits headerSize
    startApplication := {
      module := startApplicationModule
      pcp := pcp
      packetLength := truncateBits packetLength
      packetInterval := toSimTime packetInterval
      maxLatency := toSimTime maxLatency
      maxJitter := toSimTime maxJitter
      device := startDevice.module }
    endDevice := endDevice.module
    pathFragments := pathFragments }, flowIndex)

/-- Both matchers are made for every pair: dotted paths, substrings, any case. -/
def matchesPair (entry : ValueMap) (source destination : Node Module) : Except SimError Bool := do
  let sourceMatcher ← PatternMatcher.setPattern (← entry.getString "source").toList true false false
  let destinationMatcher ←
    PatternMatcher.setPattern (← entry.getString "destination").toList true false false
  pure (PatternMatcher.matches false sourceMatcher (tree.getFullPath source.module).toList &&
    PatternMatcher.matches false destinationMatcher (tree.getFullPath destination.module).toList)

/-- All pairs of nodes, in the order of the two loops. -/
def nodePairs : List (Node Module × Node Module) :=
  topology.nodes.flatMap fun source => topology.nodes.map fun destination => (source, destination)

def flowsOfPairs [DecidableEq Module] (entry : ValueMap) :
    List (Node Module × Node Module) → Nat → Except SimError (List (Flow Module) × Nat)
  | [], flowIndex => pure ([], flowIndex)
  | (source, destination) :: pairs, flowIndex => do
    if ← matchesPair tree entry source destination then
      let (flow, flowIndex) ← makeFlow tree ops topology entry source destination flowIndex
      let (flows, flowIndex) ← flowsOfPairs entry pairs flowIndex
      pure (flow :: flows, flowIndex)
    else flowsOfPairs entry pairs flowIndex

/-! ### The configuration -/

/-- The flows of each entry. -/
def collectFlows [DecidableEq Module] :
    List Value → Nat → Except SimError (List (List (Flow Module)))
  | [], _ => pure []
  | value :: configuration, flowIndex => do
    let entry ← value.mapValue
    let (flows, flowIndex) ← flowsOfPairs tree ops topology entry (nodePairs topology) flowIndex
    let rest ← collectFlows configuration flowIndex
    pure (flows :: rest)

/-- `std::sort` by falling `pcp`. Flows with the same `pcp` may come in any order. -/
structure PcpSort (Module : Type) where
  sort : List (Flow Module) → List (Flow Module)
  sort_perm : ∀ flows, (sort flows).Perm flows
  sort_sorted : ∀ flows,
    (sort flows).Pairwise fun r1 r2 => r2.startApplication.pcp ≤ r1.startApplication.pcp

/-- A sort that keeps the order of flows with the same `pcp`. -/
def stableSort : PcpSort Module where
  sort flows := flows.mergeSort fun r1 r2 => r2.startApplication.pcp ≤ r1.startApplication.pcp
  sort_perm flows := List.mergeSort_perm flows _
  sort_sorted flows := by
    refine (List.pairwise_mergeSort (fun _ _ _ h1 h2 => ?_) (fun _ _ => ?_) flows).imp fun h => ?_
    · simp only [decide_eq_true_eq] at *
      omega
    · simp only [Bool.or_eq_true, decide_eq_true_eq]
      omega
    · simpa using h

def addFlows [DecidableEq Module] (order : PcpSort Module) (configuration : List Value) :
    Except SimError (List (Flow Module)) := do
  let flows ← collectFlows tree ops topology configuration 0
  pure (order.sort flows.flatten)

/-! ## Small lemmas -/

section

variable {tree ops topology}

theorem Topology.mem_nodes_of_mem_devices {node : Node Module} (h : node ∈ topology.devices) :
    node ∈ topology.nodes := List.mem_of_mem_filter h

/-- Nodes differ in their modules. -/
theorem Topology.node_ext {a b : Node Module} (ha : a ∈ topology.nodes) (hb : b ∈ topology.nodes)
    (h : a.module = b.module) : a = b :=
  List.inj_on_of_nodup_map topology.nodup ha hb h

theorem nodePairs_nodup : (nodePairs topology).Nodup :=
  have h : topology.nodes.Nodup := List.Nodup.of_map _ topology.nodup
  h.product h

theorem mem_nodePairs {a b : Node Module} :
    (a, b) ∈ nodePairs topology ↔ a ∈ topology.nodes ∧ b ∈ topology.nodes :=
  List.mem_product

variable [DecidableEq Module]

theorem Topology.getDevice_eq_ok {m : Module} {node : Node Module} :
    topology.getDevice m = .ok node ↔ node ∈ topology.devices ∧ node.module = m := by
  rw [getDevice, require_eq_ok]
  constructor
  · intro h
    exact ⟨List.mem_of_find?_eq_some h, by simpa using List.find?_some h⟩
  · rintro ⟨hmem, rfl⟩
    obtain ⟨node', h'⟩ : ∃ node', topology.devices.find? (fun n => n.module = node.module) =
        some node' := by
      rw [← Option.isSome_iff_exists, List.find?_isSome]
      exact ⟨node, hmem, by simp⟩
    have hmodule : node'.module = node.module := by simpa using List.find?_some h'
    rw [h', topology.node_ext (mem_nodes_of_mem_devices (List.mem_of_find?_eq_some h'))
      (mem_nodes_of_mem_devices hmem) hmodule]

/-- The flows of the input are those of the entries. -/
theorem addFlows_perm {order : PcpSort Module} {configuration : List Value}
    {flows : List (Flow Module)} :
    addFlows tree ops topology order configuration = .ok flows ↔
      ∃ perEntry, collectFlows tree ops topology configuration 0 = .ok perEntry ∧
        order.sort perEntry.flatten = flows := by
  simp only [addFlows, bind_eq_ok, pure_eq_ok]

/-- The entries with their flows. -/
theorem collectFlows_forall₂ : ∀ {configuration : List Value} {n : Nat}
    {perEntry : List (List (Flow Module))},
    collectFlows tree ops topology configuration n = .ok perEntry →
    List.Forall₂ (fun value flows => ∃ entry m m', value = .map entry ∧
      flowsOfPairs tree ops topology entry (nodePairs topology) m = .ok (flows, m'))
      configuration perEntry
  | [], n, perEntry, h => by
    rw [collectFlows, pure_eq_ok] at h
    subst h
    exact .nil
  | value :: configuration, n, perEntry, h => by
    simp only [collectFlows, bind_eq_ok, pure_eq_ok, Value.mapValue_eq_ok] at h
    obtain ⟨entry, hvalue, ⟨flows, m⟩, hflows, rest, hrest, rfl⟩ := h
    exact .cons ⟨entry, n, m, hvalue, hflows⟩ (collectFlows_forall₂ hrest)

/-! ### The pairs that match -/

/-- The flows of pairs that are known to match. -/
def makeFlows (tree : ModuleTree Module) (ops : ValueOps) (topology : Topology Module)
    (entry : ValueMap) :
    List (Node Module × Node Module) → Nat → Except SimError (List (Flow Module) × Nat)
  | [], flowIndex => pure ([], flowIndex)
  | (source, destination) :: pairs, flowIndex => do
    let (flow, flowIndex) ← makeFlow tree ops topology entry source destination flowIndex
    let (flows, flowIndex) ← makeFlows tree ops topology entry pairs flowIndex
    pure (flow :: flows, flowIndex)

theorem flowsOfPairs_eq {entry : ValueMap} {f : Node Module × Node Module → Bool} :
    ∀ {pairs : List (Node Module × Node Module)} {flowIndex : Nat},
      (∀ p ∈ pairs, matchesPair tree entry p.1 p.2 = .ok (f p)) →
      flowsOfPairs tree ops topology entry pairs flowIndex =
        makeFlows tree ops topology entry (pairs.filter f) flowIndex
  | [], flowIndex, _ => rfl
  | (source, destination) :: pairs, flowIndex, h => by
    have hhead := h _ List.mem_cons_self
    have ih : ∀ n, flowsOfPairs tree ops topology entry pairs n =
        makeFlows tree ops topology entry (pairs.filter f) n :=
      fun _ => flowsOfPairs_eq fun p hp => h p (List.mem_cons_of_mem _ hp)
    dsimp only at hhead
    by_cases hf : f (source, destination) = true
    · rw [List.filter_cons_of_pos hf, makeFlows, flowsOfPairs, hhead, hf]
      simp only [ih]
      rfl
    · rw [Bool.not_eq_true] at hf
      rw [List.filter_cons_of_neg (by simp [hf]), flowsOfPairs, hhead, hf, ← ih]
      rfl

/-- A flow is made from a pair of nodes that matches. -/
theorem exists_makeFlow_of_mem {entry : ValueMap} {flow : Flow Module} :
    ∀ {pairs : List (Node Module × Node Module)} {n n' : Nat} {flows : List (Flow Module)},
      flowsOfPairs tree ops topology entry pairs n = .ok (flows, n') → flow ∈ flows →
      ∃ a b k k', (a, b) ∈ pairs ∧ matchesPair tree entry a b = .ok true ∧
        makeFlow tree ops topology entry a b k = .ok (flow, k')
  | [], n, n', flows, h, hflow => by
    rw [flowsOfPairs, pure_eq_ok, Prod.mk.injEq] at h
    rw [← h.1] at hflow
    cases hflow
  | (a, b) :: pairs, n, n', flows, h, hflow => by
    have ih : ∀ {m m' : Nat} {rest : List (Flow Module)},
        flowsOfPairs tree ops topology entry pairs m = .ok (rest, m') → flow ∈ rest →
        ∃ c d k k', (c, d) ∈ (a, b) :: pairs ∧ matchesPair tree entry c d = .ok true ∧
          makeFlow tree ops topology entry c d k = .ok (flow, k') := by
      intro m m' rest hrest hmem
      obtain ⟨c, d, k, k', hpair, hmade⟩ := exists_makeFlow_of_mem hrest hmem
      exact ⟨c, d, k, k', List.mem_cons_of_mem _ hpair, hmade⟩
    simp only [flowsOfPairs, bind_eq_ok] at h
    obtain ⟨matched, hmatch, h⟩ := h
    cases matched with
    | false => exact ih h hflow
    | true =>
      simp only [if_true, bind_eq_ok, pure_eq_ok, Prod.mk.injEq] at h
      obtain ⟨⟨first, m⟩, hfirst, ⟨rest, m'⟩, hrest, rfl, -⟩ := h
      rcases List.mem_cons.mp hflow with rfl | hflow
      · exact ⟨a, b, n, m, List.mem_cons_self, hmatch, hfirst⟩
      · exact ih hrest hflow

/-- Every pair of nodes that matches makes a flow. -/
theorem exists_flow_of_matchesPair {entry : ValueMap} {a b : Node Module}
    (hmatch : matchesPair tree entry a b = .ok true) :
    ∀ {pairs : List (Node Module × Node Module)} {n n' : Nat} {flows : List (Flow Module)},
      flowsOfPairs tree ops topology entry pairs n = .ok (flows, n') → (a, b) ∈ pairs →
      ∃ flow ∈ flows, ∃ k k', makeFlow tree ops topology entry a b k = .ok (flow, k')
  | (c, d) :: pairs, n, n', flows, h, hpair => by
    simp only [flowsOfPairs, bind_eq_ok] at h
    obtain ⟨matched, hfirst, h⟩ := h
    rcases List.mem_cons.mp hpair with heq | hpair
    · obtain ⟨rfl, rfl⟩ := Prod.mk.inj heq
      rw [hmatch, Except.ok.injEq] at hfirst
      subst hfirst
      simp only [if_true, bind_eq_ok, pure_eq_ok, Prod.mk.injEq] at h
      obtain ⟨⟨flow, m⟩, hmade, ⟨rest, m'⟩, -, rfl, -⟩ := h
      exact ⟨flow, List.mem_cons_self, n, m, hmade⟩
    · cases matched with
      | false => exact exists_flow_of_matchesPair hmatch h hpair
      | true =>
        simp only [if_true, bind_eq_ok, pure_eq_ok, Prod.mk.injEq] at h
        obtain ⟨⟨first, m⟩, -, ⟨rest, m'⟩, hrest, rfl, -⟩ := h
        obtain ⟨flow, hflow, hmade⟩ := exists_flow_of_matchesPair hmatch hrest hpair
        exact ⟨flow, List.mem_cons_of_mem _ hflow, hmade⟩

/-- Where the paths of a flow come from. -/
theorem makeFlow_paths {entry : ValueMap} {a b : Node Module} {flow : Flow Module} {n n' : Nat}
    (h : makeFlow tree ops topology entry a b n = .ok (flow, n')) :
    ∃ fragments, flowFragments tree topology entry a.module b.module = .ok fragments ∧
      readPaths tree topology fragments = .ok flow.pathFragments := by
  simp only [makeFlow, bind_eq_ok, pure_eq_ok, Prod.mk.injEq] at h
  obtain ⟨_, -, _, -, _, -, _, -, _, -, _, -, _, -, _, -, _, -, _, -, _, -, _, -, fragments, hfragments,
    _, hpaths, rfl, -⟩ := h
  exact ⟨fragments, hfragments, hpaths⟩

/-- Pairs that all make a flow, without a number, make as many. -/
theorem exists_makeFlows {entry : ValueMap} (n : Nat) :
    ∀ {pairs : List (Node Module × Node Module)},
      (∀ p ∈ pairs, ∃ flow, makeFlow tree ops topology entry p.1 p.2 n = .ok (flow, n)) →
      ∃ flows, makeFlows tree ops topology entry pairs n = .ok (flows, n) ∧
        flows.length = pairs.length
  | [], _ => ⟨[], rfl, rfl⟩
  | (a, b) :: pairs, h => by
    obtain ⟨flow, hflow⟩ := h _ List.mem_cons_self
    obtain ⟨flows, hflows, hlength⟩ := exists_makeFlows n fun p hp =>
      h p (List.mem_cons_of_mem _ hp)
    refine ⟨flow :: flows, ?_, by rw [List.length_cons, List.length_cons, hlength]⟩
    simp only [makeFlows, bind_eq_ok, pure_eq_ok]
    exact ⟨_, hflow, _, hflows, rfl⟩

/-- One flow comes from one pair. -/
theorem makeFlows_eq_singleton {entry : ValueMap} {pairs : List (Node Module × Node Module)}
    {flow : Flow Module} {n n' : Nat} :
    makeFlows tree ops topology entry pairs n = .ok ([flow], n') ↔
      ∃ a b, pairs = [(a, b)] ∧ makeFlow tree ops topology entry a b n = .ok (flow, n') := by
  match pairs with
  | [] => simp [makeFlows, pure_eq_ok]
  | [(a, b)] =>
    simp only [makeFlows, bind_eq_ok, pure_eq_ok, Prod.mk.injEq, List.cons.injEq, and_true]
    constructor
    · rintro ⟨⟨flow', k⟩, hflow, _, rfl, ⟨rfl, -⟩, rfl⟩
      exact ⟨a, b, ⟨rfl, rfl⟩, hflow⟩
    · rintro ⟨a, b, ⟨rfl, rfl⟩, hflow⟩
      exact ⟨_, hflow, _, rfl, ⟨rfl, rfl⟩, rfl⟩
  | (a, b) :: (c, d) :: pairs =>
    simp only [makeFlows, bind_eq_ok, pure_eq_ok, Prod.mk.injEq, List.cons.injEq, reduceCtorEq,
      and_false, exists_false, false_and, iff_false]
    rintro ⟨_, _, _, ⟨_, _, _, _, rfl⟩, ⟨_, h⟩, _⟩
    cases h

end

/-! ## The devices of a car -/

/-- A port of 100 Mbit/s. -/
def carPort (module : Fin 14) (interfaceName : String) (endNode otherPort : Fin 14) :
    Port (Fin 14) :=
  ⟨module, interfaceName, 100000000, 0, endNode, otherPort⟩

/-- Cables from the network card to the two devices. -/
def carGraph : List (NodeGraph.TopologyNode (Fin 14)) :=
  NodeGraph.ofLinks [2, 4, 5] [⟨2, 0, 4, 0⟩, ⟨4, 0, 2, 0⟩, ⟨2, 1, 5, 0⟩, ⟨5, 0, 2, 1⟩]

/-- The network card with one cable to each of the two devices. -/
def carTopology : Topology (Fin 14) where
  nodes := [
    ⟨2, true, true, [carPort 10 "eth0" 4 12, carPort 11 "eth1" 5 13]⟩,
    ⟨4, true, true, [carPort 12 "eth0" 2 10]⟩,
    ⟨5, true, true, [carPort 13 "eth0" 2 11]⟩]
  nodup := by decide
  graph := carGraph
  attributes := NodeGraph.defaultAttributes

end CooperativeTsn
