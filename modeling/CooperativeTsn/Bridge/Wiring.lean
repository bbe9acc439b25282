import CooperativeTsn.Bridge.Configurator
import CooperativeTsn.Net.ShortestPath

/-!
# `MacForwardingTableConfigurator` on a topology

The rules of the bridges as the configurator computes them: for each interface of a host the weights
of the links into the host are set, the shortest paths to it are searched, and each bridge gets the
interface at which its first path starts. The weights are those of the topology, so that they stay
for the searches that follow.

* `extendConfiguration_refines` — a configurator that takes its first interfaces from the search
* `extendConfiguration_spec` — what it does to the weights and to the rules
-/

namespace CooperativeTsn

open NodeGraph Infra.Runs Infra.Updates Infra.ShortestPath MacForwardingTableConfigurator

/-- An interface of a node. The address is `none` where it is unspecified. -/
structure WiredInterface (Mac : Type) where
  name : String
  isLoopback : Bool
  macAddress : Option Mac

/-- The topology of a configurator: its nodes with their interfaces, and the links between them. -/
structure Wiring (Host Mac : Type) where
  nodes : List (TopologyNode Host)
  interfaces : Host → List (WiredInterface Mac)
  hasInterfaceTable : Host → Bool
  hasIpv4RoutingTable : Host → Bool
  /-- has a submodule `macTable` -/
  hasMacTable : Host → Bool
  sourceInterface : TopologyLink Host → Option String
  destinationInterface : TopologyLink Host → Option String
  wellLinked : WellLinked nodes

/-- What the configurator keeps: the weights of the links and the rules of the bridges. -/
structure ConfiguratorState (Host Mac Group : Type) where
  weights : TopologyLink Host → WithTop Nat
  configurations : Configurations Host Mac Group

/-- An interface that frames are sent to. -/
structure Endpoint (Host Mac : Type) where
  node : Host
  interface : String
  address : Mac
deriving DecidableEq

variable {Host Mac Group : Type}

namespace Wiring

/-! ## The configurator -/

def isBridgeNode (wiring : Wiring Host Mac) (host : Host) : Bool :=
  !wiring.hasIpv4RoutingTable host || !wiring.hasInterfaceTable host

def modules (wiring : Wiring Host Mac) : List Host := wiring.nodes.map TopologyNode.module

/-- Nothing but the weights of links is ever set. -/
def attributes (weights : TopologyLink Host → WithTop Nat) : Attributes Host Nat :=
  { defaultAttributes with linkWeight := weights }

/-- The state before the first extension. -/
def initial : ConfiguratorState Host Mac Group := ⟨fun _ => 1, fun _ => none⟩

section

variable [DecidableEq Host]

/-- The first loop of `extendConfiguration`. -/
def setWeights (wiring : Wiring Host Mac) (destination : Host) (interface : Option String)
    (weights : TopologyLink Host → WithTop Nat) : TopologyLink Host → WithTop Nat :=
  (linksAt wiring.nodes .dest destination).foldl (fun weights link =>
    Function.update weights link
      (if wiring.destinationInterface link ≠ interface then ⊤ else 1)) weights

def search (wiring : Wiring Host Mac) (weights : TopologyLink Host → WithTop Nat)
    (destination : Host) : Except SimError (SearchState Host Nat) :=
  calculateWeightedSingleShortestPaths wiring.nodes (attributes weights) .dest destination

variable [DecidableEq Mac] [DecidableEq Group]

/-- The body of the loop over the sources, as a function of the rules of the source. -/
def extendSource (wiring : Wiring Host Mac) (search : SearchState Host Nat) (destination : Host)
    (address : Mac ⊕ Group) (source : Host) (rules : Option (List (ForwardingRule Mac Group))) :
    Except SimError (Option (List (ForwardingRule Mac Group))) :=
  if source ≠ destination ∧ wiring.isBridgeNode source then
    match (search.paths source).head? with
    | none => pure rules
    | some firstLink => do
      let interfaceName ← require .nullPointer (wiring.sourceInterface firstLink)
      ensure (wiring.hasMacTable source = true) .nullPointer
      pure (some (addForwardingRule ⟨none, address, interfaceName⟩ rules))
  else pure rules

def extendConfiguration (wiring : Wiring Host Mac) (destination : Host) (interface : Option String)
    (address : Mac ⊕ Group) (s : ConfiguratorState Host Mac Group) :
    Except SimError (ConfiguratorState Host Mac Group) := do
  let weights := wiring.setWeights destination interface s.weights
  let search ← wiring.search weights destination
  let configurations ←
    updateEach (wiring.extendSource search destination address) wiring.modules s.configurations
  pure ⟨weights, configurations⟩

/-- One interface of a destination. -/
def extendInterface (wiring : Wiring Host Mac) (destination : Host)
    (s : ConfiguratorState Host Mac Group) (i : WiredInterface Mac) :
    Except SimError (ConfiguratorState Host Mac Group) :=
  if i.isLoopback then pure s
  else match i.macAddress with
    | none => pure s
    | some macAddress => wiring.extendConfiguration destination (some i.name) (.inl macAddress) s

def computeMacForwardingTables (wiring : Wiring Host Mac) (s : ConfiguratorState Host Mac Group) :
    Except SimError (ConfiguratorState Host Mac Group) :=
  wiring.modules.foldlM (fun s destination =>
    if !wiring.isBridgeNode destination then
      (wiring.interfaces destination).foldlM (wiring.extendInterface destination) s
    else pure s) s

/-- Only nodes of the topology have rules. -/
def configureMacForwardingTables (wiring : Wiring Host Mac)
    (configurations : Configurations Host Mac Group)
    (tables : Host → MacForwardingTable Mac Group) :
    Except SimError (Host → MacForwardingTable Mac Group) :=
  updateEach (configureTable configurations) wiring.modules tables

/-- `initialize`, in the stage `INITSTAGE_NETWORK_CONFIGURATION` -/
def initializeTables (wiring : Wiring Host Mac) (tables : Host → MacForwardingTable Mac Group) :
    Except SimError (ConfiguratorState Host Mac Group × (Host → MacForwardingTable Mac Group)) := do
  let s ← wiring.computeMacForwardingTables initial
  let tables ← wiring.configureMacForwardingTables s.configurations tables
  pure (s, tables)

/-- `findInterface`, by name -/
def findInterface (wiring : Wiring Host Mac) (node : Host) (interface : String) : Option String :=
  ((wiring.interfaces node).find? fun i => i.name = interface).map WiredInterface.name

/-- `receiveSignal(ipv4MulticastChangeSignal)`, for an interface that is now in the group -/
def receiveSignal (wiring : Wiring Host Mac)
    (s : ConfiguratorState Host Mac Group × (Host → MacForwardingTable Mac Group))
    (change : Endpoint Host Group) :
    Except SimError (ConfiguratorState Host Mac Group × (Host → MacForwardingTable Mac Group)) := do
  ensure (change.node ∈ wiring.modules) .nullPointer
  let s' ← wiring.extendConfiguration change.node
    (wiring.findInterface change.node change.interface) (.inr change.address) s.1
  let tables ← wiring.configureMacForwardingTables s'.configurations s.2
  pure (s', tables)

end

/-! ## Weights -/

/-- The weights that searches for hosts leave behind: links into bridges keep theirs. -/
structure Passable (wiring : Wiring Host Mac) (weights : TopologyLink Host → WithTop Nat) :
    Prop where
  eq : ∀ l, weights l = 1 ∨ weights l = ⊤
  bridge : ∀ l, wiring.isBridgeNode l.destNode = true → weights l = 1

theorem passable_initial (wiring : Wiring Host Mac) :
    wiring.Passable (initial : ConfiguratorState Host Mac Group).weights :=
  ⟨fun _ => .inl rfl, fun _ _ => rfl⟩

theorem Passable.positive {wiring : Wiring Host Mac} {weights : TopologyLink Host → WithTop Nat}
    (h : wiring.Passable weights) : (attributes weights).Positive where
  linkWeight l := by
    show 0 < weights l
    rcases h.eq l with h | h <;> rw [h] <;> decide
  nodeWeight _ := le_rfl

section

variable [DecidableEq Host] {wiring : Wiring Host Mac} {weights : TopologyLink Host → WithTop Nat}
  {destination : Host} {interface : Option String}

theorem setWeights_eq (l : TopologyLink Host) :
    wiring.setWeights destination interface weights l =
      if l ∈ linksAt wiring.nodes .dest destination then
        if wiring.destinationInterface l ≠ interface then ⊤ else 1
      else weights l := foldl_update _ _ _

theorem Passable.setWeights (h : wiring.Passable weights)
    (hhost : wiring.isBridgeNode destination = false) :
    wiring.Passable (wiring.setWeights destination interface weights) where
  eq l := by
    rw [setWeights_eq]
    split
    · split
      · exact .inr rfl
      · exact .inl rfl
    · exact h.eq l
  bridge l hbridge := by
    rw [setWeights_eq, if_neg fun hl => ?_]
    · exact h.bridge l hbridge
    · have hdest : l.destNode = destination := linksAt_node wiring.wellLinked hl
      rw [hdest, hhost] at hbridge
      cases hbridge

/-- What a search for the destination leaves at the nodes. -/
structure Found (wiring : Wiring Host Mac) (weights : TopologyLink Host → WithTop Nat)
    (destination : Host) (s : SearchState Host Nat) : Prop where
  target : s.dist destination = 0
  relaxed : ∀ n, ∀ l ∈ linksAt wiring.nodes .dest n, s.dist l.srcNode ≤ s.dist n + weights l
  first : ∀ n, n ≠ destination → s.dist n < ⊤ → ∃ l, (s.paths n).head? = some l ∧
    l.srcNode = n ∧ l ∈ linksAt wiring.nodes .dest l.destNode ∧
    s.dist n = s.dist l.destNode + weights l
  mem_paths : ∀ n l, l ∈ s.paths n ↔
    l.srcNode = n ∧ l ∈ linksAt wiring.nodes .dest l.destNode ∧ s.dist l.destNode < ⊤
  nodes : ∀ n, s.dist n < ⊤ → n ∈ wiring.modules

theorem exists_search (h : wiring.Passable weights) (hdestination : destination ∈ wiring.modules) :
    ∃ s, wiring.search weights destination = .ok s ∧ wiring.Found weights destination s := by
  obtain ⟨s, hs, hexact, hnodes, hpaths⟩ :=
    weighted_search wiring.wellLinked h.positive .dest hdestination
  -- every link is usable, and nodes cost nothing
  have hlinks : ∀ n, (weightGraph wiring.wellLinked h.positive .dest destination).links n =
      linksAt wiring.nodes .dest n := fun n => List.filter_eq_self.mpr fun _ _ => rfl
  have hcost : ∀ l, (weightGraph wiring.wellLinked h.positive .dest destination).cost l =
      weights l := by
    intro l
    show weights l + (if l.destNode ≠ destination then 0 else 0) = weights l
    rw [ite_self, add_zero]
  refine ⟨s, hs, hexact.target, fun n l hl => ?_, fun n hn hfinite => ?_, fun n l => ?_, hnodes⟩
  · rw [← hcost]
    exact hexact.relaxed n l (by rwa [hlinks])
  · obtain ⟨l, hhead, hsource, hl, hdist⟩ := hexact.first n hn hfinite
    rw [hlinks] at hl
    rw [hcost] at hdist
    exact ⟨l, hhead, hsource, hl, hdist⟩
  · rw [hpaths rfl, hlinks]

end

/-! ## Refinement -/

section

variable [DecidableEq Host]

/-- The layout that the configurator works on while the weights stand. There is nothing but its
topology; what it does not read is left empty. -/
def layout (wiring : Wiring Host Mac) (weights : TopologyLink Host → WithTop Nat) :
    Layout Empty Unit Host Mac Group where
  interfaceTable nic := nomatch nic
  configurator nic := nomatch nic
  topology _ := wiring.modules
  topology_nodup _ := wiring.wellLinked.nodup
  hasInterfaceTable := wiring.hasInterfaceTable
  hasIpv4RoutingTable := wiring.hasIpv4RoutingTable
  hasIpv6RoutingTable _ := false
  hasMacTable := wiring.hasMacTable
  firstInterface _ destination _ source := do
    let s ← (wiring.search weights destination).toOption
    let firstLink ← (s.paths source).head?
    wiring.sourceInterface firstLink
  multicastAddress := none

variable [DecidableEq Mac] [DecidableEq Group] {wiring : Wiring Host Mac} {destination : Host}
  {interface : Option String} {address : Mac ⊕ Group} {s s' : ConfiguratorState Host Mac Group}

/-- The rules are those of a configurator that is given the first interfaces. -/
theorem extendConfiguration_refines
    (h : wiring.extendConfiguration destination interface address s = .ok s') (name : String) :
    MacForwardingTableConfigurator.extendConfiguration (wiring.layout s'.weights) () destination
      name
      address s.configurations = .ok s'.configurations := by
  simp only [extendConfiguration, bind_eq_ok, pure_eq_ok] at h
  obtain ⟨search, hsearch, configurations, hloop, rfl⟩ := h
  refine updateEach_mono (fun source rules rules' hrules => ?_) hloop
  rw [extendSource] at hrules
  rw [MacForwardingTableConfigurator.extendSource]
  by_cases hbridge : source ≠ destination ∧ wiring.isBridgeNode source = true
  · rw [if_pos hbridge] at hrules
    have hfirst : (wiring.layout (wiring.setWeights destination interface s.weights) :
        Layout Empty Unit Host Mac Group).firstInterface () destination name source =
          ((search.paths source).head?).bind wiring.sourceInterface := by
      show ((wiring.search _ destination).toOption.bind fun s => (s.paths source).head?.bind
        wiring.sourceInterface) = _
      rw [hsearch]
      rfl
    rw [if_pos (by exact hbridge), hfirst]
    cases hhead : (search.paths source).head? with
    | none =>
      rw [hhead] at hrules
      exact hrules
    | some firstLink =>
      simp only [hhead, bind_eq_ok, require_eq_ok] at hrules
      obtain ⟨interfaceName, hname, hrules⟩ := hrules
      simp only [Option.bind_some, hname]
      exact bind_eq_ok.mpr hrules
  · rw [if_neg hbridge] at hrules
    rw [if_neg (by exact hbridge)]
    exact hrules

end

/-! ## Rules -/

/-- The entry of a bridge in `configurations`. A bridge without rules has none. -/
def asConfiguration (rules : List (ForwardingRule Mac Group)) :
    Option (List (ForwardingRule Mac Group)) :=
  match rules with
  | [] => none
  | rules => some rules

theorem addForwardingRule_fresh [DecidableEq Mac] [DecidableEq Group]
    {rules : List (ForwardingRule Mac Group)} {rule : ForwardingRule Mac Group}
    (hfresh : ∀ r ∈ rules, r.address ≠ rule.address) :
    some (addForwardingRule rule (asConfiguration rules)) = asConfiguration (rules ++ [rule]) := by
  cases rules with
  | nil => rfl
  | cons r rules =>
    have hany : ((r :: rules).any fun r =>
        r.address = rule.address ∧ r.interface = rule.interface) = false := by
      rw [List.any_eq_false]
      intro x hx hdec
      exact hfresh x hx (of_decide_eq_true hdec).1
    show some (if _ then _ else _) = _
    rw [hany]
    rfl

section

variable [DecidableEq Host] {wiring : Wiring Host Mac} {destination source : Host}
  {interface : Option String} {address : Mac ⊕ Group} {s s' : ConfiguratorState Host Mac Group}

/-- Each bridge has a table, and an interface for each of its links. -/
structure Configurable (wiring : Wiring Host Mac) : Prop where
  hasMacTable : ∀ b, wiring.isBridgeNode b = true → wiring.hasMacTable b = true
  sourceInterface : ∀ b, wiring.isBridgeNode b = true → ∀ l ∈ linksAt wiring.nodes .source b,
    wiring.sourceInterface l ≠ none

/-- The interface at which the way of a bridge begins. -/
def firstInterface (wiring : Wiring Host Mac) (search : SearchState Host Nat)
    (destination source : Host) : Option String :=
  if source ≠ destination ∧ wiring.isBridgeNode source then
    (search.paths source).head?.bind wiring.sourceInterface
  else none

/-- A link that is noted at its source is one of its outgoing links. -/
theorem Found.mem_linksAt {weights : TopologyLink Host → WithTop Nat}
    {search : SearchState Host Nat}
    (h : wiring.Found weights destination search) {l : TopologyLink Host}
    (hl : l ∈ search.paths source) : l ∈ linksAt wiring.nodes .source source := by
  obtain ⟨rfl, hl, -⟩ := (h.mem_paths _ _).mp hl
  exact mem_linksAt_other wiring.wellLinked hl

variable [DecidableEq Mac] [DecidableEq Group]

/-- A bridge gets one more rule, if its way to the destination begins somewhere. -/
theorem extendSource_spec {weights : TopologyLink Host → WithTop Nat}
    {search : SearchState Host Nat} (hconf : wiring.Configurable)
    (hfound : wiring.Found weights destination search) {rules : List (ForwardingRule Mac Group)}
    (hfresh : ∀ r ∈ rules, r.address ≠ address) :
    wiring.extendSource search destination address source (asConfiguration rules) =
      .ok (asConfiguration (rules ++
        (wiring.firstInterface search destination source).toList.map fun name =>
          ⟨none, address, name⟩)) := by
  rw [extendSource, firstInterface]
  by_cases hbridge : source ≠ destination ∧ wiring.isBridgeNode source = true
  · rw [if_pos hbridge, if_pos hbridge]
    cases hhead : (search.paths source).head? with
    | none => simp [pure_eq_ok]
    | some firstLink =>
      have hlink := hfound.mem_linksAt (List.mem_of_head? hhead)
      obtain ⟨name, hname⟩ :=
        Option.ne_none_iff_exists'.mp (hconf.sourceInterface source hbridge.2 _ hlink)
      simp only [Option.bind_some, hname, Option.toList_some, List.map_cons, List.map_nil]
      rw [← addForwardingRule_fresh hfresh]
      exact bind_eq_ok.mpr ⟨name, rfl, bind_eq_ok.mpr
        ⟨(), ensure_eq_ok.mpr (hconf.hasMacTable source hbridge.2), rfl⟩⟩
  · rw [if_neg hbridge, if_neg hbridge]
    simp [pure_eq_ok]

/-- What an extension does to the weights and to the rules. -/
theorem extendConfiguration_spec (hconf : wiring.Configurable)
    (hpassable : wiring.Passable s.weights)
    (hdestination : destination ∈ wiring.modules)
    (hhost : wiring.isBridgeNode destination = false) (interface : Option String)
    {rules : Host → List (ForwardingRule Mac Group)}
    (hrules : ∀ b ∈ wiring.modules, s.configurations b = asConfiguration (rules b))
    (hfresh : ∀ b, ∀ r ∈ rules b, r.address ≠ address) :
    ∃ s' search, wiring.extendConfiguration destination interface address s = .ok s' ∧
      s'.weights = wiring.setWeights destination interface s.weights ∧
      wiring.Found s'.weights destination search ∧
      ∀ b ∈ wiring.modules, s'.configurations b = asConfiguration (rules b ++
        (wiring.firstInterface search destination b).toList.map fun name =>
          ⟨none, address, name⟩) := by
  obtain ⟨search, hsearch, hfound⟩ :=
    exists_search (hpassable.setWeights hhost : wiring.Passable
      (wiring.setWeights destination interface s.weights)) hdestination
  have hsource : ∀ b ∈ wiring.modules, wiring.extendSource search destination address b
      (s.configurations b) = .ok (asConfiguration (rules b ++
        (wiring.firstInterface search destination b).toList.map fun name =>
          ⟨none, address, name⟩)) := by
    intro b hb
    rw [hrules b hb]
    exact extendSource_spec hconf hfound (hfresh b)
  obtain ⟨configurations, hloop⟩ :
      ∃ c, updateEach (wiring.extendSource search destination address) wiring.modules
        s.configurations = .ok c :=
    updateEach_ok wiring.wellLinked.nodup fun b hb => ⟨_, hsource b hb⟩
  refine ⟨⟨_, configurations⟩, search, ?_, rfl, hfound, fun b hb => ?_⟩
  · rw [extendConfiguration]
    exact bind_eq_ok.mpr ⟨search, hsearch, bind_eq_ok.mpr ⟨configurations, hloop, rfl⟩⟩
  · have hb' := updateEach_mem wiring.wellLinked.nodup hb hloop
    rw [hsource b hb, Except.ok.injEq] at hb'
    exact hb'.symm

end

end Wiring

end CooperativeTsn
