import CooperativeTsn.Flow.PatternMatcher
import CooperativeTsn.Infra.Traversal
import CooperativeTsn.Net.ModuleTree
import CooperativeTsn.Net.NodeGraph

/-!
# The sub-network of a configurator

`NetworkConfiguratorBase::extractTopology`. Of the nodes of the whole network it keeps those whose
path is one component longer than the path of the configurator's parent. Interfaces are then
collected by a breadth-first search from the first node, so that the nodes that cannot be reached
from it, over the links of network interfaces, are left without.

Routing tables are left out: nothing here depends on them.

* `matches_children` — the cut keeps the children of the parent
* `wellLinked_extractFromNetwork` — every link is stored at both of its ends
* `extractTopology_eq` — what the cut and the search leave
* `extraction_exact_iff` — when this is the sub-network that the parent has
-/

namespace CooperativeTsn

open Infra Infra.Runs Infra.Assoc

/-! ## Paths -/

/-- Two texts that are extended by one component each, to the same text. -/
theorem parent_path_unique {a b x y : List Char} (hx : '.' ∉ x) (hy : '.' ∉ y)
    (h : a ++ '.' :: x = b ++ '.' :: y) : a = b := by
  rcases List.append_eq_append_iff.mp h with ⟨t, rfl, ht⟩ | ⟨t, rfl, ht⟩
  · cases t with
    | nil => exact (List.append_nil a).symm
    | cons c t =>
      rw [List.cons_append, List.cons.injEq] at ht
      exact absurd (by rw [ht.2]; simp) hx
  · cases t with
    | nil => exact List.append_nil b
    | cons c t =>
      rw [List.cons_append, List.cons.injEq] at ht
      exact absurd (by rw [ht.2]; simp) hy

namespace ModuleTree

variable {Module : Type} (tree : ModuleTree Module)

theorem fullName_isLiteral (m : Module) :
    PatternMatcher.IsLiteral (indexedName (tree.getName m) (tree.getIndex m)).toList := by
  have hname : PatternMatcher.IsLiteral (tree.getName m).toList :=
    PatternMatcher.IsName.isLiteral (tree.getName_chars m)
  cases tree.getIndex m with
  | none => exact hname
  | some i =>
    have hdigits : ∀ c ∈ (toString i).toList, c.isDigit := by
      intro c hc
      rw [Nat.toString_eq_ofList_toDigits, String.toList_ofList] at hc
      exact Nat.isDigit_of_mem_toDigits (by decide) (by decide) hc
    have hsplit : (indexedName (tree.getName m) (some i)).toList =
        (tree.getName m).toList ++ '[' :: ((toString i).toList ++ [']']) := by
      simp [indexedName, String.toList_append]
    rw [hsplit]
    exact hname.append (PatternMatcher.isLiteral_index hdigits)

/-- A path is read as a literal. -/
theorem fullPath_isLiteral (m : Module) : PatternMatcher.IsLiteral (tree.getFullPath m).toList := by
  cases hp : tree.getParentModule m with
  | none =>
    rw [tree.fullPath_root hp]
    exact tree.fullName_isLiteral m
  | some p =>
    have hpath := tree.fullPath_child hp
    have hshorter : (tree.getFullPath p).length < (tree.getFullPath m).length := by
      rw [hpath, String.length_append, String.length_append]
      have : (".".length : Nat) = 1 := rfl
      omega
    have ih := fullPath_isLiteral p
    have hdot : PatternMatcher.IsLiteral ".".toList :=
      ⟨⟨by decide, by decide, by decide, by decide, fun h => absurd h (by decide)⟩, trivial⟩
    rw [hpath, String.toList_append, String.toList_append]
    exact (ih.append hdot).append (tree.fullName_isLiteral m)
termination_by (tree.getFullPath m).length

theorem fullName_dot (m : Module) : '.' ∉ (tree.getFullName m).toList := by
  intro h
  have := tree.getFullName_chars m '.' h
  simp [Char.isAlphanum] at this

/-- A path that is one component longer than the path of `p` leads to a child of `p`. -/
theorem child_iff_path {p m : Module} :
    tree.getParentModule m = some p ↔
      ∃ last, (tree.getFullPath m).toList = (tree.getFullPath p ++ ".").toList ++ last ∧
        '.' ∉ last := by
  constructor
  · intro h
    refine ⟨(tree.getFullName m).toList, ?_, tree.fullName_dot m⟩
    rw [tree.fullPath_child h, String.toList_append]
    rfl
  · rintro ⟨last, heq, hlast⟩
    rw [String.toList_append] at heq
    cases hq : tree.getParentModule m with
    | none =>
      refine absurd ?_ (tree.fullName_dot m)
      rw [getFullName, ← tree.fullPath_root hq, heq]
      simp
    | some q =>
      have hpath := tree.fullPath_child hq
      have hlists := congrArg String.toList hpath
      rw [heq, String.toList_append, String.toList_append, List.append_assoc, List.append_assoc]
        at hlists
      -- neither last component has a dot, so the last dot of both paths is the same
      have hpq := parent_path_unique hlast (tree.fullName_dot m) hlists
      rw [String.toList_inj] at hpq
      have hfind := (tree.findModuleByPath_child q m).mpr hq
      rw [← hpq] at hfind
      rw [← hq]
      exact (tree.findModuleByPath_child p m).mp hfind

end ModuleTree

/-! ## The network -/

namespace Extraction

open NodeGraph

/-- A gate, by its module and its id there. -/
abbrev Gate (Module : Type) := Module × Int

/-- What the simulation knows about modules, gates and interface tables. -/
structure Network (Module Nic : Type) where
  tree : ModuleTree Module
  /-- all modules, in the order of their ids -/
  modules : List Module
  /-- has the property `@networkNode` -/
  networkNode : Module → Bool
  /-- the ids of the output gates -/
  outputGates : Module → List Int
  nextGate : Gate Module → Option (Gate Module)
  /-- how many connections lead on from a gate, at most -/
  connections : Gate Module → Nat
  /-- the submodule `interfaceTable`, if there is one -/
  interfaceTable : Module → Option (List Nic)
  /-- -1 for an interface without gates -/
  nodeOutputGateId : Nic → Int
  nodeInputGateId : Nic → Int
  modules_nodup : modules.Nodup
  mem_modules : ∀ m, m ∈ modules
  outputGates_nodup : ∀ m, (outputGates m).Nodup
  /-- connections make no cycles -/
  connections_lt : ∀ {g g'}, nextGate g = some g' → connections g' < connections g
  /-- an interface is registered once, in one table -/
  interfaces_separate : Traversal.Separate fun m => (interfaceTable m).getD []

variable {Module Nic : Type}

/-! ## `extractFromNetwork` -/

/-- Follows the path of a gate to the first gate of a selected module. -/
def followPath (net : Network Module Nic) (selected : Module → Bool) :
    Nat → Gate Module → Option (Gate Module)
  | 0, _ => none
  | fuel + 1, gate =>
    match net.nextGate gate with
    | none => none
    | some next => if selected next.1 then some next else followPath net selected fuel next

/-- The link that begins at an output gate. -/
def linkOf (net : Network Module Nic) (selected : Module → Bool) (m : Module) (gateId : Int) :
    Option (TopologyLink Module) :=
  (followPath net selected (net.connections (m, gateId)) (m, gateId)).map fun gate =>
    ⟨m, gateId, gate.1, gate.2⟩

def outLinks (net : Network Module Nic) (selected : Module → Bool) (m : Module) :
    List (TopologyLink Module) :=
  (net.outputGates m).filterMap (linkOf net selected m)

/-- `Topology::extractFromNetwork` -/
def extractFromNetwork [DecidableEq Module] (net : Network Module Nic) (selected : Module → Bool) :
    List (TopologyNode Module) :=
  let modules := net.modules.filter selected
  let links := modules.flatMap (outLinks net selected)
  modules.map fun m => ⟨m, links.filter fun l => l.destNode = m, outLinks net selected m⟩

/-! ## `extractTopology` -/

/-- `NetworkConfiguratorBase::Link`: a link with the interfaces at its ends. -/
structure AnnotatedLink (Module Nic : Type) where
  link : TopologyLink Module
  sourceInterface : Option Nic
  destinationInterface : Option Nic
deriving DecidableEq, Repr

/-- The topology, with the interfaces of its nodes, and what the search left in its queue. -/
structure Extracted (Module Nic : Type) where
  nodes : List (TopologyNode Module)
  interfaces : Module → List Nic
  links : List (AnnotatedLink Module Nic)
  unvisited : List Module

section

variable [DecidableEq Module] [DecidableEq Nic] (net : Network Module Nic)

/-- The nodes that are not among those of the other topology are deleted. -/
def cutTopology (topology topologyByPath : List (TopologyNode Module)) :
    Except SimError (List (TopologyNode Module)) :=
  let nodesToDelete := (topology.map TopologyNode.module).filter
    (· ∉ topologyByPath.map TopologyNode.module)
  nodesToDelete.foldlM deleteNode topology

/-- `findLinkOut(node, gateId)` -/
def findLinkOut (nodes : List (TopologyNode Module)) (m : Module) (gateId : Int) :
    Option (TopologyLink Module) := do
  let node ← nodes.find? fun n => n.module = m
  node.outLinks.find? fun l => l.srcGateId = gateId

/-- The interfaces of a node, as the search goes through them. -/
def ports (m : Module) : List Nic := (net.interfaceTable m).getD []

/-- The node that an interface leads to. -/
def neighbor (nodes : List (TopologyNode Module)) (m : Module) (nic : Nic) : Option Module :=
  (findLinkOut nodes m (net.nodeOutputGateId nic)).map TopologyLink.destNode

/-- `findInterface` -/
def findInterface (interfaces : List Nic) (nic : Option Nic) : Option Nic := do
  let nic ← nic
  interfaces.find? (· = nic)

/-- The loop that annotates the links. -/
def annotate (interfaces : Module → List Nic) (l : TopologyLink Module) :
    AnnotatedLink Module Nic where
  link := l
  sourceInterface := (net.interfaceTable l.srcNode).bind fun table =>
    findInterface (interfaces l.srcNode)
      (table.find? fun nic => net.nodeOutputGateId nic = l.srcGateId)
  destinationInterface := (net.interfaceTable l.destNode).bind fun table =>
    findInterface (interfaces l.destNode)
      (table.find? fun nic => net.nodeInputGateId nic = l.destGateId)

/-- From the nodes on. -/
def collectInterfaces (nodes : List (TopologyNode Module)) (root : Module) : Extracted Module Nic :=
  let search := Traversal.run (ports net) (neighbor net nodes)
    (Traversal.fuelFor (ports net) (nodes.map TopologyNode.module)) (Traversal.start root)
  { nodes := nodes
    interfaces := search.found
    links := nodes.flatMap fun n => n.outLinks.map (annotate net search.found)
    unvisited := search.unvisited }

/-- `selectByModulePath`. A path has no blanks, so that the tokenizer leaves the pattern whole. -/
def selectByModulePath (pattern : List PatternMatcher.Elem) (m : Module) : Bool :=
  PatternMatcher.matches true pattern (net.tree.getFullPath m).toList

/-- `NetworkConfiguratorBase::extractTopology`, for the configurator in the module `parent` -/
def extractTopology (parent : Module) : Except SimError (Extracted Module Nic) := do
  let pattern ←
    PatternMatcher.setPattern (net.tree.getFullPath parent ++ ".*").toList true true true
  let topologyByPath := extractFromNetwork net (selectByModulePath net pattern)
  let topology := extractFromNetwork net net.networkNode
  let nodes ← cutTopology topology topologyByPath
  match nodes with
  | [] => .error (.runtimeError "Empty network!")
  | root :: _ => pure (collectInterfaces net nodes root.module)

end

/-! ## Links of the whole network -/

section

variable {net : Network Module Nic} {selected : Module → Bool}

/-- Connections lead from a gate to a gate of a selected module, through no other such module. -/
inductive LeadsTo (net : Network Module Nic) (selected : Module → Bool) :
    Gate Module → Gate Module → Prop
  | direct {gate next : Gate Module} : net.nextGate gate = some next → selected next.1 = true →
      LeadsTo net selected gate next
  | through {gate next last : Gate Module} : net.nextGate gate = some next →
      selected next.1 = false → LeadsTo net selected next last → LeadsTo net selected gate last

theorem LeadsTo.selected_last {gate last : Gate Module} (h : LeadsTo net selected gate last) :
    selected last.1 = true := by
  induction h with
  | direct _ hsel => exact hsel
  | through _ _ _ ih => exact ih

theorem followPath_eq_some : ∀ {fuel : Nat} {gate last : Gate Module},
    net.connections gate ≤ fuel →
    (followPath net selected fuel gate = some last ↔ LeadsTo net selected gate last)
  | 0, gate, last, hfuel => by
    -- nothing leads on from the gate
    have hnext : ∀ next, net.nextGate gate ≠ some next := by
      intro next hnext
      have := net.connections_lt hnext
      omega
    refine ⟨nofun, fun h => ?_⟩
    cases h with
    | direct hn _ => exact absurd hn (hnext _)
    | through hn _ _ => exact absurd hn (hnext _)
  | fuel + 1, gate, last, hfuel => by
    rw [followPath]
    cases hnext : net.nextGate gate with
    | none =>
      refine ⟨nofun, fun h => ?_⟩
      cases h with
      | direct hn _ => exact absurd hn (by rw [hnext]; simp)
      | through hn _ _ => exact absurd hn (by rw [hnext]; simp)
    | some next =>
      have hless := net.connections_lt hnext
      dsimp only
      by_cases hsel : selected next.1 = true
      · rw [if_pos hsel, Option.some.injEq]
        constructor
        · rintro rfl
          exact .direct hnext hsel
        · intro h
          cases h with
          | direct hn _ => exact Option.some.inj (hnext.symm.trans hn)
          | through hn hnot _ =>
            obtain rfl := Option.some.inj (hnext.symm.trans hn)
            exact absurd hsel (by rw [hnot]; simp)
      · rw [if_neg hsel, followPath_eq_some (by omega)]
        constructor
        · exact .through hnext (by simpa using hsel)
        · intro h
          cases h with
          | direct hn hlast =>
            obtain rfl := Option.some.inj (hnext.symm.trans hn)
            exact absurd hlast hsel
          | through hn _ htail =>
            obtain rfl := Option.some.inj (hnext.symm.trans hn)
            exact htail

/-- A link of the network, between selected modules. -/
structure IsLink (net : Network Module Nic) (selected : Module → Bool) (l : TopologyLink Module) :
    Prop where
  source : selected l.srcNode = true
  gate : l.srcGateId ∈ net.outputGates l.srcNode
  leads : LeadsTo net selected (l.srcNode, l.srcGateId) (l.destNode, l.destGateId)

theorem linkOf_eq_some {m : Module} {gateId : Int} {l : TopologyLink Module} :
    linkOf net selected m gateId = some l ↔ l.srcNode = m ∧ l.srcGateId = gateId ∧
      LeadsTo net selected (l.srcNode, l.srcGateId) (l.destNode, l.destGateId) := by
  rw [linkOf, Option.map_eq_some_iff]
  constructor
  · rintro ⟨gate, hgate, rfl⟩
    exact ⟨rfl, rfl, (followPath_eq_some le_rfl).mp hgate⟩
  · rintro ⟨rfl, rfl, hleads⟩
    exact ⟨_, (followPath_eq_some le_rfl).mpr hleads, rfl⟩

theorem mem_outLinks {m : Module} {l : TopologyLink Module} (hm : selected m = true) :
    l ∈ outLinks net selected m ↔ IsLink net selected l ∧ l.srcNode = m := by
  rw [outLinks, List.mem_filterMap]
  constructor
  · rintro ⟨gateId, hgate, hlink⟩
    obtain ⟨rfl, rfl, hleads⟩ := linkOf_eq_some.mp hlink
    exact ⟨⟨hm, hgate, hleads⟩, rfl⟩
  · rintro ⟨h, rfl⟩
    exact ⟨l.srcGateId, h.gate, linkOf_eq_some.mpr ⟨rfl, rfl, h.leads⟩⟩

theorem outLinks_nodup (net : Network Module Nic) (selected : Module → Bool) (m : Module) :
    (outLinks net selected m).Nodup := by
  refine (net.outputGates_nodup m).filterMap fun g g' l hg hg' => ?_
  exact (linkOf_eq_some.mp hg).2.1.symm.trans (linkOf_eq_some.mp hg').2.1

/-- An output gate has one link at most. -/
theorem IsLink.ext_source {l l' : TopologyLink Module} (h : IsLink net selected l)
    (h' : IsLink net selected l') (hnode : l.srcNode = l'.srcNode)
    (hgate : l.srcGateId = l'.srcGateId) : l = l' := by
  have hl := linkOf_eq_some.mpr ⟨rfl, rfl, h.leads⟩
  have hl' := linkOf_eq_some.mpr ⟨rfl, rfl, h'.leads⟩
  rw [hnode, hgate] at hl
  exact Option.some.inj (hl.symm.trans hl')

variable [DecidableEq Module]

theorem extractFromNetwork_module (net : Network Module Nic) (selected : Module → Bool) :
    (extractFromNetwork net selected).map TopologyNode.module = net.modules.filter selected := by
  rw [extractFromNetwork, List.map_map]
  exact List.map_id _

/-- A node has the links that end at its module, each once. -/
theorem links_extractFromNetwork {n : TopologyNode Module} (e : End)
    (hn : n ∈ extractFromNetwork net selected) :
    selected n.module = true ∧ (n.links e).Nodup ∧
      ∀ l, l ∈ n.links e ↔ IsLink net selected l ∧ l.node e = n.module := by
  obtain ⟨m, hm, rfl⟩ := List.mem_map.mp hn
  have hm := (List.mem_filter.mp hm).2
  cases e with
  | source => exact ⟨hm, outLinks_nodup net selected m, fun l => mem_outLinks hm⟩
  | dest =>
    refine ⟨hm, List.Nodup.filter _ ?_, fun l => ?_⟩
    · rw [List.nodup_flatMap]
      refine ⟨fun m _ => outLinks_nodup net selected m, ?_⟩
      refine (net.modules_nodup.filter selected).imp_of_mem fun {a b} ha hb hab => ?_
      intro l hla hlb
      have ha := (mem_outLinks (List.mem_filter.mp ha).2).mp hla
      have hb := (mem_outLinks (List.mem_filter.mp hb).2).mp hlb
      exact hab (ha.2.symm.trans hb.2)
    · show l ∈ List.filter _ _ ↔ _
      rw [List.mem_filter, List.mem_flatMap, decide_eq_true_eq]
      refine and_congr_left fun _ => ⟨?_, fun h => ?_⟩
      · rintro ⟨s, hs, hl⟩
        exact ((mem_outLinks (List.mem_filter.mp hs).2).mp hl).1
      · exact ⟨l.srcNode, List.mem_filter.mpr ⟨net.mem_modules _, h.source⟩,
          (mem_outLinks h.source).mpr ⟨h, rfl⟩⟩

/-- Every link is stored at both of its ends. -/
theorem wellLinked_extractFromNetwork (net : Network Module Nic) (selected : Module → Bool) :
    WellLinked (extractFromNetwork net selected) where
  nodup := by
    rw [extractFromNetwork_module]
    exact net.modules_nodup.filter _
  own e n hn l hl := (((links_extractFromNetwork e hn).2.2 l).mp hl).2
  links_nodup e n hn := (links_extractFromNetwork e hn).2.1
  both e n hn l hl := by
    have hlink := (((links_extractFromNetwork e hn).2.2 l).mp hl).1
    have hend : selected (l.node e.other) = true := by
      cases e with
      | source => exact hlink.leads.selected_last
      | dest => exact hlink.source
    have hmem : l.node e.other ∈ (extractFromNetwork net selected).map TopologyNode.module := by
      rw [extractFromNetwork_module]
      exact List.mem_filter.mpr ⟨net.mem_modules _, hend⟩
    obtain ⟨n', hn', hmodule⟩ := List.mem_map.mp hmem
    exact ⟨n', hn', ((links_extractFromNetwork e.other hn').2.2 l).mpr ⟨hlink, hmodule.symm⟩⟩

end

/-! ## What the cut leaves -/

section

variable (net : Network Module Nic) (parent : Module)

/-- The sub-network of `parent` has this node. -/
structure Kept (m : Module) : Prop where
  child : net.tree.getParentModule m = some parent
  networkNode : net.networkNode m = true

variable [DecidableEq Module]

instance (m : Module) : Decidable (Kept net parent m) :=
  decidable_of_iff (net.tree.getParentModule m = some parent ∧ net.networkNode m = true)
    ⟨fun h => ⟨h.1, h.2⟩, fun h => ⟨h.child, h.networkNode⟩⟩

/-- The nodes of the sub-network of `parent`, in the order of their ids. -/
def kept : List Module := net.modules.filter (Kept net parent)

/-- The part of the network that lies between the children of `parent`. -/
def subnetwork : List (TopologyNode Module) :=
  restrict (net.tree.getParentModule · = some parent) (extractFromNetwork net net.networkNode)

variable {net parent}

theorem mem_kept {m : Module} : m ∈ kept net parent ↔ Kept net parent m := by
  rw [kept, List.mem_filter, decide_eq_true_eq]
  exact and_iff_right (net.mem_modules m)

variable (net parent)

omit [DecidableEq Module] in
/-- The pattern that is made of the path of `parent` selects its children. -/
theorem matches_children : ∃ pattern,
    PatternMatcher.setPattern (net.tree.getFullPath parent ++ ".*").toList true true true =
      .ok pattern ∧
    ∀ m, selectByModulePath net pattern m = true ↔ net.tree.getParentModule m = some parent := by
  have htext : (net.tree.getFullPath parent ++ ".*").toList =
      (net.tree.getFullPath parent ++ ".").toList ++ ['*'] := by
    simp [String.toList_append]
  have hdot : PatternMatcher.IsLiteral ".".toList :=
    ⟨⟨by decide, by decide, by decide, by decide, fun h => absurd h (by decide)⟩, trivial⟩
  have hliteral : PatternMatcher.IsLiteral (net.tree.getFullPath parent ++ ".").toList := by
    rw [String.toList_append]
    exact (net.tree.fullPath_isLiteral parent).append hdot
  refine ⟨_, htext ▸ PatternMatcher.setPattern_star hliteral (by simp [String.toList_append]) true,
    fun m => ?_⟩
  rw [selectByModulePath, PatternMatcher.matches_star, net.tree.child_iff_path]

theorem subnetwork_module : (subnetwork net parent).map TopologyNode.module = kept net parent := by
  rw [subnetwork, restrict_module, extractFromNetwork_module, kept, List.filter_filter]
  refine List.filter_congr fun m _ => ?_
  rw [Bool.eq_iff_iff, Bool.and_eq_true, decide_eq_true_eq, decide_eq_true_eq]
  exact ⟨fun h => ⟨h.1, h.2⟩, fun h => ⟨h.child, h.networkNode⟩⟩

variable {net parent}

/-- What the deletions leave of the whole network. -/
theorem cutTopology_eq {pattern : List PatternMatcher.Elem}
    (hpattern : ∀ m, selectByModulePath net pattern m = true ↔
      net.tree.getParentModule m = some parent) :
    cutTopology (extractFromNetwork net net.networkNode)
      (extractFromNetwork net (selectByModulePath net pattern)) = .ok (subnetwork net parent) := by
  have hwell := wellLinked_extractFromNetwork net net.networkNode
  rw [cutTopology, extractFromNetwork_module, extractFromNetwork_module,
    deleteNodes_eq hwell ((net.modules_nodup.filter _).filter _), subnetwork]
  · refine congrArg _ (hwell.restrict_congr fun n hn => ?_)
    have hnode := (links_extractFromNetwork .source hn).1
    rw [Bool.eq_iff_iff, decide_eq_true_eq, decide_eq_true_eq, ← hpattern]
    simp [hnode, net.mem_modules]
  · intro m hm
    rw [extractFromNetwork_module]
    exact List.mem_of_mem_filter hm

/-- A node of the sub-network has the links between it and the others. -/
theorem links_subnetwork {n : TopologyNode Module} (e : End) (hn : n ∈ subnetwork net parent) :
    Kept net parent n.module ∧ (n.links e).Nodup ∧
      ∀ l, l ∈ n.links e ↔ IsLink net net.networkNode l ∧ l.node e = n.module ∧
        Kept net parent (l.node e.other) := by
  obtain ⟨x, hx, hchild, rfl⟩ := mem_restrict.mp hn
  obtain ⟨hnode, hnodup, hmem⟩ := links_extractFromNetwork e hx
  rw [restrictNode_links]
  refine ⟨⟨of_decide_eq_true hchild, hnode⟩, hnodup.filter _, fun l => ?_⟩
  rw [List.mem_filter, hmem l, and_assoc, decide_eq_true_eq]
  refine and_congr_right fun hlink => and_congr_right fun _ => ⟨fun h => ⟨h, ?_⟩, Kept.child⟩
  cases e with
  | source => exact hlink.leads.selected_last
  | dest => exact hlink.source

theorem mem_subnetwork {m : Module} (h : Kept net parent m) :
    ∃ n ∈ subnetwork net parent, n.module = m := by
  have hm := mem_kept.mpr h
  rw [← subnetwork_module] at hm
  exact List.mem_map.mp hm

variable (net parent) in
theorem wellLinked_subnetwork : WellLinked (subnetwork net parent) :=
  (wellLinked_extractFromNetwork net net.networkNode).restrict _

/-! ## What the search leaves -/

/-- An interface of `a` leads to `b`, within the sub-network. -/
structure InterfaceLeads (net : Network Module Nic) (parent a b : Module) (nic : Nic)
    (l : TopologyLink Module) : Prop where
  link : IsLink net net.networkNode l
  source : l.srcNode = a
  gate : l.srcGateId = net.nodeOutputGateId nic
  dest : l.destNode = b
  source_kept : Kept net parent a
  dest_kept : Kept net parent b

theorem neighbor_eq_some {a b : Module} {nic : Nic} :
    neighbor net (subnetwork net parent) a nic = some b ↔
      ∃ l, InterfaceLeads net parent a b nic l := by
  simp only [neighbor, findLinkOut, Option.map_eq_some_iff, Option.bind_eq_bind,
    Option.bind_eq_some_iff]
  constructor
  · rintro ⟨l, ⟨n, hn, hl⟩, rfl⟩
    have hmodule : n.module = a := by simpa using List.find?_some hn
    have hgate : l.srcGateId = net.nodeOutputGateId nic := by simpa using List.find?_some hl
    obtain ⟨hkept, -, hmem⟩ := links_subnetwork .source (List.mem_of_find?_eq_some hn)
    obtain ⟨hlink, hsource, hdest⟩ := (hmem l).mp (List.mem_of_find?_eq_some hl)
    rw [hmodule] at hkept hsource
    exact ⟨l, hlink, hsource, hgate, rfl, hkept, hdest⟩
  · rintro ⟨l, hlink, rfl, hgate, rfl, hsource, hdest⟩
    obtain ⟨n, hn, hmodule⟩ := mem_subnetwork hsource
    obtain ⟨-, hnodup, hmem⟩ := links_subnetwork .source hn
    have hl : l ∈ n.outLinks := (hmem l).mpr ⟨hlink, hmodule.symm, hdest⟩
    have hfind : n.outLinks.find? (fun l => l.srcGateId = net.nodeOutputGateId nic) = some l := by
      obtain ⟨l', hl'⟩ : ∃ l', n.outLinks.find? (fun l => l.srcGateId = net.nodeOutputGateId nic) =
          some l' := by
        rw [← Option.isSome_iff_exists, List.find?_isSome]
        exact ⟨l, hl, by simpa using hgate⟩
      -- no other link leaves through this gate
      have hother := (hmem l').mp (List.mem_of_find?_eq_some hl')
      have hgate' : l'.srcGateId = net.nodeOutputGateId nic := by simpa using List.find?_some hl'
      rw [hl', hother.1.ext_source hlink (hother.2.1.trans hmodule) (hgate'.trans hgate.symm)]
    rw [← hmodule]
    exact ⟨l, ⟨n, find?_of_nodup (wellLinked_subnetwork net parent).nodup hn, hfind⟩, rfl⟩

/-- One step of the search. -/
def Leads (net : Network Module Nic) (parent a b : Module) : Prop :=
  ∃ nic ∈ ports net a, ∃ l, InterfaceLeads net parent a b nic l

theorem hop_eq :
    Traversal.Hop (ports net) (neighbor net (subnetwork net parent)) = Leads net parent := by
  funext a b
  refine propext (exists_congr fun nic => and_congr_right fun _ => ?_)
  exact neighbor_eq_some

omit [DecidableEq Module] in
theorem kept_of_reachable {root m : Module} (hroot : Kept net parent root)
    (h : Relation.ReflTransGen (Leads net parent) root m) : Kept net parent m := by
  cases h with
  | refl => exact hroot
  | tail _ hlast =>
    obtain ⟨nic, -, l, hl⟩ := hlast
    exact hl.dest_kept

variable [DecidableEq Nic]

/-- What the search gives to each node. -/
theorem collectInterfaces_spec {root : Module} (hroot : Kept net parent root) :
    (collectInterfaces net (subnetwork net parent) root).unvisited = [] ∧ ∀ m,
      (Relation.ReflTransGen (Leads net parent) root m →
        (collectInterfaces net (subnetwork net parent) root).interfaces m = ports net m) ∧
      (¬ Relation.ReflTransGen (Leads net parent) root m →
        (collectInterfaces net (subnetwork net parent) root).interfaces m = []) := by
  have hnodup := (wellLinked_subnetwork net parent).nodup
  have hclosed : ∀ m,
      Traversal.Reachable (ports net) (neighbor net (subnetwork net parent)) root m →
      m ∈ (subnetwork net parent).map TopologyNode.module := by
    intro m hm
    rw [Traversal.Reachable, hop_eq] at hm
    rw [subnetwork_module]
    exact mem_kept.mpr (kept_of_reachable hroot hm)
  have hseparate : Traversal.Separate (ports net) := net.interfaces_separate
  have hrun := Traversal.run_start hnodup hseparate hclosed
  simp only [Traversal.Reachable, hop_eq] at hrun
  exact hrun

variable (net parent)

/-- What the cut and the search leave. -/
theorem extractTopology_eq :
    extractTopology net parent =
      match subnetwork net parent with
      | [] => .error (.runtimeError "Empty network!")
      | root :: _ => .ok (collectInterfaces net (subnetwork net parent) root.module) := by
  obtain ⟨pattern, hpattern, hsel⟩ := matches_children net parent
  have hbind : ∀ {α β : Type} (a : α) (f : α → Except SimError β), (Except.ok a >>= f) = f a :=
    fun _ _ => rfl
  rw [extractTopology, hpattern, hbind]
  simp only [cutTopology_eq hsel, hbind]
  cases subnetwork net parent <;> rfl

theorem extractTopology_nil (h : kept net parent = []) :
    extractTopology net parent = .error (.runtimeError "Empty network!") := by
  rw [← subnetwork_module, List.map_eq_nil_iff] at h
  rw [extractTopology_eq, h]

theorem extractTopology_cons {root : Module} {rest : List Module}
    (h : kept net parent = root :: rest) :
    extractTopology net parent = .ok (collectInterfaces net (subnetwork net parent) root) := by
  rw [← subnetwork_module, List.map_eq_cons_iff] at h
  obtain ⟨n, nodes, hnodes, rfl, -⟩ := h
  rw [extractTopology_eq, hnodes]

end

/-! ## When the extraction is exact -/

section

variable [DecidableEq Module] [DecidableEq Nic] (net : Network Module Nic) (parent : Module)

/-- The result is the sub-network of `parent`. -/
structure Exact (t : Extracted Module Nic) : Prop where
  /-- the search has ended -/
  terminates : t.unvisited = []
  nodes_nodup : (t.nodes.map TopologyNode.module).Nodup
  nodes : ∀ m, m ∈ t.nodes.map TopologyNode.module ↔ Kept net parent m
  /-- the links between the nodes are those of the network, each once -/
  links : ∀ n ∈ t.nodes, ∀ e, (n.links e).Nodup ∧ ∀ l, l ∈ n.links e ↔
    IsLink net net.networkNode l ∧ l.node e = n.module ∧ Kept net parent (l.node e.other)
  annotated : t.links.map AnnotatedLink.link = t.nodes.flatMap TopologyNode.outLinks
  interfaces : ∀ m table, Kept net parent m → net.interfaceTable m = some table →
    (t.interfaces m).Perm table
  ends : ∀ a ∈ t.links, net.interfaceTable a.link.srcNode ≠ none →
    net.interfaceTable a.link.destNode ≠ none →
    a.sourceInterface ≠ none ∧ a.destinationInterface ≠ none

/-- The function ends and gives the sub-network of `parent`, or says that it is empty. -/
def ExtractsExactly : Prop :=
  match extractTopology net parent with
  | .ok t => Exact net parent t
  | .error e => e = .runtimeError "Empty network!" ∧ ∀ m, ¬ Kept net parent m

/-- An interface of a table has this gate. -/
def HasGate (gateId : Nic → Int) (table : Option (List Nic)) (gate : Int) : Prop :=
  ∃ nic ∈ table.getD [], gateId nic = gate

/-- What the search relies on. -/
structure Collectable (root : Module) : Prop where
  /-- the search gets from the first node to every node with an interface -/
  reachable : ∀ m, Kept net parent m → ports net m ≠ [] →
    Relation.ReflTransGen (Leads net parent) root m
  /-- the gates of a link belong to interfaces -/
  gates : ∀ l, IsLink net net.networkNode l → Kept net parent l.srcNode →
    Kept net parent l.destNode → net.interfaceTable l.srcNode ≠ none →
    net.interfaceTable l.destNode ≠ none →
    HasGate net.nodeOutputGateId (net.interfaceTable l.srcNode) l.srcGateId ∧
      HasGate net.nodeInputGateId (net.interfaceTable l.destNode) l.destGateId

variable {net parent}

/-- An end is annotated if all interfaces of its table were collected and one has its gate. -/
theorem end_ne_none {gateId : Nic → Int} {table : Option (List Nic)} {gate : Int}
    {interfaces : List Nic} (hperm : ∀ nics, table = some nics → interfaces.Perm nics) :
    (table.bind fun nics => findInterface interfaces (nics.find? fun nic => gateId nic = gate)) ≠
      none ↔ HasGate gateId table gate := by
  cases table with
  | none => simp [HasGate]
  | some nics =>
    rw [HasGate, Option.getD_some, Option.bind_some, findInterface]
    cases hfind : nics.find? fun nic => gateId nic = gate with
    | none =>
      rw [List.find?_eq_none] at hfind
      simpa using hfind
    | some nic =>
      have hnic := List.mem_of_find?_eq_some hfind
      have hgate : gateId nic = gate := by simpa using List.find?_some hfind
      have hfound : (interfaces.find? (· = nic)).isSome = true := by
        rw [List.find?_isSome]
        exact ⟨nic, (hperm nics rfl).mem_iff.mpr hnic, by simp⟩
      exact ⟨fun _ => ⟨nic, hnic, hgate⟩, fun _ => Option.isSome_iff_ne_none.mp hfound⟩

/-- The links of the result are those between the nodes that are kept. -/
theorem mem_links {root : Module} {a : AnnotatedLink Module Nic} :
    a ∈ (collectInterfaces net (subnetwork net parent) root).links ↔
      ∃ l, IsLink net net.networkNode l ∧ Kept net parent l.srcNode ∧ Kept net parent l.destNode ∧
        annotate net (collectInterfaces net (subnetwork net parent) root).interfaces l = a := by
  rw [collectInterfaces, List.mem_flatMap]
  constructor
  · rintro ⟨n, hn, ha⟩
    obtain ⟨l, hl, rfl⟩ := List.mem_map.mp ha
    obtain ⟨hkept, -, hmem⟩ := links_subnetwork .source hn
    obtain ⟨hlink, hsource, hdest⟩ := (hmem l).mp hl
    exact ⟨l, hlink, by rwa [← hsource] at hkept, hdest, rfl⟩
  · rintro ⟨l, hlink, hsource, hdest, rfl⟩
    obtain ⟨n, hn, hmodule⟩ := mem_subnetwork hsource
    obtain ⟨-, -, hmem⟩ := links_subnetwork .source hn
    exact ⟨n, hn, List.mem_map_of_mem ((hmem l).mpr ⟨hlink, hmodule.symm, hdest⟩)⟩

/-- Every node has got its interfaces if the search gets to all of them. -/
theorem interfaces_perm_iff {root m : Module} (hroot : Kept net parent root) :
    (∀ nics, net.interfaceTable m = some nics →
      ((collectInterfaces net (subnetwork net parent) root).interfaces m).Perm nics) ↔
    (ports net m ≠ [] → Relation.ReflTransGen (Leads net parent) root m) := by
  obtain ⟨hreached, hmissed⟩ := (collectInterfaces_spec hroot).2 m
  by_cases hreach : Relation.ReflTransGen (Leads net parent) root m
  · rw [hreached hreach, ports]
    refine iff_of_true (fun nics htable => ?_) fun _ => hreach
    rw [htable, Option.getD_some]
  · rw [hmissed hreach, ports]
    cases htable : net.interfaceTable m with
    | none => simp
    | some nics => simp [hreach]

theorem exact_iff_collectable {root : Module} {rest : List Module}
    (hkept : kept net parent = root :: rest) :
    Exact net parent (collectInterfaces net (subnetwork net parent) root) ↔
      Collectable net parent root := by
  have hroot : Kept net parent root := mem_kept.mp (by rw [hkept]; exact List.mem_cons_self)
  have hterm := (collectInterfaces_spec hroot).1
  constructor
  · intro h
    refine ⟨fun m hm => (interfaces_perm_iff hroot).mp fun nics => h.interfaces m nics hm, ?_⟩
    intro l hlink hsource hdest hsourceTable hdestTable
    have hends := h.ends _ (mem_links.mpr ⟨l, hlink, hsource, hdest, rfl⟩) hsourceTable hdestTable
    exact ⟨(end_ne_none fun nics => h.interfaces _ nics hsource).mp hends.1,
      (end_ne_none fun nics => h.interfaces _ nics hdest).mp hends.2⟩
  · intro h
    -- all nodes are reached, so what is collected for each are its own interfaces
    have hperm : ∀ m nics, Kept net parent m → net.interfaceTable m = some nics →
        ((collectInterfaces net (subnetwork net parent) root).interfaces m).Perm nics :=
      fun m nics hm => (interfaces_perm_iff hroot).mpr (h.reachable m hm) nics
    refine ⟨hterm, (wellLinked_subnetwork net parent).nodup, ?_, ?_, ?_, hperm, ?_⟩
    · intro m
      rw [← mem_kept, ← subnetwork_module]
      rfl
    · intro n hn e
      exact (links_subnetwork e hn).2
    · rw [collectInterfaces, List.map_flatMap]
      refine List.flatMap_congr fun n _ => ?_
      rw [List.map_map]
      exact List.map_id _
    · intro a ha hsourceTable hdestTable
      obtain ⟨l, hlink, hsource, hdest, rfl⟩ := mem_links.mp ha
      obtain ⟨hsourceGate, hdestGate⟩ :=
        h.gates l hlink hsource hdest hsourceTable hdestTable
      exact ⟨(end_ne_none fun nics => hperm _ nics hsource).mpr hsourceGate,
        (end_ne_none fun nics => hperm _ nics hdest).mpr hdestGate⟩

/-- **The extraction gives the sub-network of the parent if and only if the search gets from its
first node to all its interfaces, and these have the gates of its links.** -/
theorem extraction_exact_iff :
    ExtractsExactly net parent ↔
      ∀ root ∈ (kept net parent).head?, Collectable net parent root := by
  rw [ExtractsExactly]
  cases hkept : kept net parent with
  | nil =>
    rw [extractTopology_nil net parent hkept]
    have hnone : ∀ m, ¬ Kept net parent m := by
      intro m hm
      rw [← mem_kept, hkept] at hm
      cases hm
    exact iff_of_true ⟨rfl, hnone⟩ (by simp)
  | cons root rest =>
    rw [extractTopology_cons net parent hkept]
    simpa using exact_iff_collectable hkept

end

/-! ## Two devices without a wire -/

/-- The devices of a car have a network interface each, which is connected to nothing. -/
def unwiredDevices : Network (Fin 14) Nat where
  tree := carNetwork.tree
  modules := List.finRange 14
  networkNode m := m = 4 ∨ m = 5
  outputGates _ := [0]
  nextGate _ := none
  connections _ := 0
  interfaceTable m := if m = 4 then some [12] else if m = 5 then some [13] else none
  nodeOutputGateId _ := 0
  nodeInputGateId _ := 1
  modules_nodup := List.nodup_finRange 14
  mem_modules := List.mem_finRange
  outputGates_nodup _ := List.nodup_singleton 0
  connections_lt h := by cases h
  interfaces_separate := by
    refine ⟨by decide, fun {n m p} hn hm => ?_⟩
    split_ifs at hn hm <;> simp_all

/-- The second device of the car is left without its interface. -/
theorem unwired_device_without_interface :
    (extractTopology unwiredDevices 1).toOption.map (fun t => (t.interfaces 4, t.interfaces 5)) =
      some ([12], []) ∧
    ¬ ExtractsExactly unwiredDevices 1 := by
  have hkept : kept unwiredDevices 1 = [4, 5] := by decide +kernel
  rw [ExtractsExactly, extractTopology_cons unwiredDevices 1 hkept]
  refine ⟨by decide +kernel, fun h => ?_⟩
  have hdevice : Kept unwiredDevices 1 5 := by decide +kernel
  have hperm := h.interfaces 5 [13] hdevice rfl
  have hnone :
      (collectInterfaces unwiredDevices (subnetwork unwiredDevices 1) 4).interfaces 5 = [] := by
    decide +kernel
  rw [hnone] at hperm
  exact absurd hperm.length_eq (by decide)

end Extraction

end CooperativeTsn
