import CooperativeTsn.Flow.Input
import CooperativeTsn.Flow.PatternSyntax
import CooperativeTsn.Net.Extraction

/-!
# The flows of a configuration

`addFlows` makes a flow for every pair of nodes whose paths the patterns of an entry match, anywhere
in the path and whatever the case. Where an entry names no path, the shortest one is written as node
names and read back.

* `flowsOfPairs_ends`, `addFlows_ends` — the pairs of an entry, and of a configuration
* `readPath_fullNames`, `addFlows_paths` — the paths of the flows
-/

namespace CooperativeTsn

open Infra.Runs PatternMatcher

variable {Module : Type} {tree : ModuleTree Module} {ops : ValueOps} {topology : Topology Module}

namespace PatternMatcher

instance (casesensitive : Bool) (pattern : List Elem) (line : List Char) :
    Decidable (Finds casesensitive pattern line) :=
  decidable_of_iff («matches» casesensitive (widen pattern) line = true)
    (matches_widen pattern line)

end PatternMatcher

/-! ## One entry -/

/-- The device that a flow starts at, and the one that it ends at. -/
def Flow.ends (flow : Flow Module) : Module × Module :=
  (flow.startApplication.device, flow.endDevice)

/-- The patterns of an entry. -/
structure EntryPatterns (entry : ValueMap) (source destination : List Elem) : Prop where
  source : ∃ text, entry.getString "source" = .ok text ∧
    setPattern text.toList true true false = .ok source
  destination : ∃ text, entry.getString "destination" = .ok text ∧
    setPattern text.toList true true false = .ok destination

/-- The pairs of nodes whose paths are matched, in the order of the two loops. -/
def selectedPairs (tree : ModuleTree Module) (topology : Topology Module)
    (source destination : List Elem) : List (Node Module × Node Module) :=
  (nodePairs topology).filter fun r =>
    Finds false source (tree.getFullPath r.1.module).toList ∧
      Finds false destination (tree.getFullPath r.2.module).toList

/-- A pair is matched if both patterns are found in the paths. -/
theorem matchesPair_eq {entry : ValueMap} {source destination : List Elem}
    (h : EntryPatterns entry source destination) (a b : Node Module) :
    matchesPair tree entry a b =
      .ok (decide (Finds false source (tree.getFullPath a.module).toList ∧
        Finds false destination (tree.getFullPath b.module).toList)) := by
  obtain ⟨text, htext, hsource⟩ := h.source
  obtain ⟨text', htext', hdestination⟩ := h.destination
  have hwide := setPattern_substring.mpr ⟨source, hsource, rfl⟩
  have hwide' := setPattern_substring.mpr ⟨destination, hdestination, rfl⟩
  simp only [matchesPair, htext, htext', bind, Except.bind, hwide, hwide']
  show Except.ok (_ && _) = _
  congr 1
  rw [Bool.eq_iff_iff, Bool.and_eq_true, decide_eq_true_eq, matches_widen, matches_widen]

/-- An entry whose pairs are looked at has two patterns. -/
theorem exists_entryPatterns {entry : ValueMap} {a b : Node Module} {matched : Bool}
    (h : matchesPair tree entry a b = .ok matched) :
    ∃ source destination, EntryPatterns entry source destination := by
  simp only [matchesPair, bind_eq_ok] at h
  obtain ⟨text, htext, pattern, hpattern, text', htext', pattern', hpattern', -⟩ := h
  obtain ⟨source, hsource, -⟩ := setPattern_substring.mp hpattern
  obtain ⟨destination, hdestination, -⟩ := setPattern_substring.mp hpattern'
  exact ⟨source, destination, ⟨text, htext, hsource⟩, ⟨text', htext', hdestination⟩⟩

variable [DecidableEq Module]

/-- A flow is between the nodes that it is made for. -/
theorem makeFlow_ends {entry : ValueMap} {a b : Node Module} {flow : Flow Module} {n n' : Nat}
    (h : makeFlow tree ops topology entry a b n = .ok (flow, n')) :
    flow.ends = (a.module, b.module) := by
  simp only [makeFlow, bind_eq_ok, pure_eq_ok, Prod.mk.injEq] at h
  obtain ⟨_, -, _, -, _, -, _, -, _, -, _, -, _, -, start, hstart, finish, hfinish, _, -, _, -,
    _, -, _, -, _, -, rfl, -⟩ := h
  have hfrom := (Topology.getDevice_eq_ok.mp hstart).2
  have hto := (Topology.getDevice_eq_ok.mp hfinish).2
  rw [Flow.ends, hfrom, hto]

theorem makeFlows_ends {entry : ValueMap} {pairs : List (Node Module × Node Module)} {n n' : Nat}
    {flows : List (Flow Module)} (h : makeFlows tree ops topology entry pairs n = .ok (flows, n')) :
    flows.map Flow.ends = pairs.map fun r => (r.1.module, r.2.module) := by
  induction pairs generalizing n n' flows with
  | nil =>
    cases h
    rfl
  | cons r pairs ih =>
    simp only [makeFlows, bind_eq_ok, pure_eq_ok, Prod.mk.injEq] at h
    obtain ⟨⟨flow, m⟩, hflow, ⟨rest, m'⟩, hrest, rfl, -⟩ := h
    rw [List.map_cons, List.map_cons, makeFlow_ends hflow, ih hrest]

/-- **The flows of an entry** are between the pairs of nodes whose paths its patterns match, one for
each pair. -/
theorem flowsOfPairs_ends {entry : ValueMap} (hnodes : topology.nodes ≠ []) {n n' : Nat}
    {flows : List (Flow Module)}
    (h : flowsOfPairs tree ops topology entry (nodePairs topology) n = .ok (flows, n')) :
    ∃ source destination, EntryPatterns entry source destination ∧
      flows.map Flow.ends =
        (selectedPairs tree topology source destination).map fun r => (r.1.module, r.2.module) := by
  obtain ⟨a, ha⟩ := List.exists_mem_of_ne_nil _ hnodes
  obtain ⟨source, destination, hpatterns⟩ :
      ∃ source destination, EntryPatterns entry source destination := by
    have hpair : (a, a) ∈ nodePairs topology := mem_nodePairs.mpr ⟨ha, ha⟩
    obtain ⟨r, pairs, hpairs⟩ := List.exists_cons_of_ne_nil (List.ne_nil_of_mem hpair)
    rw [hpairs] at h
    simp only [flowsOfPairs, bind_eq_ok] at h
    obtain ⟨matched, hmatch, -⟩ := h
    exact exists_entryPatterns hmatch
  refine ⟨source, destination, hpatterns, ?_⟩
  rw [flowsOfPairs_eq fun r _ => matchesPair_eq hpatterns r.1 r.2] at h
  exact makeFlows_ends h

/-! ## The configuration -/

/-- The pairs that an entry of a configuration selects. -/
def Selects (tree : ModuleTree Module) (topology : Topology Module) (value : Value)
    (ends : List (Module × Module)) : Prop :=
  ∃ entry source destination, value = .map entry ∧ EntryPatterns entry source destination ∧
    ends = (selectedPairs tree topology source destination).map fun r => (r.1.module, r.2.module)

/-- **The flows of a configuration**: each entry makes one flow for each pair of nodes that its
patterns match, and there are no other flows. -/
theorem addFlows_ends {order : PcpSort Module} {configuration : List Value}
    {flows : List (Flow Module)} (hnodes : topology.nodes ≠ [])
    (h : addFlows tree ops topology order configuration = .ok flows) :
    ∃ selections, List.Forall₂ (Selects tree topology) configuration selections ∧
      (flows.map Flow.ends).Perm selections.flatten := by
  obtain ⟨perEntry, hcollect, rfl⟩ := addFlows_perm.mp h
  refine ⟨perEntry.map (List.map Flow.ends), ?_, ?_⟩
  · rw [List.forall₂_map_right_iff]
    refine (collectFlows_forall₂ hcollect).imp fun value flows hflows => ?_
    obtain ⟨entry, m, m', rfl, hflows⟩ := hflows
    obtain ⟨source, destination, hpatterns, hends⟩ := flowsOfPairs_ends hnodes hflows
    exact ⟨entry, source, destination, rfl, hpatterns, hends⟩
  · rw [← List.map_flatten]
    exact (order.sort_perm _).map Flow.ends

/-! ## The paths -/

omit [DecidableEq Module] in
/-- A name without a dot names no interface. -/
theorem splitNodeName_fullName (m : Module) :
    splitNodeName (tree.getFullName m) = (tree.getFullName m, "") := by
  have hdot : ∀ c ∈ (tree.getFullName m).toList, decide (c ≠ '.') = true := by
    intro c hc
    rw [decide_eq_true_eq]
    rintro rfl
    exact tree.fullName_dot m hc
  unfold splitNodeName
  rw [List.takeWhile_eq_self_iff.mpr hdot, List.dropWhile_eq_nil_iff.mpr hdot, String.ofList_toList]
  rfl

/-- The nodes are the children of one module. -/
def Siblings (tree : ModuleTree Module) (topology : Topology Module) : Prop :=
  ∃ p, ∀ node ∈ topology.nodes, tree.getParentModule node.module = some p

omit [DecidableEq Module] in
theorem Topology.mem_networkNodes {node : Node Module} :
    node ∈ topology.networkNodes ↔ node ∈ topology.nodes := by
  rw [networkNodes, List.mem_append, devices, switches, List.mem_filter, List.mem_filter,
    ← and_or_left]
  refine and_iff_left ?_
  cases isBridgeNode node
  · exact Or.inl rfl
  · exact Or.inr rfl

omit [DecidableEq Module] in
/-- The name of a node leads back to it. -/
theorem find_fullName (hsiblings : Siblings tree topology) {m : Module}
    (hm : m ∈ topology.nodes.map Node.module) :
    ∃ node, topology.networkNodes.find? (fun node => tree.getFullName node.module =
      tree.getFullName m) = some node ∧ node.module = m := by
  obtain ⟨p, hp⟩ := hsiblings
  obtain ⟨node, hnode, rfl⟩ := List.mem_map.mp hm
  obtain ⟨node', hfind⟩ : ∃ node', topology.networkNodes.find? (fun node' =>
      tree.getFullName node'.module = tree.getFullName node.module) = some node' := by
    rw [← Option.isSome_iff_exists, List.find?_isSome]
    exact ⟨node, Topology.mem_networkNodes.mpr hnode, by simp⟩
  have hmem := Topology.mem_networkNodes.mp (List.mem_of_find?_eq_some hfind)
  have hname : tree.getFullName node'.module = tree.getFullName node.module := by
    simpa using List.find?_some hfind
  exact ⟨node', hfind, tree.child_ext (hp node' hmem) (hp node hnode) hname⟩

omit [DecidableEq Module] in
/-- **A path that is written as names is read back.** -/
theorem readPath_fullNames (hsiblings : Siblings tree topology) {path : List Module}
    {fragment : PathFragment Module} (hpath : ∀ m ∈ path, m ∈ topology.nodes.map Node.module)
    (h : readPath tree topology (path.map fun m => .string (tree.getFullName m)) = .ok fragment) :
    fragment.networkNodes = path := by
  induction path generalizing fragment with
  | nil =>
    cases h
    rfl
  | cons m path ih =>
    obtain ⟨node, hfind, hnode⟩ := find_fullName hsiblings (hpath m List.mem_cons_self)
    rw [List.map_cons] at h
    simp only [readPath, bind_eq_ok, Value.stringValue_eq_ok] at h
    obtain ⟨text, htext, h⟩ := h
    cases htext
    rw [splitNodeName_fullName] at h
    dsimp only at h
    rw [hfind] at h
    cases path with
    | nil =>
      rw [List.map_nil, pure_eq_ok] at h
      rw [← h, hnode]
    | cons next path =>
      rw [List.map_cons] at h
      simp only [bind_eq_ok, pure_eq_ok] at h
      obtain ⟨_, -, port, -, rest, hrest, rfl⟩ := h
      rw [← List.map_cons (f := fun m => Value.string (tree.getFullName m))] at hrest
      show node.module :: rest.networkNodes = _
      rw [hnode, ih (fun m' hm' => hpath m' (List.mem_cons_of_mem _ hm')) hrest]

omit [DecidableEq Module] in
/-- A list of flows belongs to an entry. -/
theorem exists_entry_of_mem {R : Value → List (Flow Module) → Prop} {values : List Value}
    {perEntry : List (List (Flow Module))} (h : List.Forall₂ R values perEntry)
    {flows : List (Flow Module)} (hflows : flows ∈ perEntry) : ∃ value ∈ values, R value flows := by
  induction h with
  | nil => cases hflows
  | cons hfirst _ ih =>
    rcases List.mem_cons.mp hflows with rfl | hflows
    · exact ⟨_, List.mem_cons_self, hfirst⟩
    · obtain ⟨value, hvalue, hr⟩ := ih hflows
      exact ⟨value, List.mem_cons_of_mem _ hvalue, hr⟩

open NodeGraph in
/-- A walk leads over nodes. -/
theorem destNode_mem_of_walk {nodes : List (TopologyNode Module)}
    (h : WellLinked nodes) (attributes : Attributes Module Nat) {destination source : Module}
    {ls : List (TopologyLink Module)}
    (hwalk : Infra.ShortestPath.Walk (hopGraph h attributes) destination source ls) :
    ∀ l ∈ ls, l.destNode ∈ nodes.map TopologyNode.module := by
  induction hwalk with
  | nil =>
    intro l hl
    cases hl
  | cons hfirst _ ih =>
    intro l hl
    rcases List.mem_cons.mp hl with rfl | hl
    · have hat := List.mem_of_mem_filter hfirst
      obtain ⟨n, hn, hmodule, -⟩ := exists_of_mem_linksAt hat
      exact List.mem_map.mpr ⟨n, hn, hmodule.trans (linksAt_node h hat).symm⟩
    · exact ih l hl

/-- The links are stored at both of their ends, and there is a node of the graph for each node. -/
structure Linked (topology : Topology Module) : Prop where
  wellLinked : NodeGraph.WellLinked topology.graph
  modules : topology.graph.map NodeGraph.TopologyNode.module = topology.nodes.map Node.module

open NodeGraph in
/-- The path that the search finds is a shortest one over the nodes. -/
theorem Linked.computeShortestNodePath_ok (hlinked : Linked topology) {a b : Module}
    (ha : a ∈ topology.nodes.map Node.module) (hb : b ∈ topology.nodes.map Node.module)
    {path : List Module} (h : topology.computeShortestNodePath a b = .ok path) :
    (∀ m ∈ path, m ∈ topology.nodes.map Node.module) ∧ ∃ ls,
      IsShortestPath (hopGraph hlinked.wellLinked topology.attributes) a b ls ∧
      path = a :: ls.map TopologyLink.destNode := by
  rw [← hlinked.modules] at hb
  by_cases hwalk : ∃ ls, Infra.ShortestPath.Walk
      (hopGraph hlinked.wellLinked topology.attributes) b a ls
  · obtain ⟨ls', hls'⟩ := hwalk
    obtain ⟨ls, -, hpath, hshortest, -⟩ :=
      computeShortestPath_of_walk hlinked.wellLinked topology.attributes hb hls'
    rw [Topology.computeShortestNodePath, hpath, Option.getD_some, Except.ok.injEq] at h
    subst h
    refine ⟨fun m hm => ?_, ls, hshortest, rfl⟩
    rcases List.mem_cons.mp hm with rfl | hm
    · exact ha
    · obtain ⟨l, hl, rfl⟩ := List.mem_map.mp hm
      rw [← hlinked.modules]
      exact destNode_mem_of_walk _ _ hshortest.walk l hl
  · have hnone := (computeShortestPath_of_no_walk hlinked.wellLinked topology.attributes hb
      (not_exists.mp hwalk)).2
    rw [Topology.computeShortestNodePath, hnone, Option.getD_some] at h
    cases h

/-- **A flow whose entry names no path takes a shortest one.** -/
theorem addFlows_paths {order : PcpSort Module} {configuration : List Value}
    {flows : List (Flow Module)} (hsiblings : Siblings tree topology) (hlinked : Linked topology)
    (hkeys : ∀ entry : ValueMap, .map entry ∈ configuration →
      entry.containsKey "pathFragments" = false)
    (h : addFlows tree ops topology order configuration = .ok flows) :
    ∀ flow ∈ flows, ∃ ls, NodeGraph.IsShortestPath
        (NodeGraph.hopGraph hlinked.wellLinked topology.attributes) flow.ends.1 flow.ends.2 ls ∧
      flow.pathFragments.map PathFragment.networkNodes =
        [flow.ends.1 :: ls.map NodeGraph.TopologyLink.destNode] := by
  obtain ⟨perEntry, hcollect, rfl⟩ := addFlows_perm.mp h
  intro flow hflow
  obtain ⟨entryFlows, hentry, hflow⟩ :=
    List.mem_flatten.mp ((order.sort_perm _).mem_iff.mp hflow)
  obtain ⟨value, hvalue, entry, m, m', rfl, hflows⟩ :=
    exists_entry_of_mem (collectFlows_forall₂ hcollect) hentry
  obtain ⟨a, b, k, k', hpair, -, hmade⟩ := exists_makeFlow_of_mem hflows hflow
  obtain ⟨fragments, hfragments, hpaths⟩ := makeFlow_paths hmade
  obtain ⟨ha, hb⟩ := mem_nodePairs.mp hpair
  -- the only fragment is the list of names of the shortest path
  rw [flowFragments, hkeys entry hvalue, if_neg Bool.false_ne_true, shortestFragment] at hfragments
  simp only [bind_eq_ok, pure_eq_ok] at hfragments
  obtain ⟨path, hpath, rfl⟩ := hfragments
  simp only [readPaths, bind_eq_ok, Value.arrayValue_eq_ok, pure_eq_ok] at hpaths
  obtain ⟨_, hvalues, fragment, hread, _, hnil, hpaths⟩ := hpaths
  cases hvalues
  subst hnil
  obtain ⟨hnodes, ls, hshortest, rfl⟩ := hlinked.computeShortestNodePath_ok
    (List.mem_map_of_mem ha) (List.mem_map_of_mem hb) hpath
  rw [makeFlow_ends hmade]
  refine ⟨ls, hshortest, ?_⟩
  rw [← hpaths, List.map_singleton, readPath_fullNames hsiblings hnodes hread]

/-! ## The devices of a car -/

/-- The entry from the network card to all devices. -/
def starLine : ValueMap :=
  [("source", .string "tsnNic"), ("destination", .string "TSNDEVICE[*]"), ("pcp", .int 4 ""),
    ("gateIndex", .int 4 ""), ("packetLength", .int 100 "B"), ("packetInterval", .int 10 "ms"),
    ("application", .string "app[0]")]

theorem exists_starFlows : ∃ flows,
    addFlows carNetwork.tree basicOps carTopology stableSort [.map starLine] = .ok flows ∧
      (flows.map Flow.ends).Perm [(2, 4), (2, 5)] := by
  obtain ⟨perEntry, hcollect, hends⟩ : ∃ perEntry, collectFlows carNetwork.tree basicOps carTopology
      [.map starLine] 0 = .ok perEntry ∧
        decide (perEntry.flatten.map Flow.ends = [(2, 4), (2, 5)]) = true :=
    exists_of_any (by decide +kernel)
  refine ⟨_, addFlows_perm.mpr ⟨perEntry, hcollect, rfl⟩, ?_⟩
  rw [← of_decide_eq_true hends]
  exact (stableSort.sort_perm _).map Flow.ends

theorem addFlows_ends_star : ∃ flows,
    addFlows carNetwork.tree basicOps carTopology stableSort [.map starLine] = .ok flows ∧
      (flows.map Flow.ends).Perm [(2, 4), (2, 5)] ∧
      ∃ selections, List.Forall₂ (Selects carNetwork.tree carTopology) [.map starLine] selections ∧
        (flows.map Flow.ends).Perm selections.flatten := by
  obtain ⟨flows, hflows, hends⟩ := exists_starFlows
  exact ⟨flows, hflows, hends, addFlows_ends (List.cons_ne_nil _ _) hflows⟩

theorem carTopology_linked : Linked carTopology where
  wellLinked := NodeGraph.wellLinked_ofLinks (by decide) (by decide) (by decide)
  modules := rfl

theorem addFlows_paths_star : ∃ flows,
    addFlows carNetwork.tree basicOps carTopology stableSort [.map starLine] = .ok flows ∧
      (flows.map Flow.ends).Perm [(2, 4), (2, 5)] ∧
      ∀ flow ∈ flows, ∃ ls, NodeGraph.IsShortestPath
          (NodeGraph.hopGraph carTopology_linked.wellLinked carTopology.attributes)
          flow.ends.1 flow.ends.2 ls ∧
        flow.pathFragments.map PathFragment.networkNodes =
          [flow.ends.1 :: ls.map NodeGraph.TopologyLink.destNode] := by
  obtain ⟨flows, hflows, hends⟩ := exists_starFlows
  refine ⟨flows, hflows, hends, addFlows_paths ⟨1, by decide +kernel⟩ carTopology_linked ?_ hflows⟩
  intro entry hentry
  cases List.mem_singleton.mp hentry
  rfl

end CooperativeTsn
