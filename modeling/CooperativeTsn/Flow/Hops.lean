import CooperativeTsn.Flow.Request

/-!
# Hops

The loop of `convertInputToJson` over the nodes of a path fragment. It runs to the unsigned number of
nodes minus one. `addFlows` skips the names that no node has, so a fragment may be left without
nodes, and then the loop does not end before the list does.

* `hopLoop_eq`, `hopLoop_nil` — what the loop does
* `jsonHops_eq_mapM` — the request has the hops of the loops
* `readPath_networkNodes` — which fragments have nodes
* `hops_well_formed_iff` — the hops of all flows are well formed iff every fragment names a node
-/

namespace CooperativeTsn

open Infra.Runs

variable {Module : Type}

/-! ## The loop -/

/-- `size() - 1`, where a size is unsigned. -/
def lastIndex (size : Nat) : Nat := if size = 0 then 2 ^ 64 - 1 else size - 1

/-- The loop, from the index `k` on. -/
def hopLoop (tree : ModuleTree Module) (networkNodes : List Module) (k : Nat) :
    Except SimError (List Value) :=
  if k < lastIndex networkNodes.length then do
    let networkNode ← require .nullPointer networkNodes[k]?
    let nextNetworkNode ← require .nullPointer networkNodes[k + 1]?
    let hops ← hopLoop tree networkNodes (k + 1)
    pure (jsonHop tree networkNode nextNetworkNode :: hops)
  else pure []
termination_by lastIndex networkNodes.length - k

section

variable {tree : ModuleTree Module} {networkNodes : List Module}

/-- The hops between neighbours. -/
def neighbourHops (tree : ModuleTree Module) (networkNodes : List Module) : List Value :=
  (networkNodes.zip networkNodes.tail).map fun hop => jsonHop tree hop.1 hop.2

theorem neighbourHops_cons_cons (a b : Module) (rest : List Module) :
    neighbourHops tree (a :: b :: rest) = jsonHop tree a b :: neighbourHops tree (b :: rest) := rfl

theorem neighbourHops_of_length_le (h : networkNodes.length ≤ 1) :
    neighbourHops tree networkNodes = [] := by
  match networkNodes, h with
  | [], _ => rfl
  | [_], _ => rfl

theorem hopLoop_drop (hne : networkNodes ≠ []) (k : Nat) :
    hopLoop tree networkNodes k = .ok (neighbourHops tree (networkNodes.drop k)) := by
  have hlast : lastIndex networkNodes.length = networkNodes.length - 1 :=
    if_neg fun h => hne (List.length_eq_zero_iff.mp h)
  rw [hopLoop, hlast]
  split
  · next hk =>
    have h₀ : k < networkNodes.length := by omega
    have h₁ : k + 1 < networkNodes.length := by omega
    rw [List.drop_eq_getElem_cons h₀, List.drop_eq_getElem_cons h₁, neighbourHops_cons_cons,
      ← List.drop_eq_getElem_cons h₁, List.getElem?_eq_getElem h₀, List.getElem?_eq_getElem h₁]
    simp only [require, bind, Except.bind, hopLoop_drop hne (k + 1)]
    rfl
  · next hk =>
    rw [neighbourHops_of_length_le (by rw [List.length_drop]; omega)]
    rfl
termination_by networkNodes.length - k

/-- Between the nodes of a fragment there is one hop each. -/
theorem hopLoop_eq (hne : networkNodes ≠ []) :
    hopLoop tree networkNodes 0 = .ok (neighbourHops tree networkNodes) :=
  hopLoop_drop hne 0

/-- Without nodes the loop reads behind the end of the list. -/
theorem hopLoop_nil : hopLoop tree ([] : List Module) 0 = .error .nullPointer := by
  rw [hopLoop]
  rfl

theorem hopLoop_ok {hops : List Value} (h : hopLoop tree networkNodes 0 = .ok hops) :
    networkNodes ≠ [] ∧ hops = neighbourHops tree networkNodes := by
  have hne : networkNodes ≠ [] := by
    rintro rfl
    rw [hopLoop_nil] at h
    cases h
  rw [hopLoop_eq hne, Except.ok.injEq] at h
  exact ⟨hne, h.symm⟩

/-- The loops end in their lists iff there are nodes everywhere. -/
theorem exists_hopLoops_ok {fragments : List (PathFragment Module)} :
    (∃ parts, (fragments.mapM fun fragment => hopLoop tree fragment.networkNodes 0) = .ok parts) ↔
      ∀ fragment ∈ fragments, fragment.networkNodes ≠ [] := by
  rw [exists_mapM_ok]
  refine forall₂_congr fun fragment _ => ?_
  constructor
  · rintro ⟨hops, h⟩
    exact (hopLoop_ok h).1
  · exact fun hne => ⟨_, hopLoop_eq hne⟩

/-- **The request has the hops of the loops.** -/
theorem jsonHops_eq_mapM (fragments : List (PathFragment Module)) :
    jsonHops tree fragments =
      (fragments.mapM fun fragment => hopLoop tree fragment.networkNodes 0).map List.flatten := by
  by_cases hall : ∀ fragment ∈ fragments, fragment.networkNodes ≠ []
  · obtain ⟨parts, hparts⟩ : ∃ parts, (fragments.mapM fun fragment =>
        hopLoop tree fragment.networkNodes 0) = .ok parts := exists_hopLoops_ok.mpr hall
    have hmap : parts = fragments.map fun fragment => neighbourHops tree fragment.networkNodes :=
      mapM_eq_map (fun _ _ h => (hopLoop_ok h).2) hparts
    rw [jsonHops, ensure, if_pos hall, hparts, hmap, Except.map, ← List.flatMap_def]
    rfl
  · rw [jsonHops, ensure, if_neg hall]
    cases hparts : fragments.mapM fun fragment => hopLoop tree fragment.networkNodes 0 with
    | ok parts =>
      exact absurd (exists_hopLoops_ok.mp ⟨parts, hparts⟩) hall
    | error e =>
      obtain ⟨fragment, -, herror⟩ := exists_of_mapM_error hparts
      by_cases hnil : fragment.networkNodes = []
      · rw [hnil, hopLoop_nil] at herror
        cases herror
        rfl
      · rw [hopLoop_eq hnil] at herror
        cases herror

end

/-! ## Well-formed hops -/

/-- One hop from each node to the next. -/
structure HopsOf (tree : ModuleTree Module) (networkNodes : List Module) (hops : List Value) :
    Prop where
  length : hops.length = networkNodes.length - 1
  hop : ∀ (k : Nat) a b, networkNodes[k]? = some a → networkNodes[k + 1]? = some b →
    hops[k]? = some (jsonHop tree a b)

theorem hopsOf_neighbourHops {tree : ModuleTree Module} {networkNodes : List Module} :
    HopsOf tree networkNodes (neighbourHops tree networkNodes) := by
  refine ⟨by simp [neighbourHops], fun k a b ha hb => ?_⟩
  have hpair : (networkNodes.zip networkNodes.tail)[k]? = some (a, b) :=
    List.getElem?_zip_eq_some.mpr ⟨ha, by rw [List.getElem?_tail, hb]⟩
  rw [neighbourHops, List.getElem?_map, hpair]
  rfl

/-- The hops of the flow, one list for each of its path fragments. -/
def HopsWellFormed (tree : ModuleTree Module) (ops : ValueOps) (configuration : List Value)
    (flow : Flow Module) : Prop :=
  ∃ parts, (flow.pathFragments.mapM fun fragment => hopLoop tree fragment.networkNodes 0) =
      .ok parts ∧
    List.Forall₂ (fun fragment hops => HopsOf tree fragment.networkNodes hops) flow.pathFragments
      parts ∧
    ∀ fields, jsonFlow tree ops configuration flow = .ok fields →
      fields.lookup "hops" = some (.array parts.flatten)

section

variable {tree : ModuleTree Module} {ops : ValueOps} {configuration : List Value}
  {flow : Flow Module}

theorem jsonFlow_hops {fields : ValueMap}
    (h : jsonFlow tree ops configuration flow = .ok fields) :
    ∃ hops, jsonHops tree flow.pathFragments = .ok hops ∧
      fields.lookup "hops" = some (.array hops) := by
  simp only [jsonFlow, bind_eq_ok, pure_eq_ok] at h
  obtain ⟨t, -, hops, hhops, rfl⟩ := h
  refine ⟨hops, hhops, ?_⟩
  rw [ValueMap.lookup_record, List.reverse_append]
  rfl

/-- The hops of a flow are well formed iff each of its fragments has a node. -/
theorem hopsWellFormed_iff : HopsWellFormed tree ops configuration flow ↔ HasPath flow := by
  constructor
  · rintro ⟨parts, hparts, -⟩
    exact exists_hopLoops_ok.mp ⟨parts, hparts⟩
  · intro hpath
    obtain ⟨parts, hparts⟩ : ∃ parts, (flow.pathFragments.mapM fun fragment =>
        hopLoop tree fragment.networkNodes 0) = .ok parts := exists_hopLoops_ok.mpr hpath
    refine ⟨parts, hparts, (mapM_eq_ok.mp hparts).imp fun fragment hops h => ?_, ?_⟩
    · rw [(hopLoop_ok h).2]
      exact hopsOf_neighbourHops
    · intro fields hfields
      obtain ⟨hops, hhops, hlookup⟩ := jsonFlow_hops hfields
      rw [jsonHops_eq_mapM, hparts, Except.map, Except.ok.injEq] at hhops
      rw [hlookup, hhops]

end

/-! ## Fragments with nodes -/

section

variable {tree : ModuleTree Module} {topology : Topology Module}

/-- The name, up to a dot, is that of a node. -/
def NamesNode (tree : ModuleTree Module) (topology : Topology Module) (value : Value) : Prop :=
  ∃ text, value = .string text ∧
    ∃ node ∈ topology.networkNodes, tree.getFullName node.module = (splitNodeName text).1

/-- **Which fragments have nodes**: those of which a name is that of a node. -/
theorem readPath_networkNodes : ∀ {values : List Value} {path : PathFragment Module},
    readPath tree topology values = .ok path →
      (path.networkNodes ≠ [] ↔ ∃ value ∈ values, NamesNode tree topology value)
  | [], path, h => by
    rw [readPath, pure_eq_ok] at h
    simp [← h]
  | value :: values, path, h => by
    simp only [readPath, bind_eq_ok, Value.stringValue_eq_ok] at h
    obtain ⟨text, rfl, h⟩ := h
    cases hfind : topology.networkNodes.find?
        (fun node => tree.getFullName node.module = (splitNodeName text).1) with
    | none =>
      rw [hfind] at h
      have hnot : ¬ NamesNode tree topology (.string text) := by
        rintro ⟨_, ⟨⟩, node, hnode, hname⟩
        simpa [hname] using List.find?_eq_none.mp hfind node hnode
      rw [readPath_networkNodes h, List.exists_mem_cons_iff]
      exact (or_iff_right hnot).symm
    | some node =>
      rw [hfind] at h
      have hnames : NamesNode tree topology (.string text) :=
        ⟨text, rfl, node, List.mem_of_find?_eq_some hfind, by simpa using List.find?_some hfind⟩
      refine iff_of_true ?_ ⟨_, List.mem_cons_self, hnames⟩
      -- the last name is the end of the path, any other one goes on with a link
      cases values with
      | nil =>
        rw [pure_eq_ok] at h
        rw [← h]
        exact List.cons_ne_nil _ _
      | cons next values =>
        simp only [bind_eq_ok, pure_eq_ok] at h
        obtain ⟨_, -, _, -, _, -, rfl⟩ := h
        exact List.cons_ne_nil _ _

/-- Every path has a node iff every fragment names one. -/
theorem readPaths_networkNodes : ∀ {fragments : List Value} {paths : List (PathFragment Module)},
    readPaths tree topology fragments = .ok paths →
      ((∀ path ∈ paths, path.networkNodes ≠ []) ↔
        ∀ values, .array values ∈ fragments → ∃ value ∈ values, NamesNode tree topology value)
  | [], paths, h => by
    rw [readPaths, pure_eq_ok] at h
    simp [← h]
  | fragment :: fragments, paths, h => by
    simp only [readPaths, bind_eq_ok, pure_eq_ok, Value.arrayValue_eq_ok] at h
    obtain ⟨values, rfl, path, hpath, rest, hrest, rfl⟩ := h
    rw [List.forall_mem_cons, readPath_networkNodes hpath, readPaths_networkNodes hrest]
    constructor
    · rintro ⟨hfirst, hothers⟩ values' hmem
      rcases List.mem_cons.mp hmem with heq | hmem
      · cases heq
        exact hfirst
      · exact hothers values' hmem
    · exact fun h => ⟨h values List.mem_cons_self,
        fun values' hmem => h values' (List.mem_cons_of_mem _ hmem)⟩

end

section

variable [DecidableEq Module] {tree : ModuleTree Module} {ops : ValueOps}
  {topology : Topology Module} {order : PcpSort Module} {configuration : List Value}
  {flows : List (Flow Module)}

/--
Every fragment that the entry names, or else the shortest path, names a node, for every pair of
nodes that matches the entry.
-/
def FragmentsOfEntry (tree : ModuleTree Module) (topology : Topology Module) (entry : ValueMap) :
    Prop :=
  ∀ a b, (a, b) ∈ nodePairs topology → matchesPair tree entry a b = .ok true → ∀ fragments,
    flowFragments tree topology entry a.module b.module = .ok fragments →
    ∀ values, .array values ∈ fragments → ∃ value ∈ values, NamesNode tree topology value

/-- The flows of an entry have nodes iff its fragments name some. -/
theorem hasPath_iff_of_entry {entry : ValueMap} {n n' : Nat}
    (hflows : flowsOfPairs tree ops topology entry (nodePairs topology) n = .ok (flows, n')) :
    (∀ flow ∈ flows, HasPath flow) ↔ FragmentsOfEntry tree topology entry := by
  constructor
  · intro hpath a b hpair hmatch fragments hfragments
    obtain ⟨flow, hflow, _, _, hmade⟩ := exists_flow_of_matchesPair hmatch hflows hpair
    obtain ⟨fragments', hfragments', hpaths⟩ := makeFlow_paths hmade
    rw [hfragments, Except.ok.injEq] at hfragments'
    subst hfragments'
    exact (readPaths_networkNodes hpaths).mp (hpath flow hflow)
  · intro hnames flow hflow
    obtain ⟨a, b, _, _, hpair, hmatch, hmade⟩ := exists_makeFlow_of_mem hflows hflow
    obtain ⟨fragments, hfragments, hpaths⟩ := makeFlow_paths hmade
    exact (readPaths_networkNodes hpaths).mpr (hnames a b hpair hmatch fragments hfragments)

/-- **The hops of all flows are well formed iff every fragment names a node.** -/
theorem hops_well_formed_iff
    (hflows : addFlows tree ops topology order configuration = .ok flows) :
    (∀ flow ∈ flows, HopsWellFormed tree ops configuration flow) ↔
      ∀ entry, .map entry ∈ configuration → FragmentsOfEntry tree topology entry := by
  obtain ⟨perEntry, hcollect, rfl⟩ := addFlows_perm.mp hflows
  have hmem : ∀ flow, flow ∈ order.sort perEntry.flatten ↔ flow ∈ perEntry.flatten :=
    fun flow => (order.sort_perm _).mem_iff
  simp only [hmem, hopsWellFormed_iff]
  rw [forall_mem_flatten_iff (Q := fun value => ∀ entry, value = .map entry →
    FragmentsOfEntry tree topology entry) ?_ (collectFlows_forall₂ hcollect)]
  · constructor
    · exact fun h entry hentry => h _ hentry entry rfl
    · rintro h _ hvalue entry rfl
      exact h entry hvalue
  · rintro _ flows ⟨entry, _, _, rfl, hflows⟩
    rw [hasPath_iff_of_entry hflows]
    constructor
    · rintro h _ ⟨rfl⟩
      exact h
    · exact fun h => h entry rfl

end

/-! ## The devices of a car -/

/-- The shortest paths to the devices of the car. -/
theorem hops_well_formed_shortest :
    ∃ flows, addFlows carNetwork.tree basicOps carTopology stableSort
        [.map (devicesEntry [])] = .ok flows ∧
      ∀ flow ∈ flows, HopsWellFormed carNetwork.tree basicOps [.map (devicesEntry [])] flow := by
  obtain ⟨⟨entryFlows, n'⟩, hentry, hpath⟩ : ∃ r, flowsOfPairs carNetwork.tree basicOps carTopology
      (devicesEntry []) (nodePairs carTopology) 0 = .ok r ∧
        decide (∀ flow ∈ r.1, HasPath flow) = true :=
    exists_of_any (by decide +kernel)
  obtain ⟨perEntry, hcollect, -⟩ : ∃ r, collectFlows carNetwork.tree basicOps carTopology
      [.map (devicesEntry [])] 0 = .ok r ∧ decide (r ≠ []) = true :=
    exists_of_any (by decide +kernel)
  have hflows := addFlows_perm.mpr ⟨perEntry, hcollect, Eq.refl (stableSort.sort perEntry.flatten)⟩
  refine ⟨_, hflows, (hops_well_formed_iff hflows).mpr fun entry hmem => ?_⟩
  cases List.mem_singleton.mp hmem
  exact (hasPath_iff_of_entry hentry).mp (of_decide_eq_true hpath)

/-- A path that names no node of the car. -/
def foreignPath : String × Value := ("pathFragments", .array [.array [.string "roadside"]])

/-- `addFlows` skips the name, and the loop over the hops leaves the list. -/
theorem foreign_path_leaves_list :
    ∃ flows, addFlows carNetwork.tree basicOps carTopology stableSort
        [.map (devicesEntry [foreignPath])] = .ok flows ∧
      (∃ flow ∈ flows, jsonHops carNetwork.tree flow.pathFragments = .error .nullPointer) ∧
      ¬ ∀ flow ∈ flows,
        HopsWellFormed carNetwork.tree basicOps [.map (devicesEntry [foreignPath])] flow := by
  obtain ⟨perEntry, hcollect, hbad⟩ : ∃ r, collectFlows carNetwork.tree basicOps carTopology
      [.map (devicesEntry [foreignPath])] 0 = .ok r ∧
        decide (∃ flow ∈ r.flatten, flow.pathFragments = [⟨[], [], []⟩]) = true :=
    exists_of_any (by decide +kernel)
  obtain ⟨flow, hflow, hpaths⟩ := of_decide_eq_true hbad
  have hmem : flow ∈ stableSort.sort perEntry.flatten :=
    (stableSort.sort_perm _).mem_iff.mpr hflow
  refine ⟨_, addFlows_perm.mpr ⟨perEntry, hcollect, rfl⟩, ⟨flow, hmem, by rw [hpaths]; rfl⟩, ?_⟩
  intro h
  have hpath := hopsWellFormed_iff.mp (h flow hmem)
  rw [HasPath, hpaths] at hpath
  exact hpath _ List.mem_cons_self rfl

end CooperativeTsn
