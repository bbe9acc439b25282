import CooperativeTsn.Config.Value
import CooperativeTsn.Infra.Assoc
import Mathlib.Data.List.Nodup

/-!
# The graph of a topology

`inet::Topology`: nodes for modules, and links that are stored at both of their ends. `deleteNode`
takes the links of a node out of the vectors at their other ends, one by one.

* `foldlM_unlinkFrom` — what a loop of `deleteNode` does
* `deleteNode_eq` — deleting a node leaves what lies between the other nodes
* `deleteNodes_eq` — so does deleting any number of them
-/

namespace CooperativeTsn.NodeGraph

open Infra.Runs Infra.Assoc

variable {Module : Type}

/-! ## Nodes and links -/

/-- `Topology::Link`. Each output gate has at most one. -/
structure TopologyLink (Module : Type) where
  srcNode : Module
  srcGateId : Int
  destNode : Module
  destGateId : Int
deriving DecidableEq, Repr

/-- `Topology::Node`. There is one for each module of the topology. -/
structure TopologyNode (Module : Type) where
  module : Module
  inLinks : List (TopologyLink Module)
  outLinks : List (TopologyLink Module)
deriving DecidableEq, Repr

/-- The two ends of a link. -/
inductive End where
  | source
  | dest
deriving DecidableEq

def End.other : End → End
  | source => dest
  | dest => source

/-- The node at one end. -/
def TopologyLink.node (l : TopologyLink Module) : End → Module
  | .source => l.srcNode
  | .dest => l.destNode

/-- The links that have this end at the node. -/
def TopologyNode.links (n : TopologyNode Module) : End → List (TopologyLink Module)
  | .source => n.outLinks
  | .dest => n.inLinks

def TopologyNode.setLinks (n : TopologyNode Module) (links : List (TopologyLink Module)) :
    End → TopologyNode Module
  | .source => { n with outLinks := links }
  | .dest => { n with inLinks := links }

@[simp] theorem TopologyNode.setLinks_module (n : TopologyNode Module)
    (links : List (TopologyLink Module)) (e : End) :
    (n.setLinks links e).module = n.module := by cases e <;> rfl

@[simp] theorem TopologyNode.setLinks_links (n : TopologyNode Module)
    (links : List (TopologyLink Module)) (e : End) :
    (n.setLinks links e).links e = links := by cases e <;> rfl

@[simp] theorem TopologyNode.setLinks_other (n : TopologyNode Module)
    (links : List (TopologyLink Module)) (e : End) :
    (n.setLinks links e).links e.other = n.links e.other := by cases e <;> rfl

/-! ## Deleting -/

section

variable [DecidableEq Module]

/-- Takes the link out of the vector at one of its ends. -/
def unlinkFrom (e : End) (text : String) (nodes : List (TopologyNode Module))
    (link : TopologyLink Module) :
    Except SimError (List (TopologyNode Module)) := do
  let node ← require .nullPointer (nodes.find? fun n => n.module = link.node e)
  ensure (link ∈ node.links e) (.assertion text)
  pure (nodes.map fun n =>
    if n.module = link.node e then n.setLinks ((n.links e).erase link) e else n)

/-- `Topology::unlinkFromSourceNode` -/
def unlinkFromSourceNode (nodes : List (TopologyNode Module)) (link : TopologyLink Module) :
    Except SimError (List (TopologyNode Module)) :=
  unlinkFrom .source "it != srcOutLinks.end()" nodes link

/-- `Topology::unlinkFromDestNode` -/
def unlinkFromDestNode (nodes : List (TopologyNode Module)) (link : TopologyLink Module) :
    Except SimError (List (TopologyNode Module)) :=
  unlinkFrom .dest "it != destInLinks.end()" nodes link

/-- `node->outLinks.clear()`, for the node with the module `m` -/
def clearOut (m : Module) (n : TopologyNode Module) : TopologyNode Module :=
  if n.module = m then n.setLinks [] .source else n

/-- `Topology::deleteNode`. The incoming links are those that the first loop leaves. -/
def deleteNode (nodes : List (TopologyNode Module)) (m : Module) :
    Except SimError (List (TopologyNode Module)) := do
  let node ← require .nullPointer (nodes.find? fun n => n.module = m)
  let nodes ← node.outLinks.foldlM unlinkFromDestNode nodes
  let nodes := nodes.map (clearOut m)
  let node ← require .nullPointer (nodes.find? fun n => n.module = m)
  let nodes ← node.inLinks.foldlM unlinkFromSourceNode nodes
  pure (nodes.eraseP fun n => n.module = m)

end

/-! ## Links that are stored at both ends -/

/-- Each link is stored once at each of its ends. -/
structure WellLinked (nodes : List (TopologyNode Module)) : Prop where
  nodup : (nodes.map TopologyNode.module).Nodup
  own : ∀ e, ∀ n ∈ nodes, ∀ l ∈ n.links e, l.node e = n.module
  links_nodup : ∀ e, ∀ n ∈ nodes, (n.links e).Nodup
  both : ∀ e, ∀ n ∈ nodes, ∀ l ∈ n.links e, ∃ n' ∈ nodes, l ∈ n'.links e.other

/-- One end of the links of a graph, on its own. -/
structure EndLinked (e : End) (nodes : List (TopologyNode Module)) : Prop where
  nodup : (nodes.map TopologyNode.module).Nodup
  own : ∀ n ∈ nodes, ∀ l ∈ n.links e, l.node e = n.module
  links_nodup : ∀ n ∈ nodes, (n.links e).Nodup

theorem WellLinked.endLinked {nodes : List (TopologyNode Module)} (h : WellLinked nodes) (e : End) :
    EndLinked e nodes := ⟨h.nodup, h.own e, h.links_nodup e⟩

section

variable {nodes : List (TopologyNode Module)} {n n' : TopologyNode Module}
  {l : TopologyLink Module} {e : End}

theorem node_ext (h : (nodes.map TopologyNode.module).Nodup) (hn : n ∈ nodes) (hn' : n' ∈ nodes)
    (heq : n.module = n'.module) : n = n' := List.inj_on_of_nodup_map h hn hn' heq

variable [DecidableEq Module]

/-- The links at one end that are not among the given ones. -/
def dropLinks (e : End) (links : List (TopologyLink Module)) (n : TopologyNode Module) :
    TopologyNode Module :=
  n.setLinks ((n.links e).filter (· ∉ links)) e

theorem unlinkFrom_eq (h : EndLinked e nodes) (text : String) (hl : ∃ n ∈ nodes, l ∈ n.links e) :
    unlinkFrom e text nodes l = .ok (nodes.map (dropLinks e [l])) := by
  obtain ⟨n, hn, hmem⟩ := hl
  have hnode := h.own n hn l hmem
  simp only [unlinkFrom, bind_eq_ok, require_eq_ok, ensure_eq_ok, pure_eq_ok, hnode]
  refine ⟨n, find?_of_nodup h.nodup hn, (), hmem, List.map_congr_left fun x hx => ?_⟩
  have hfilter : (x.links e).filter (· ∉ [l]) = (x.links e).erase l := by
    rw [(h.links_nodup x hx).erase_eq_filter]
    refine List.filter_congr fun y _ => ?_
    rw [Bool.eq_iff_iff]
    simp
  rw [dropLinks, hfilter]
  by_cases hxn : x.module = n.module
  · rw [if_pos hxn]
  · -- no other node has the link
    have hnot : l ∉ x.links e := fun hmem' => hxn (by rw [← h.own x hx l hmem', hnode])
    rw [if_neg hxn, List.erase_of_not_mem hnot]
    cases e <;> rfl

theorem EndLinked.dropLinks (h : EndLinked e nodes) (ls : List (TopologyLink Module)) :
    EndLinked e (nodes.map (dropLinks e ls)) where
  nodup := by
    have hmap : (nodes.map (NodeGraph.dropLinks e ls)).map TopologyNode.module =
        nodes.map TopologyNode.module := by
      simp [NodeGraph.dropLinks, Function.comp_def]
    rw [hmap]
    exact h.nodup
  own n hn l hl := by
    obtain ⟨x, hx, rfl⟩ := List.mem_map.mp hn
    rw [NodeGraph.dropLinks, TopologyNode.setLinks_links, List.mem_filter] at hl
    rw [NodeGraph.dropLinks, TopologyNode.setLinks_module]
    exact h.own x hx l hl.1
  links_nodup n hn := by
    obtain ⟨x, hx, rfl⟩ := List.mem_map.mp hn
    rw [NodeGraph.dropLinks, TopologyNode.setLinks_links]
    exact (h.links_nodup x hx).filter _

/-- A whole loop of `deleteNode`. -/
theorem foldlM_unlinkFrom (text : String) :
    ∀ {ls : List (TopologyLink Module)} {nodes : List (TopologyNode Module)},
    EndLinked e nodes → ls.Nodup → (∀ l ∈ ls, ∃ n ∈ nodes, l ∈ n.links e) →
    ls.foldlM (unlinkFrom e text) nodes = .ok (nodes.map (dropLinks e ls))
  | [], nodes, _, _, _ => by
    have hid : nodes.map (dropLinks e []) = nodes := by
      refine (List.map_congr_left fun n _ => ?_).trans (List.map_id _)
      cases e <;> simp [dropLinks, TopologyNode.links, TopologyNode.setLinks]
    rw [List.foldlM_nil, hid]
    rfl
  | l :: ls, nodes, h, hnodup, hmem => by
    rw [List.nodup_cons] at hnodup
    -- the other links are still there, since no link occurs twice
    have hrest : ∀ l' ∈ ls, ∃ n ∈ nodes.map (dropLinks e [l]), l' ∈ n.links e := by
      intro l' hl'
      obtain ⟨n, hn, hln⟩ := hmem l' (List.mem_cons_of_mem _ hl')
      refine ⟨_, List.mem_map_of_mem hn, ?_⟩
      rw [dropLinks, TopologyNode.setLinks_links, List.mem_filter]
      have hne : l' ≠ l := fun heq => hnodup.1 (heq ▸ hl')
      exact ⟨hln, by simpa using hne⟩
    have hcomp : (dropLinks e ls : TopologyNode Module → TopologyNode Module) ∘ dropLinks e [l] =
        dropLinks e (l :: ls) := by
      funext n
      cases e <;>
        simp [dropLinks, TopologyNode.links, TopologyNode.setLinks, List.filter_filter,
          Bool.and_comm]
    rw [List.foldlM_cons, unlinkFrom_eq h text (hmem l List.mem_cons_self)]
    show ls.foldlM (unlinkFrom e text) (nodes.map (dropLinks e [l])) = _
    rw [foldlM_unlinkFrom text (h.dropLinks [l]) hnodup.2 hrest, List.map_map, hcomp]

/-- The part of a node that lies between the nodes that are kept. -/
def restrictNode (keep : Module → Bool) (n : TopologyNode Module) : TopologyNode Module :=
  ⟨n.module, n.inLinks.filter fun l => keep l.srcNode, n.outLinks.filter fun l => keep l.destNode⟩

/-- The part of the graph that lies between the nodes that are kept. -/
def restrict (keep : Module → Bool) (nodes : List (TopologyNode Module)) :
    List (TopologyNode Module) :=
  (nodes.filter fun n => keep n.module).map (restrictNode keep)

@[simp] theorem clearOut_module (m : Module) (n : TopologyNode Module) :
    (clearOut m n).module = n.module := by
  rw [clearOut]
  split
  · exact n.setLinks_module _ _
  · rfl

@[simp] theorem dropLinks_module (ls : List (TopologyLink Module)) (n : TopologyNode Module) :
    (dropLinks e ls n).module = n.module := n.setLinks_module _ _

/-- After the first loop no link leads to another node from the node that is deleted. -/
theorem afterFirstLoop (h : WellLinked nodes) (n : TopologyNode Module) :
    EndLinked .source (nodes.map (clearOut n.module ∘ dropLinks .dest n.outLinks)) where
  nodup := by
    rw [List.map_map]
    simpa [Function.comp_def] using h.nodup
  own x hx l hl := by
    obtain ⟨y, hy, rfl⟩ := List.mem_map.mp hx
    simp only [Function.comp_apply, clearOut_module, dropLinks_module]
    rw [Function.comp_apply, clearOut] at hl
    split at hl
    · cases hl
    · exact h.own .source y hy l hl
  links_nodup x hx := by
    obtain ⟨y, hy, rfl⟩ := List.mem_map.mp hx
    rw [Function.comp_apply, clearOut]
    split
    · exact List.nodup_nil
    · exact h.links_nodup .source y hy

omit [DecidableEq Module] in
/-- The links that lead to a node from others are those that the first loop leaves it. -/
theorem mem_inLinks_iff (h : WellLinked nodes) (hn : n ∈ nodes) (hn' : n' ∈ nodes)
    (hl : l ∈ n'.inLinks) :
    l ∉ n.outLinks ↔ l.srcNode ≠ n.module := by
  rw [not_iff_not]
  constructor
  · exact h.own .source n hn l
  · intro hsrc
    obtain ⟨s, hs, hls⟩ := h.both .dest n' hn' l hl
    have hnode : l.srcNode = s.module := h.own .source s hs l hls
    rwa [node_ext h.nodup hn hs (hsrc.symm.trans hnode)]

/-- **Deleting a node leaves what lies between the other nodes.** -/
theorem deleteNode_eq (h : WellLinked nodes) (hn : n ∈ nodes) :
    deleteNode nodes n.module = .ok (restrict (· ≠ n.module) nodes) := by
  have hloop₁ : n.outLinks.foldlM unlinkFromDestNode nodes =
      .ok (nodes.map (dropLinks .dest n.outLinks)) :=
    foldlM_unlinkFrom _ (h.endLinked .dest) (h.links_nodup .source n hn) (h.both .source n hn)
  have hnode : clearOut n.module (dropLinks .dest n.outLinks n) =
      ⟨n.module, n.inLinks.filter (· ∉ n.outLinks), []⟩ := by
    rw [clearOut, if_pos (dropLinks_module _ _)]
    rfl
  have hmem : clearOut n.module (dropLinks .dest n.outLinks n) ∈
      nodes.map (clearOut n.module ∘ dropLinks .dest n.outLinks) := List.mem_map_of_mem hn
  have hafter := afterFirstLoop h n
  have hloop₂ : (n.inLinks.filter (· ∉ n.outLinks)).foldlM unlinkFromSourceNode
      (nodes.map (clearOut n.module ∘ dropLinks .dest n.outLinks)) =
      .ok ((nodes.map (clearOut n.module ∘ dropLinks .dest n.outLinks)).map
        (dropLinks .source (n.inLinks.filter (· ∉ n.outLinks)))) := by
    refine foldlM_unlinkFrom _ hafter ((h.links_nodup .dest n hn).filter _) fun l hl => ?_
    rw [List.mem_filter, decide_eq_true_eq] at hl
    obtain ⟨s, hs, hls⟩ := h.both .dest n hn l hl.1
    refine ⟨_, List.mem_map_of_mem hs, ?_⟩
    -- the source is another node, whose outgoing links are still there
    have hne : s.module ≠ n.module := by
      rw [← h.own .source s hs l hls]
      exact (mem_inLinks_iff h hn hn hl.1).mp hl.2
    rw [Function.comp_apply, clearOut, dropLinks_module, if_neg hne]
    exact hls
  have hfind := find?_of_nodup hafter.nodup hmem
  rw [clearOut_module, dropLinks_module, hnode] at hfind
  have hnodup : ((((nodes.map (clearOut n.module ∘ dropLinks .dest n.outLinks)).map
      (dropLinks .source (n.inLinks.filter (· ∉ n.outLinks)))).map TopologyNode.module)).Nodup := by
    rw [List.map_map, List.map_map]
    simpa [Function.comp_def] using h.nodup
  simp only [deleteNode, bind_eq_ok, require_eq_ok, pure_eq_ok]
  refine ⟨n, find?_of_nodup h.nodup hn, _, hloop₁, _, by rw [List.map_map]; exact hfind, _,
    by rw [List.map_map]; exact hloop₂, ?_⟩
  rw [eraseP_of_nodup hnodup, List.map_map, List.filter_map, restrict]
  have hfilter : nodes.filter ((fun x => x.module ≠ n.module) ∘
      (dropLinks .source (n.inLinks.filter (· ∉ n.outLinks)) ∘
        (clearOut n.module ∘ dropLinks .dest n.outLinks))) =
      nodes.filter (fun x => x.module ≠ n.module) := by
    refine List.filter_congr fun x _ => ?_
    simp
  refine (congrArg _ hfilter).trans (List.map_congr_left fun x hx => ?_)
  rw [List.mem_filter, decide_eq_true_eq] at hx
  obtain ⟨hx, hne⟩ := hx
  have hin : x.inLinks.filter (· ∉ n.outLinks) = x.inLinks.filter (·.srcNode ≠ n.module) := by
    refine List.filter_congr fun l hl => ?_
    simp only [mem_inLinks_iff h hn hx hl]
  have hout : x.outLinks.filter (· ∉ n.inLinks.filter (· ∉ n.outLinks)) =
      x.outLinks.filter (·.destNode ≠ n.module) := by
    refine List.filter_congr fun l hl => ?_
    rw [Bool.eq_iff_iff, decide_eq_true_eq, decide_eq_true_eq, not_iff_not, List.mem_filter,
      decide_eq_true_eq]
    constructor
    · rintro ⟨hmem, -⟩
      exact h.own .dest n hn l hmem
    · intro hdest
      obtain ⟨d, hd, hld⟩ := h.both .source x hx l hl
      have hdnode : l.destNode = d.module := h.own .dest d hd l hld
      obtain rfl := node_ext h.nodup hn hd (hdest.symm.trans hdnode)
      have hsrc : l.srcNode = x.module := h.own .source x hx l hl
      exact ⟨hld, (mem_inLinks_iff h hn hn hld).mpr (by rw [hsrc]; exact hne)⟩
  rw [Function.comp_apply, Function.comp_apply, clearOut, dropLinks_module, if_neg hne,
    restrictNode, ← hin, ← hout]
  rfl

omit [DecidableEq Module] in
theorem restrictNode_links (keep : Module → Bool) (n : TopologyNode Module) (e : End) :
    (restrictNode keep n).links e = (n.links e).filter fun l => keep (l.node e.other) := by
  cases e <;> rfl

omit [DecidableEq Module] in
theorem restrict_module (keep : Module → Bool) (nodes : List (TopologyNode Module)) :
    (restrict keep nodes).map TopologyNode.module =
      (nodes.map TopologyNode.module).filter keep := by
  rw [restrict, List.map_map, List.filter_map]
  rfl

omit [DecidableEq Module] in
theorem mem_restrict {keep : Module → Bool} {x : TopologyNode Module} :
    x ∈ restrict keep nodes ↔ ∃ n ∈ nodes, keep n.module = true ∧ restrictNode keep n = x := by
  simp only [restrict, List.mem_map, List.mem_filter, and_assoc]

omit [DecidableEq Module] in
theorem WellLinked.restrict (h : WellLinked nodes) (keep : Module → Bool) :
    WellLinked (restrict keep nodes) where
  nodup := by
    rw [restrict_module]
    exact h.nodup.filter _
  own e x hx l hl := by
    obtain ⟨n, hn, -, rfl⟩ := mem_restrict.mp hx
    rw [restrictNode_links, List.mem_filter] at hl
    exact h.own e n hn l hl.1
  links_nodup e x hx := by
    obtain ⟨n, hn, -, rfl⟩ := mem_restrict.mp hx
    rw [restrictNode_links]
    exact (h.links_nodup e n hn).filter _
  both e x hx l hl := by
    obtain ⟨n, hn, hkeep, rfl⟩ := mem_restrict.mp hx
    rw [restrictNode_links, List.mem_filter] at hl
    obtain ⟨n', hn', hl'⟩ := h.both e n hn l hl.1
    refine ⟨_, mem_restrict.mpr ⟨n', hn', ?_, rfl⟩, ?_⟩
    · rw [← h.own e.other n' hn' l hl']
      exact hl.2
    · have hown : l.node e.other.other = n.module := by
        have := h.own e n hn l hl.1
        cases e <;> exact this
      rw [restrictNode_links, List.mem_filter]
      exact ⟨hl', by rw [hown]; exact hkeep⟩

omit [DecidableEq Module] in
/-- Only what is kept of the modules of the graph matters. -/
theorem WellLinked.restrict_congr (h : WellLinked nodes) {keep keep' : Module → Bool}
    (hkeep : ∀ n ∈ nodes, keep n.module = keep' n.module) :
    NodeGraph.restrict keep nodes = NodeGraph.restrict keep' nodes := by
  have hend : ∀ e, ∀ n ∈ nodes, ∀ l ∈ n.links e,
      keep (l.node e.other) = keep' (l.node e.other) := by
    intro e n hn l hl
    obtain ⟨n', hn', hl'⟩ := h.both e n hn l hl
    rw [h.own e.other n' hn' l hl']
    exact hkeep n' hn'
  rw [NodeGraph.restrict, NodeGraph.restrict, List.filter_congr hkeep]
  refine List.map_congr_left fun n hn => ?_
  have hn := List.mem_of_mem_filter hn
  have hin : n.inLinks.filter (fun l => keep l.srcNode) =
      n.inLinks.filter fun l => keep' l.srcNode := List.filter_congr (hend .dest n hn)
  have hout : n.outLinks.filter (fun l => keep l.destNode) =
      n.outLinks.filter fun l => keep' l.destNode := List.filter_congr (hend .source n hn)
  rw [restrictNode, restrictNode, hin, hout]

omit [DecidableEq Module] in
theorem restrict_restrict (keep keep' : Module → Bool) (nodes : List (TopologyNode Module)) :
    restrict keep' (restrict keep nodes) = restrict (fun m => keep m && keep' m) nodes := by
  rw [restrict, restrict, restrict, List.filter_map, List.map_map, List.filter_filter]
  refine (congrArg _ (List.filter_congr fun n _ => ?_)).trans (List.map_congr_left fun n _ => ?_)
  · exact Bool.and_comm _ _
  · simp [restrictNode, List.filter_filter, Bool.and_comm]

/-- **Deleting nodes leaves what lies between the others.** -/
theorem deleteNodes_eq : ∀ {ms : List Module} {nodes : List (TopologyNode Module)},
    WellLinked nodes → ms.Nodup → (∀ m ∈ ms, m ∈ nodes.map TopologyNode.module) →
    ms.foldlM deleteNode nodes = .ok (restrict (· ∉ ms) nodes)
  | [], nodes, _, _, _ => by
    have hid : restrict (· ∉ ([] : List Module)) nodes = nodes := by
      have hall : nodes.filter (fun n => decide (n.module ∉ ([] : List Module))) = nodes := by simp
      rw [restrict, hall]
      exact (List.map_congr_left fun n _ => by simp [restrictNode]).trans (List.map_id _)
    rw [List.foldlM_nil, hid]
    rfl
  | m :: ms, nodes, h, hnodup, hmem => by
    rw [List.nodup_cons] at hnodup
    obtain ⟨n, hn, rfl⟩ := List.mem_map.mp (hmem m List.mem_cons_self)
    have hrest : ∀ m' ∈ ms, m' ∈ (restrict (· ≠ n.module) nodes).map TopologyNode.module := by
      intro m' hm'
      have hne : m' ≠ n.module := fun heq => hnodup.1 (heq ▸ hm')
      rw [restrict_module, List.mem_filter]
      exact ⟨hmem m' (List.mem_cons_of_mem _ hm'), by simpa using hne⟩
    rw [List.foldlM_cons, deleteNode_eq h hn]
    show ms.foldlM deleteNode (restrict (· ≠ n.module) nodes) = _
    rw [deleteNodes_eq (h.restrict _) hnodup.2 hrest, restrict_restrict]
    congr 2
    funext m'
    rw [Bool.eq_iff_iff]
    simp

end

end CooperativeTsn.NodeGraph
