import CooperativeTsn.Infra.ShortestPath
import CooperativeTsn.Net.NodeGraph
import Mathlib.Algebra.GroupWithZero.Nat
import Mathlib.Algebra.Order.Group.Nat

/-!
# Shortest path searches in a topology

`calculateUnweightedSingleShortestPathsTo` and `calculateWeightedSingleShortestPaths` as searches in
the graph of the usable links.

* `unweighted_search`, `weighted_search` — every run ends, with exact labels
* `unweighted_labels`, `weighted_labels` — the labels are distances, the first links lead home
-/

namespace CooperativeTsn.NodeGraph

open Infra.Runs Infra.ShortestPath

variable {Module W : Type}

/-! ## The searches -/

/-- What the searches read besides the links. A weight may be infinite. -/
structure Attributes (Module W : Type) where
  nodeEnabled : Module → Bool
  linkEnabled : TopologyLink Module → Bool
  nodeWeight : Module → WithTop W
  linkWeight : TopologyLink Module → WithTop W

/-- Is the link enabled, and the node at its other end? -/
def Attributes.Usable (attributes : Attributes Module W) (e : End) (l : TopologyLink Module) :
    Bool :=
  attributes.linkEnabled l && attributes.nodeEnabled (l.node e.other)

section

variable [DecidableEq Module]

/-- The links that have this end at the module. -/
def linksAt (nodes : List (TopologyNode Module)) (e : End) (m : Module) :
    List (TopologyLink Module) :=
  match nodes.find? fun n => n.module = m with
  | none => []
  | some n => n.links e

instance : LawfulBEq (TopologyLink Module) := inferInstance

/-- `dist`, `outPaths` and the queue `q` -/
abbrev SearchState (Module W : Type) := State Module (TopologyLink Module) W

/-- An incoming link of `v`. -/
def visitUnweighted (attributes : Attributes Module W) (v : Module) (s : SearchState Module Nat)
    (link : TopologyLink Module) : SearchState Module Nat :=
  if attributes.Usable .dest link then
    let w := link.srcNode
    let s := if s.dist w = ⊤ then
      { s with dist := Function.update s.dist w (s.dist v + 1), queue := s.queue ++ [w] } else s
    if link ∈ s.paths w then s
    else { s with paths := Function.update s.paths w (s.paths w ++ [link]) }
  else s

/-- `v` has been taken from the queue. -/
def expandUnweighted (nodes : List (TopologyNode Module)) (attributes : Attributes Module W)
    (v : Module) (s : SearchState Module Nat) : Except SimError (SearchState Module Nat) :=
  .ok ((linksAt nodes .dest v).foldl (visitUnweighted attributes v) s)

/-- The nodes are labelled by the number of links to the target. -/
def calculateUnweightedSingleShortestPathsTo (nodes : List (TopologyNode Module))
    (attributes : Attributes Module W) (target : Module) :
    Except SimError (SearchState Module Nat) :=
  loop (expandUnweighted nodes attributes) nodes.length (start target)

/-- `to ? remote : current` -/
def notingNode (remote current : Module) : End → Module
  | .dest => remote
  | .source => current

/-- A link of `current`, whose end `e` is there. -/
def visitWeighted [AddCommMonoid W] [LinearOrder W] (attributes : Attributes Module W) (e : End)
    (initial current : Module) (s : SearchState Module W) (link : TopologyLink Module) :
    Except SimError (SearchState Module W) :=
  if attributes.Usable e link then do
    let remote := link.node e.other
    ensure (0 < attributes.linkWeight link) (.assertion "linkWeight > 0.0")
    let newdist := s.dist current + attributes.linkWeight link
    let newdist := if current ≠ initial then newdist + attributes.nodeWeight current else newdist
    if newdist ≠ ⊤ ∧ newdist < s.dist remote then
      let q := if s.dist remote ≠ ⊤ then s.queue.filter (· ≠ remote) else s.queue
      let dist := Function.update s.dist remote newdist
      pure {
        dist := dist
        paths := Function.update s.paths remote (link :: (s.paths remote).filter (· ≠ link))
        queue := q.orderedInsert (fun a b => dist a < dist b) remote }
    else if link ∉ s.paths remote then
      let n := notingNode remote current e
      pure { s with paths := Function.update s.paths n (s.paths n ++ [link]) }
    else pure s
  else pure s

/-- `current` has been taken from the queue. -/
def expandWeighted [AddCommMonoid W] [LinearOrder W] (nodes : List (TopologyNode Module))
    (attributes : Attributes Module W) (e : End) (initial current : Module)
    (s : SearchState Module W) : Except SimError (SearchState Module W) := do
  ensure (0 ≤ attributes.nodeWeight current) (.assertion "current->getWeight() >= 0.0")
  (linksAt nodes e current).foldlM (visitWeighted attributes e initial current) s

/--
Links are added up from the initial node on. Their ends `e` are the closer ones: with `dest` the
paths lead to the initial node, with `source` they come from it.
-/
def calculateWeightedSingleShortestPaths [AddCommMonoid W] [LinearOrder W]
    (nodes : List (TopologyNode Module)) (attributes : Attributes Module W) (e : End)
    (initial : Module) : Except SimError (SearchState Module W) :=
  loop (expandWeighted nodes attributes e initial) nodes.length (start initial)

/-! ## The graph that a search goes through -/

variable {nodes : List (TopologyNode Module)} {attributes : Attributes Module W} {e : End}
  {m : Module} {l : TopologyLink Module}

theorem linksAt_of_mem (h : WellLinked nodes) {n : TopologyNode Module} (hn : n ∈ nodes) :
    linksAt nodes e n.module = n.links e := by
  rw [linksAt, Infra.Assoc.find?_of_nodup h.nodup hn]

theorem exists_of_mem_linksAt (hl : l ∈ linksAt nodes e m) :
    ∃ n ∈ nodes, n.module = m ∧ l ∈ n.links e := by
  rw [linksAt] at hl
  split at hl
  · cases hl
  · next n hfind =>
    exact ⟨n, List.mem_of_find?_eq_some hfind, by simpa using List.find?_some hfind, hl⟩

theorem linksAt_node (h : WellLinked nodes) (hl : l ∈ linksAt nodes e m) : l.node e = m := by
  obtain ⟨n, hn, hmodule, hmem⟩ := exists_of_mem_linksAt hl
  rw [h.own e n hn l hmem, hmodule]

theorem linksAt_nodup (h : WellLinked nodes) : (linksAt nodes e m).Nodup := by
  rw [linksAt]
  split
  · exact List.nodup_nil
  · next n hfind => exact h.links_nodup e n (List.mem_of_find?_eq_some hfind)

/-- Both ends of a link are nodes. -/
theorem other_mem_of_mem_linksAt (h : WellLinked nodes) (hl : l ∈ linksAt nodes e m) :
    l.node e.other ∈ nodes.map TopologyNode.module := by
  obtain ⟨n, hn, -, hmem⟩ := exists_of_mem_linksAt hl
  obtain ⟨n', hn', hl'⟩ := h.both e n hn l hmem
  rw [h.own e.other n' hn' l hl']
  exact List.mem_map_of_mem hn'

/-- A link is found at both of its ends. -/
theorem mem_linksAt_other (h : WellLinked nodes) (hl : l ∈ linksAt nodes e m) :
    l ∈ linksAt nodes e.other (l.node e.other) := by
  obtain ⟨n, hn, -, hmem⟩ := exists_of_mem_linksAt hl
  obtain ⟨n', hn', hl'⟩ := h.both e n hn l hmem
  rw [h.own e.other n' hn' l hl', linksAt_of_mem h hn']
  exact hl'

/-- The links as a search sees them from their ends `e`, with the lengths that it adds up. -/
def searchGraph [AddCommMonoid W] [LinearOrder W] (h : WellLinked nodes)
    (usable : TopologyLink Module → Bool) (e : End) (cost : TopologyLink Module → WithTop W)
    (hcost : ∀ l, 0 < cost l) : Graph Module (TopologyLink Module) W where
  links m := (linksAt nodes e m).filter usable
  source l := l.node e.other
  dest l := l.node e
  cost := cost
  dest_eq hl := linksAt_node h (List.mem_of_mem_filter hl)
  cost_pos _ := hcost _

/-- The graph of the unweighted search: every link has length one. -/
def hopGraph (h : WellLinked nodes) (attributes : Attributes Module W) :
    Graph Module (TopologyLink Module) Nat :=
  searchGraph h (attributes.Usable .dest) .dest (fun _ => 1) fun _ => by decide

/-- Every link counts one. -/
theorem length_hopGraph (h : WellLinked nodes) (attributes : Attributes Module W) :
    ∀ ls : List (TopologyLink Module), length (hopGraph h attributes) ls = WithTop.some ls.length
  | [] => rfl
  | l :: ls => by
    rw [length_cons, length_hopGraph h attributes ls, List.length_cons, WithTop.coe_add, add_comm]
    rfl

/-! ## The unweighted search -/

/-- A link that was not noted before is noted. -/
theorem visitUnweighted_paths {v : Module} {s : SearchState Module Nat}
    (husable : attributes.Usable .dest l = true) (hnew : l ∉ s.paths l.srcNode) :
    (visitUnweighted attributes v s l).paths =
      Function.update s.paths l.srcNode (s.paths l.srcNode ++ [l]) := by
  rw [visitUnweighted, if_pos husable]
  by_cases hdist : s.dist l.srcNode = ⊤
  · simp only [if_pos hdist, if_neg hnew]
  · simp only [if_neg hdist, if_neg hnew]

theorem visitUnweighted_labels {v : Module} {s : SearchState Module Nat}
    (husable : attributes.Usable .dest l = true) :
    (visitUnweighted attributes v s l).dist =
        (if s.dist l.srcNode = ⊤ then Function.update s.dist l.srcNode (s.dist v + 1)
          else s.dist) ∧
      (visitUnweighted attributes v s l).queue =
        if s.dist l.srcNode = ⊤ then s.queue ++ [l.srcNode] else s.queue := by
  rw [visitUnweighted, if_pos husable]
  by_cases hdist : s.dist l.srcNode = ⊤
  · simp only [if_pos hdist]
    split <;> exact ⟨rfl, rfl⟩
  · simp only [if_neg hdist]
    split <;> exact ⟨rfl, rfl⟩

section

variable {h : WellLinked nodes} {target v : Module} {settled : List Module}
  {pending : List (TopologyLink Module)} {s : SearchState Module Nat}

/-- A node that is reached for the first time goes to the end of the queue, which stays sorted. -/
theorem visitUnweighted_discover
    (hf : Frontier (hopGraph h attributes) target (v :: settled) (l :: pending) s)
    (hnoted : Noted (hopGraph h attributes) (v :: settled) (l :: pending) s)
    (hnear : ∀ n, s.dist n < ⊤ → s.dist n ≤ s.dist v + 1)
    (hl : l ∈ (hopGraph h attributes).links v) (hdist : s.dist l.srcNode = ⊤)
    (hnew : l ∉ s.paths l.srcNode) :
    Frontier (hopGraph h attributes) target (v :: settled) pending
      (visitUnweighted attributes v s l) := by
  have husable : attributes.Usable .dest l = true := (List.mem_filter.mp hl).2
  have hfinite : s.dist v < ⊤ := (hf.reached v).mpr (Or.inl List.mem_cons_self)
  have hpaths' := visitUnweighted_paths (v := v) husable hnew
  obtain ⟨hdist', hqueue'⟩ := visitUnweighted_labels (v := v) (s := s) husable
  rw [if_pos hdist] at hdist' hqueue'
  -- a node that was not reached has noted no links
  have hempty : s.paths l.srcNode = [] := by
    rw [List.eq_nil_iff_forall_not_mem]
    intro x hx
    obtain ⟨hsource, ⟨c, hc, hx⟩, hpending'⟩ := (hnoted.mem _ x).mp hx
    have hle := hf.relaxed c hc x hx hpending'
    rw [hsource, hdist, top_le_iff] at hle
    have hc := (hf.reached c).mpr (Or.inl hc)
    exact (WithTop.add_lt_top.mpr ⟨hc, WithTop.one_lt_top⟩).ne hle
  have hqueue : ∀ a ∈ s.queue, a ≠ l.srcNode := by
    rintro a ha rfl
    have hreached := (hf.reached _).mpr (Or.inr ha)
    rw [hdist] at hreached
    exact hreached.false
  refine hf.improve hl ?_ hdist' ?_ ?_ ?_ ?_
  · show s.dist v + 1 < s.dist l.srcNode
    rw [hdist]
    exact WithTop.add_lt_top.mpr ⟨hfinite, WithTop.one_lt_top⟩
  · show (visitUnweighted attributes v s l).queue.Perm (l.srcNode :: s.queue.filter (· ≠ l.srcNode))
    rw [hqueue', hf.filter_queue hdist]
    exact List.perm_append_singleton _ _
  · rw [hqueue', hdist']
    refine List.pairwise_append.mpr ⟨?_, List.pairwise_singleton _ _, fun a ha b hb => ?_⟩
    · refine hf.sorted.imp_of_mem fun {a b} ha hb hab => ?_
      rwa [Function.update_of_ne (hqueue a ha), Function.update_of_ne (hqueue b hb)]
    · rw [List.mem_singleton] at hb
      rw [hb, Function.update_self, Function.update_of_ne (hqueue a ha)]
      exact hnear a ((hf.reached a).mpr (Or.inr ha))
  · show ((visitUnweighted attributes v s l).paths l.srcNode).head? = some l
    rw [hpaths', Function.update_self, hempty]
    rfl
  · intro n _ (hn : n ≠ l.srcNode)
    rw [hpaths', Function.update_of_ne hn]

/-- One link of the node that was settled last. -/
theorem visitUnweighted_frontier
    (hf : Frontier (hopGraph h attributes) target (v :: settled) (l :: pending) s)
    (hnoted : Noted (hopGraph h attributes) (v :: settled) (l :: pending) s)
    (hnear : ∀ n, s.dist n < ⊤ → s.dist n ≤ s.dist v + 1)
    (hl : l ∈ (hopGraph h attributes).links v) (hpending : l ∉ pending) :
    Frontier (hopGraph h attributes) target (v :: settled) pending
        (visitUnweighted attributes v s l) ∧
      Noted (hopGraph h attributes) (v :: settled) pending (visitUnweighted attributes v s l) ∧
      ∀ n, (visitUnweighted attributes v s l).dist n < ⊤ →
        (visitUnweighted attributes v s l).dist n ≤
          (visitUnweighted attributes v s l).dist v + 1 := by
  have husable : attributes.Usable .dest l = true := (List.mem_filter.mp hl).2
  have hfinite : s.dist v < ⊤ := (hf.reached v).mpr (Or.inl List.mem_cons_self)
  -- the link was not noted before
  have hnew : l ∉ s.paths l.srcNode := fun hmem =>
    ((hnoted.mem _ _).mp hmem).2.2 List.mem_cons_self
  have hpaths' := visitUnweighted_paths (v := v) husable hnew
  obtain ⟨hdist', hqueue'⟩ := visitUnweighted_labels (v := v) (s := s) husable
  refine ⟨?_, hnoted.note hl hpending (fun x => ?_) ?_ ?_, ?_⟩
  · by_cases hdist : s.dist l.srcNode = ⊤
    · exact visitUnweighted_discover hf hnoted hnear hl hdist hnew
    · rw [if_neg hdist] at hdist' hqueue'
      refine hf.keep hl (hnear _ (lt_top_iff_ne_top.mpr hdist)) hdist' hqueue' ?_
      intro n hn hne
      rw [hpaths']
      exact hf.head_append hne hn _ _
  · show x ∈ (visitUnweighted attributes v s l).paths l.srcNode ↔ x = l ∨ x ∈ s.paths l.srcNode
    rw [hpaths', Function.update_self, List.mem_append, List.mem_singleton, or_comm]
  · show ((visitUnweighted attributes v s l).paths l.srcNode).Nodup
    rw [hpaths', Function.update_self]
    exact (hnoted.nodup _).append (List.nodup_singleton l) (List.disjoint_singleton.mpr hnew)
  · intro n (hn : n ≠ l.srcNode)
    rw [hpaths', Function.update_of_ne hn]
  · intro n hn
    by_cases hdist : s.dist l.srcNode = ⊤
    · have hne : v ≠ l.srcNode := fun heq => by
        rw [heq, hdist] at hfinite
        exact hfinite.false
      rw [hdist', if_pos hdist] at hn ⊢
      rw [Function.update_of_ne hne]
      by_cases hsource : n = l.srcNode
      · rw [hsource, Function.update_self]
      · rw [Function.update_of_ne hsource] at hn ⊢
        exact hnear n hn
    · rw [hdist', if_neg hdist] at hn ⊢
      exact hnear n hn

/-- All links of the node that was settled last. -/
theorem foldl_visitUnweighted : ∀ {ls : List (TopologyLink Module)} {s : SearchState Module Nat},
    Frontier (hopGraph h attributes) target (v :: settled) ls s →
    Noted (hopGraph h attributes) (v :: settled) ls s →
    (∀ n, s.dist n < ⊤ → s.dist n ≤ s.dist v + 1) →
    ls.Nodup → (∀ l ∈ ls, l ∈ (hopGraph h attributes).links v) →
    Frontier (hopGraph h attributes) target (v :: settled) []
        (ls.foldl (visitUnweighted attributes v) s) ∧
      Noted (hopGraph h attributes) (v :: settled) [] (ls.foldl (visitUnweighted attributes v) s) ∧
      ∀ n, (ls.foldl (visitUnweighted attributes v) s).dist n < ⊤ →
        (ls.foldl (visitUnweighted attributes v) s).dist n ≤
          (ls.foldl (visitUnweighted attributes v) s).dist v + 1
  | [], _, hf, hnoted, hnear, _, _ => ⟨hf, hnoted, hnear⟩
  | l :: ls, s, hf, hnoted, hnear, hnodup, hls => by
    rw [List.nodup_cons] at hnodup
    obtain ⟨hf', hnoted', hnear'⟩ :=
      visitUnweighted_frontier hf hnoted hnear (hls l List.mem_cons_self) hnodup.1
    rw [List.foldl_cons]
    exact foldl_visitUnweighted hf' hnoted' hnear' hnodup.2 fun l' hl' =>
      hls l' (List.mem_cons_of_mem _ hl')

/-- Links that are not usable are passed over. -/
theorem foldl_visitUnweighted_filter (attributes : Attributes Module W) (v : Module) :
    ∀ (ls : List (TopologyLink Module)) (s : SearchState Module Nat),
    ls.foldl (visitUnweighted attributes v) s =
      (ls.filter (attributes.Usable .dest)).foldl (visitUnweighted attributes v) s
  | [], _ => rfl
  | l :: ls, s => by
    by_cases husable : attributes.Usable .dest l = true
    · rw [List.filter_cons_of_pos husable, List.foldl_cons, List.foldl_cons]
      exact foldl_visitUnweighted_filter attributes v ls _
    · rw [List.filter_cons_of_neg husable, List.foldl_cons, visitUnweighted, if_neg husable]
      exact foldl_visitUnweighted_filter attributes v ls s

/-- No label is more than one step above those in the queue. -/
def Near (s : SearchState Module Nat) : Prop :=
  ∀ c ∈ s.queue, ∀ n, s.dist n < ⊤ → s.dist n ≤ s.dist c + 1

theorem expandUnweighted_frontier (hf : Frontier (hopGraph h attributes) target settled [] s)
    (hnoted : Noted (hopGraph h attributes) settled [] s) (hnear : Near s) {rest : List Module}
    (hqueue : s.queue = v :: rest) :
    ∃ s', expandUnweighted nodes attributes v { s with queue := rest } = .ok s' ∧
      Frontier (hopGraph h attributes) target (v :: settled) [] s' ∧
      Noted (hopGraph h attributes) (v :: settled) [] s' ∧ Near s' := by
  have hv : v ∈ s.queue := by rw [hqueue]; exact List.mem_cons_self
  obtain ⟨hf', hnoted', hnear'⟩ := foldl_visitUnweighted (hf.settle hqueue)
    (hnoted.settle (hf.apart v hv)) (hnear v hv) ((linksAt_nodup h).filter _) fun l hl => hl
  refine ⟨_, rfl, ?_⟩
  rw [foldl_visitUnweighted_filter]
  refine ⟨hf', hnoted', fun c hc n hn => (hnear' n hn).trans ?_⟩
  -- what is left in the queue is no closer than the node that was settled
  gcongr
  exact hf'.behind v List.mem_cons_self c hc

end

/-- The search ends: its labels are exact, and each node has noted its links to reached nodes. -/
theorem unweighted_search (h : WellLinked nodes) (attributes : Attributes Module W)
    {target : Module} (ht : target ∈ nodes.map TopologyNode.module) :
    ∃ s, calculateUnweightedSingleShortestPathsTo nodes attributes target = .ok s ∧
      Exact (hopGraph h attributes) target s.toLabels ∧
      (∀ n, s.dist n < ⊤ → n ∈ nodes.map TopologyNode.module) ∧
      ∀ n l, l ∈ s.paths n ↔ l.srcNode = n ∧ l ∈ (hopGraph h attributes).links l.destNode ∧
        s.dist l.destNode < ⊤ := by
  have hclosed : ∀ n, ∀ l ∈ (hopGraph h attributes).links n,
      (hopGraph h attributes).source l ∈ nodes.map TopologyNode.module := fun n l hl =>
    other_mem_of_mem_linksAt h (List.mem_of_mem_filter hl)
  have hnoted : Noted (hopGraph h attributes) [] [] (start target) :=
    ⟨by simp [start], fun _ => List.nodup_nil⟩
  have hnear : Near (start target : SearchState Module Nat) := by
    intro c _ n hn
    by_cases heq : n = target
    · simp [start, heq]
    · simp [start, heq] at hn
  have hexpand : ∀ {v : Module} {rest settled : List Module} {s : SearchState Module Nat},
      Frontier (hopGraph h attributes) target settled [] s →
      Noted (hopGraph h attributes) settled [] s ∧ Near s → s.queue = v :: rest →
      ∃ s', expandUnweighted nodes attributes v { s with queue := rest } = .ok s' ∧
        Frontier (hopGraph h attributes) target (v :: settled) [] s' ∧
        Noted (hopGraph h attributes) (v :: settled) [] s' ∧ Near s' :=
    fun hf hP hqueue => expandUnweighted_frontier hf hP.1 hP.2 hqueue
  have hfuel :
      (nodes.map TopologyNode.module).length ≤ ([] : List Module).length + nodes.length := by
    simp
  obtain ⟨settled, s, hs, hf, ⟨hnoted, -⟩, hqueue⟩ :=
    loop_exact ht hclosed hexpand (frontier_start target) ⟨hnoted, hnear⟩ hfuel
  exact ⟨s, hs, hf.exact hqueue, fun n hn => hf.mem_nodes ht hclosed hn,
    fun n l => hnoted.mem_paths hf hqueue⟩

end

/-! ## The weighted search -/

section

variable [DecidableEq Module] [AddCommMonoid W] [LinearOrder W]

/-- What the assertions of the search ask for. -/
structure Attributes.Positive (attributes : Attributes Module W) : Prop where
  linkWeight : ∀ l, 0 < attributes.linkWeight l
  nodeWeight : ∀ m, 0 ≤ attributes.nodeWeight m

/-- A link costs its weight, and that of the closer node unless the search starts there. -/
def Attributes.cost (attributes : Attributes Module W) (e : End) (initial : Module)
    (l : TopologyLink Module) : WithTop W :=
  attributes.linkWeight l + if l.node e ≠ initial then attributes.nodeWeight (l.node e) else 0

variable [IsOrderedCancelAddMonoid W] {nodes : List (TopologyNode Module)}
  {attributes : Attributes Module W} {e : End} {initial : Module}

theorem Attributes.Positive.cost_pos (h : attributes.Positive) (e : End) (initial : Module)
    (l : TopologyLink Module) : 0 < attributes.cost e initial l := by
  refine (h.linkWeight l).trans_le (le_add_of_nonneg_right ?_)
  split
  · exact h.nodeWeight _
  · exact le_rfl

/-- The graph of the weighted search. -/
def weightGraph (h : WellLinked nodes) (hpos : attributes.Positive) (e : End) (initial : Module) :
    Graph Module (TopologyLink Module) W :=
  searchGraph h (attributes.Usable e) e (attributes.cost e initial) (hpos.cost_pos e initial)

section

variable {h : WellLinked nodes} {hpos : attributes.Positive} {c : Module} {settled : List Module}
  {pending : List (TopologyLink Module)} {s : SearchState Module W} {l : TopologyLink Module}

omit [LinearOrder W] [IsOrderedCancelAddMonoid W] in
theorem newdist_eq (hc : l.node e = c) :
    (if c ≠ initial then s.dist c + attributes.linkWeight l + attributes.nodeWeight c
      else s.dist c + attributes.linkWeight l) = s.dist c + attributes.cost e initial l := by
  rw [Attributes.cost, hc]
  split
  · rw [add_assoc]
  · rw [add_zero]

omit [IsOrderedCancelAddMonoid W] in
/-- A link that improves the label of its other end. -/
theorem visitWeighted_improve (hpos : attributes.Positive) (husable : attributes.Usable e l = true)
    (hc : l.node e = c) (hlt : s.dist c + attributes.cost e initial l < s.dist (l.node e.other)) :
    visitWeighted attributes e initial c s l = .ok {
      dist := Function.update s.dist (l.node e.other) (s.dist c + attributes.cost e initial l)
      paths := Function.update s.paths (l.node e.other)
        (l :: (s.paths (l.node e.other)).filter (· ≠ l))
      queue := (if s.dist (l.node e.other) ≠ ⊤ then s.queue.filter (· ≠ l.node e.other)
        else s.queue).orderedInsert
          (fun a b => Function.update s.dist (l.node e.other)
              (s.dist c + attributes.cost e initial l) a <
            Function.update s.dist (l.node e.other)
              (s.dist c + attributes.cost e initial l) b) (l.node e.other) } := by
  rw [visitWeighted, if_pos husable]
  simp only [newdist_eq hc, bind_eq_ok, ensure_eq_ok]
  refine ⟨(), hpos.linkWeight l, ?_⟩
  rw [if_pos ⟨(hlt.trans_le le_top).ne, hlt⟩]
  rfl

omit [IsOrderedCancelAddMonoid W] in
/-- A link that improves nothing is noted, if it is not there yet. -/
theorem visitWeighted_keep (hpos : attributes.Positive) (husable : attributes.Usable e l = true)
    (hc : l.node e = c) (hle : ¬ s.dist c + attributes.cost e initial l < s.dist (l.node e.other)) :
    visitWeighted attributes e initial c s l = .ok {
      s with
      paths := Function.update s.paths (notingNode (l.node e.other) c e)
        (s.paths (notingNode (l.node e.other) c e) ++
          if l ∉ s.paths (l.node e.other) then [l] else []) } := by
  rw [visitWeighted, if_pos husable]
  simp only [newdist_eq hc, bind_eq_ok, ensure_eq_ok]
  refine ⟨(), hpos.linkWeight l, ?_⟩
  rw [if_neg fun h => hle h.2]
  split
  · rfl
  · rw [List.append_nil, Function.update_eq_self]
    rfl

/-- One link of the node that was settled last. -/
theorem visitWeighted_frontier
    (hf : Frontier (weightGraph h hpos e initial) initial (c :: settled) (l :: pending) s)
    (hl : l ∈ (weightGraph h hpos e initial).links c) :
    ∃ s', visitWeighted attributes e initial c s l = .ok s' ∧
      Frontier (weightGraph h hpos e initial) initial (c :: settled) pending s' := by
  have husable : attributes.Usable e l = true := (List.mem_filter.mp hl).2
  have hc : l.node e = c := linksAt_node h (List.mem_of_mem_filter hl)
  have hq : (if s.dist (l.node e.other) ≠ ⊤ then s.queue.filter (· ≠ l.node e.other)
      else s.queue) = s.queue.filter (· ≠ l.node e.other) := by
    split
    · rfl
    · next hdist => exact (hf.filter_queue (not_not.mp hdist)).symm
  by_cases hlt : s.dist c + attributes.cost e initial l < s.dist (l.node e.other)
  · refine ⟨_, visitWeighted_improve hpos husable hc hlt, hf.improve hl hlt rfl ?_ ?_ ?_ ?_⟩
    · dsimp only
      rw [hq]
      exact List.perm_orderedInsert _ _ _
    · dsimp only
      refine pairwise_orderedInsert ?_
      have hfiltered : (s.queue.filter (· ≠ l.node e.other)).Pairwise fun a b =>
          Function.update s.dist (l.node e.other) (s.dist c + attributes.cost e initial l) a ≤
            Function.update s.dist (l.node e.other) (s.dist c + attributes.cost e initial l) b := by
        refine (hf.sorted.filter _).imp_of_mem fun {a b} ha hb hab => ?_
        rw [List.mem_filter, decide_eq_true_eq] at ha hb
        rwa [Function.update_of_ne ha.2, Function.update_of_ne hb.2]
      rwa [hq]
    · show (Function.update s.paths (l.node e.other) _ (l.node e.other)).head? = some l
      rw [Function.update_self]
      rfl
    · intro m _ (hm : m ≠ l.node e.other)
      exact congrArg List.head? (Function.update_of_ne hm _ _)
  · refine ⟨_, visitWeighted_keep hpos husable hc hlt,
      hf.keep hl (not_lt.mp hlt) rfl rfl fun m hm hne => ?_⟩
    exact hf.head_append hne hm _ _

/-- Against the direction of the links, each node notes its own. -/
theorem visitWeighted_noted {s' : SearchState Module W}
    (hnoted : Noted (weightGraph h hpos .dest initial) (c :: settled) (l :: pending) s)
    (hl : l ∈ (weightGraph h hpos .dest initial).links c) (hpending : l ∉ pending)
    (hvisit : visitWeighted attributes .dest initial c s l = .ok s') :
    Noted (weightGraph h hpos .dest initial) (c :: settled) pending s' := by
  have husable : attributes.Usable .dest l = true := (List.mem_filter.mp hl).2
  have hc : l.destNode = c := linksAt_node h (List.mem_of_mem_filter hl)
  have hnew : l ∉ s.paths l.srcNode := fun hmem =>
    ((hnoted.mem _ _).mp hmem).2.2 List.mem_cons_self
  by_cases hlt : s.dist c + attributes.cost .dest initial l < s.dist l.srcNode
  · rw [visitWeighted_improve hpos husable hc hlt, Except.ok.injEq] at hvisit
    have hfilter : (s.paths l.srcNode).filter (· ≠ l) = s.paths l.srcNode := by
      refine List.filter_eq_self.mpr fun x hx => ?_
      rw [decide_eq_true_eq]
      rintro rfl
      exact hnew hx
    have hpaths : s'.paths = Function.update s.paths l.srcNode (l :: s.paths l.srcNode) := by
      rw [← hvisit]
      show Function.update s.paths l.srcNode (l :: (s.paths l.srcNode).filter (· ≠ l)) = _
      rw [hfilter]
    refine hnoted.note hl hpending (fun x => ?_) ?_ fun n (hn : n ≠ l.srcNode) => ?_
    · show x ∈ s'.paths l.srcNode ↔ x = l ∨ x ∈ s.paths l.srcNode
      rw [hpaths, Function.update_self, List.mem_cons]
    · show (s'.paths l.srcNode).Nodup
      rw [hpaths, Function.update_self]
      exact List.nodup_cons.mpr ⟨hnew, hnoted.nodup _⟩
    · rw [hpaths, Function.update_of_ne hn]
  · rw [visitWeighted_keep hpos husable hc hlt, Except.ok.injEq] at hvisit
    have hpaths : s'.paths = Function.update s.paths l.srcNode (s.paths l.srcNode ++ [l]) := by
      rw [← hvisit]
      show Function.update s.paths l.srcNode (s.paths l.srcNode ++
        if l ∉ s.paths l.srcNode then [l] else []) = _
      rw [if_pos hnew]
    refine hnoted.note hl hpending (fun x => ?_) ?_ fun n (hn : n ≠ l.srcNode) => ?_
    · show x ∈ s'.paths l.srcNode ↔ x = l ∨ x ∈ s.paths l.srcNode
      rw [hpaths, Function.update_self, List.mem_append, List.mem_singleton, or_comm]
    · show (s'.paths l.srcNode).Nodup
      rw [hpaths, Function.update_self]
      exact (hnoted.nodup _).append (List.nodup_singleton l) (List.disjoint_singleton.mpr hnew)
    · rw [hpaths, Function.update_of_ne hn]

/-- All links of the node that was settled last. -/
theorem foldlM_visitWeighted : ∀ {ls : List (TopologyLink Module)} {s : SearchState Module W},
    Frontier (weightGraph h hpos e initial) initial (c :: settled) ls s →
    (e = .dest → Noted (weightGraph h hpos e initial) (c :: settled) ls s) →
    ls.Nodup → (∀ l ∈ ls, l ∈ (weightGraph h hpos e initial).links c) →
    ∃ s', ls.foldlM (visitWeighted attributes e initial c) s = .ok s' ∧
      Frontier (weightGraph h hpos e initial) initial (c :: settled) [] s' ∧
      (e = .dest → Noted (weightGraph h hpos e initial) (c :: settled) [] s')
  | [], s, hf, hnoted, _, _ => ⟨s, rfl, hf, hnoted⟩
  | l :: ls, s, hf, hnoted, hnodup, hls => by
    rw [List.nodup_cons] at hnodup
    have hl := hls l List.mem_cons_self
    obtain ⟨s', hvisit, hf'⟩ := visitWeighted_frontier hf hl
    obtain ⟨s'', hrest, hfinal⟩ := foldlM_visitWeighted hf'
      (fun he => by
        subst he
        exact visitWeighted_noted (hnoted rfl) hl hnodup.1 hvisit)
      hnodup.2 fun l' hl' => hls l' (List.mem_cons_of_mem _ hl')
    refine ⟨s'', ?_, hfinal⟩
    rw [List.foldlM_cons, hvisit]
    exact hrest

omit [IsOrderedCancelAddMonoid W] in
/-- Links that are not usable are passed over. -/
theorem foldlM_visitWeighted_filter (attributes : Attributes Module W) (e : End)
    (initial c : Module) : ∀ (ls : List (TopologyLink Module)) (s : SearchState Module W),
    ls.foldlM (visitWeighted attributes e initial c) s =
      (ls.filter (attributes.Usable e)).foldlM (visitWeighted attributes e initial c) s
  | [], _ => rfl
  | l :: ls, s => by
    by_cases husable : attributes.Usable e l = true
    · rw [List.filter_cons_of_pos husable, List.foldlM_cons, List.foldlM_cons]
      exact congrArg _ (funext fun s' => foldlM_visitWeighted_filter attributes e initial c ls s')
    · have hvisit : visitWeighted attributes e initial c s l = pure s := if_neg husable
      rw [List.filter_cons_of_neg husable, List.foldlM_cons, hvisit]
      exact foldlM_visitWeighted_filter attributes e initial c ls s

theorem expandWeighted_frontier
    (hf : Frontier (weightGraph h hpos e initial) initial settled [] s)
    (hnoted : e = .dest → Noted (weightGraph h hpos e initial) settled [] s) {rest : List Module}
    (hqueue : s.queue = c :: rest) :
    ∃ s', expandWeighted nodes attributes e initial c { s with queue := rest } = .ok s' ∧
      Frontier (weightGraph h hpos e initial) initial (c :: settled) [] s' ∧
      (e = .dest → Noted (weightGraph h hpos e initial) (c :: settled) [] s') := by
  have hc : c ∈ s.queue := by rw [hqueue]; exact List.mem_cons_self
  obtain ⟨s', hs', hf', hnoted'⟩ := foldlM_visitWeighted (hf.settle hqueue)
    (fun he => (hnoted he).settle (hf.apart c hc)) ((linksAt_nodup h).filter _) fun l hl => hl
  refine ⟨s', ?_, hf', hnoted'⟩
  simp only [expandWeighted, bind_eq_ok, ensure_eq_ok]
  refine ⟨(), hpos.nodeWeight c, ?_⟩
  rw [foldlM_visitWeighted_filter]
  exact hs'

end

/-- The search ends: its labels are exact, and against the direction of the links each node has noted
its links to reached nodes. -/
theorem weighted_search (h : WellLinked nodes) (hpos : attributes.Positive) (e : End)
    (hinitial : initial ∈ nodes.map TopologyNode.module) :
    ∃ s, calculateWeightedSingleShortestPaths nodes attributes e initial = .ok s ∧
      Exact (weightGraph h hpos e initial) initial s.toLabels ∧
      (∀ n, s.dist n < ⊤ → n ∈ nodes.map TopologyNode.module) ∧
      (e = .dest → ∀ n l, l ∈ s.paths n ↔ l.srcNode = n ∧
        l ∈ (weightGraph h hpos .dest initial).links l.destNode ∧ s.dist l.destNode < ⊤) := by
  have hclosed : ∀ n, ∀ l ∈ (weightGraph h hpos e initial).links n,
      (weightGraph h hpos e initial).source l ∈ nodes.map TopologyNode.module := fun n l hl =>
    other_mem_of_mem_linksAt h (List.mem_of_mem_filter hl)
  have hnoted : e = .dest → Noted (weightGraph h hpos e initial) [] [] (start initial) :=
    fun _ => ⟨by simp [start], fun _ => List.nodup_nil⟩
  have hexpand : ∀ {c : Module} {rest settled : List Module} {s : SearchState Module W},
      Frontier (weightGraph h hpos e initial) initial settled [] s →
      (e = .dest → Noted (weightGraph h hpos e initial) settled [] s) → s.queue = c :: rest →
      ∃ s', expandWeighted nodes attributes e initial c { s with queue := rest } = .ok s' ∧
        Frontier (weightGraph h hpos e initial) initial (c :: settled) [] s' ∧
        (e = .dest → Noted (weightGraph h hpos e initial) (c :: settled) [] s') :=
    fun hf hnoted hqueue => expandWeighted_frontier hf hnoted hqueue
  have hfuel :
      (nodes.map TopologyNode.module).length ≤ ([] : List Module).length + nodes.length := by
    simp
  obtain ⟨settled, s, hs, hf, hnoted, hqueue⟩ :=
    loop_exact hinitial hclosed hexpand (frontier_start initial) hnoted hfuel
  refine ⟨s, hs, hf.exact hqueue, fun n hn => hf.mem_nodes hinitial hclosed hn, ?_⟩
  rintro rfl n l
  exact (hnoted rfl).mem_paths hf hqueue

end

/-! ## Two hosts and two switches in a line -/

section

variable [DecidableEq Module]

/-- The nodes with the links between them, each stored at both of its ends. -/
def ofLinks (modules : List Module) (links : List (TopologyLink Module)) :
    List (TopologyNode Module) :=
  modules.map fun m =>
    ⟨m, links.filter fun l => l.destNode = m, links.filter fun l => l.srcNode = m⟩

theorem wellLinked_ofLinks {modules : List Module} {links : List (TopologyLink Module)}
    (hmodules : modules.Nodup) (hlinks : links.Nodup)
    (hends : ∀ l ∈ links, l.srcNode ∈ modules ∧ l.destNode ∈ modules) :
    WellLinked (ofLinks modules links) := by
  have hnode : ∀ l ∈ links, ∀ e : End, l.node e ∈ modules := by
    intro l hl e
    cases e with
    | source => exact (hends l hl).1
    | dest => exact (hends l hl).2
  have hmem : ∀ {n : TopologyNode Module}, n ∈ ofLinks modules links → ∀ e,
      n.links e = links.filter fun l => l.node e = n.module := by
    intro n hn e
    obtain ⟨m, -, rfl⟩ := List.mem_map.mp hn
    cases e <;> rfl
  refine ⟨?_, fun e n hn l hl => ?_, fun e n hn => ?_, fun e n hn l hl => ?_⟩
  · have hmap : (ofLinks modules links).map TopologyNode.module = modules := by
      rw [ofLinks, List.map_map]
      exact List.map_id _
    rwa [hmap]
  · rw [hmem hn e, List.mem_filter, decide_eq_true_eq] at hl
    exact hl.2
  · rw [hmem hn e]
    exact hlinks.filter _
  · rw [hmem hn e, List.mem_filter] at hl
    have hother := List.mem_map_of_mem (f := fun m => (⟨m, links.filter fun l => l.destNode = m,
      links.filter fun l => l.srcNode = m⟩ : TopologyNode Module)) (hnode l hl.1 e.other)
    refine ⟨_, hother, ?_⟩
    rw [hmem hother e.other, List.mem_filter, decide_eq_true_eq]
    exact ⟨hl.1, rfl⟩

/-- The attributes that nodes and links are made with. -/
def defaultAttributes : Attributes Module Nat where
  nodeEnabled _ := true
  linkEnabled _ := true
  nodeWeight _ := 0
  linkWeight _ := 1

omit [DecidableEq Module] in
theorem defaultAttributes_positive : (defaultAttributes : Attributes Module Nat).Positive where
  linkWeight _ := by
    show (0 : WithTop Nat) < 1
    decide
  nodeWeight _ := le_rfl

end

inductive LineNode where
  | leftHost
  | leftSwitch
  | rightSwitch
  | rightHost
deriving DecidableEq

/-- A cable, in both directions. The gates of a node are numbered from the left. -/
def cable (a : LineNode) (gateA : Int) (b : LineNode) (gateB : Int) :
    List (TopologyLink LineNode) :=
  [⟨a, gateA, b, gateB⟩, ⟨b, gateB, a, gateA⟩]

def line : List (TopologyNode LineNode) :=
  ofLinks [.leftSwitch, .rightSwitch, .leftHost, .rightHost]
    (cable .leftHost 0 .leftSwitch 0 ++ cable .leftSwitch 1 .rightSwitch 0 ++
      cable .rightSwitch 1 .rightHost 0)

theorem line_wellLinked : WellLinked line :=
  wellLinked_ofLinks (by decide) (by decide) (by decide)

/-! ## The results of the searches -/

section

variable [DecidableEq Module] {nodes : List (TopologyNode Module)}

/-- **The unweighted search labels every node with its distance to the target, and notes at each node
all its links to nodes that reach the target, whether they are on a shortest path or not.** -/
theorem unweighted_labels (h : WellLinked nodes) (attributes : Attributes Module W)
    {target : Module} (ht : target ∈ nodes.map TopologyNode.module) :
    ∃ s, calculateUnweightedSingleShortestPathsTo nodes attributes target = .ok s ∧
      (∀ n, IsDistance (hopGraph h attributes) target n (s.dist n)) ∧
      (∀ n l, l ∈ s.paths n ↔ l.srcNode = n ∧ l ∈ (hopGraph h attributes).links l.destNode ∧
        ∃ ls, Walk (hopGraph h attributes) target l.destNode ls) ∧
      ∀ n, n ≠ target → s.dist n < ⊤ → ∃ l, (s.paths n).head? = some l ∧
        s.dist n = s.dist l.destNode + 1 := by
  obtain ⟨s, hs, hexact, hnodes, hpaths⟩ := unweighted_search h attributes ht
  refine ⟨s, hs, hexact.isDistance hnodes, fun n l => ?_, fun n hn hfinite => ?_⟩
  · rw [hpaths]
    refine and_congr_right fun _ => and_congr_right fun _ => ?_
    constructor
    · intro hfinite
      obtain ⟨ls, hls, -⟩ := (hexact.isDistance hnodes _).attained hfinite
      exact ⟨ls, hls⟩
    · rintro ⟨ls, hls⟩
      refine (hexact.dist_le hls).trans_lt ?_
      rw [length_hopGraph]
      exact WithTop.coe_lt_top _
  · obtain ⟨l, hhead, -, -, hdist⟩ := hexact.first n hn hfinite
    exact ⟨l, hhead, hdist⟩

theorem unweighted_labels_line :
    ((calculateUnweightedSingleShortestPathsTo line defaultAttributes .rightHost).toOption.map
      fun s => s.dist .leftHost) = some 3 ∧
    ∃ s, calculateUnweightedSingleShortestPathsTo line defaultAttributes .rightHost = .ok s ∧
      (∀ n, IsDistance (hopGraph line_wellLinked defaultAttributes) .rightHost n (s.dist n)) ∧
      (∀ n l, l ∈ s.paths n ↔ l.srcNode = n ∧
        l ∈ (hopGraph line_wellLinked defaultAttributes).links l.destNode ∧
        ∃ ls, Walk (hopGraph line_wellLinked defaultAttributes) .rightHost l.destNode ls) ∧
      ∀ n, n ≠ .rightHost → s.dist n < ⊤ → ∃ l, (s.paths n).head? = some l ∧
        s.dist n = s.dist l.destNode + 1 :=
  ⟨by decide +kernel, unweighted_labels line_wellLinked defaultAttributes
    (by decide : LineNode.rightHost ∈ line.map TopologyNode.module)⟩

end

section

variable [DecidableEq Module] [AddCommMonoid W] [LinearOrder W] [IsOrderedCancelAddMonoid W]
  {nodes : List (TopologyNode Module)} {attributes : Attributes Module W} {initial : Module}

/-- **The weighted search labels every node with its distance, in both directions, and the first
links lead along a path of this length.** -/
theorem weighted_labels (h : WellLinked nodes) (hpos : attributes.Positive) (e : End)
    (hinitial : initial ∈ nodes.map TopologyNode.module) :
    ∃ s, calculateWeightedSingleShortestPaths nodes attributes e initial = .ok s ∧
      (∀ n, IsDistance (weightGraph h hpos e initial) initial n (s.dist n)) ∧
      ∀ n, s.dist n < ⊤ → ∃ ls,
        follow (fun l => l.node e) initial s.toLabels nodes.length n = some ls ∧
        Walk (weightGraph h hpos e initial) initial n ls ∧
        length (weightGraph h hpos e initial) ls = s.dist n := by
  obtain ⟨s, hs, hexact, hnodes, -⟩ := weighted_search h hpos e hinitial
  refine ⟨s, hs, hexact.isDistance hnodes, fun n hfinite => ?_⟩
  have hfuel : ((nodes.map TopologyNode.module).filter fun m => s.dist m < s.dist n).length ≤
      nodes.length := (List.length_filter_le _ _).trans_eq (List.length_map _)
  obtain ⟨ls, hfollow, hls, hlength, -⟩ := hexact.follow_eq hnodes hfinite hfuel
  exact ⟨ls, hfollow, hls, hlength⟩

theorem weighted_labels_line :
    ((calculateWeightedSingleShortestPaths line defaultAttributes .dest .rightHost).toOption.map
      fun s => s.dist .leftHost) = some 3 ∧
    ∃ s, calculateWeightedSingleShortestPaths line defaultAttributes .dest .rightHost = .ok s ∧
      (∀ n, IsDistance (weightGraph line_wellLinked defaultAttributes_positive .dest .rightHost)
        .rightHost n (s.dist n)) ∧
      ∀ n, s.dist n < ⊤ → ∃ ls,
        follow (fun l => l.node .dest) .rightHost s.toLabels line.length n = some ls ∧
        Walk (weightGraph line_wellLinked defaultAttributes_positive .dest .rightHost) .rightHost
          n ls ∧
        length (weightGraph line_wellLinked defaultAttributes_positive .dest .rightHost) ls =
          s.dist n :=
  ⟨by decide +kernel, weighted_labels line_wellLinked defaultAttributes_positive .dest
    (by decide : LineNode.rightHost ∈ line.map TopologyNode.module)⟩

end

end CooperativeTsn.NodeGraph
