import CooperativeTsn.Infra.Runs
import Mathlib.Algebra.BigOperators.Group.List.Basic
import Mathlib.Algebra.Order.Monoid.WithTop
import Mathlib.Data.List.Nodup
import Mathlib.Data.List.Sort

/-!
# Shortest paths to a target

A search labels the nodes of a graph with their distances to a target. It starts at the target and
takes the nodes from a queue; a node that is taken improves the labels at the other ends of the
links that lead to it. How the queue is kept sorted is left to the search.

* `Exact.isDistance` — labels that no link improves, and that some path attains, are the distances
* `Exact.follow_eq` — the first links lead to the target, on a shortest path
* `Frontier.improve`, `Frontier.keep` — what a search may do at a link
* `loop_exact` — such a search ends, with exact labels
-/

namespace Infra.ShortestPath

open Infra.Runs

variable {Node Link W Error : Type*}

/-! ## Walks -/

/-- A graph, as it is seen from the ends of its links. -/
structure Graph (Node Link W : Type*) [AddCommMonoid W] [LinearOrder W] where
  /-- the links that lead to a node, in the order in which they are looked at -/
  links : Node → List Link
  source : Link → Node
  dest : Link → Node
  /-- infinite for a link that cannot be used -/
  cost : Link → WithTop W
  dest_eq : ∀ {n l}, l ∈ links n → dest l = n
  cost_pos : ∀ {n l}, l ∈ links n → 0 < cost l

section

variable [AddCommMonoid W] [LinearOrder W]

/-- The links from a node to the target `t`, each of which starts where the one before it ends. -/
inductive Walk (g : Graph Node Link W) (t : Node) : Node → List Link → Prop
  | nil : Walk g t t []
  | cons {l : Link} {ls : List Link} {n : Node} : l ∈ g.links n → Walk g t n ls →
      Walk g t (g.source l) (l :: ls)

def length (g : Graph Node Link W) (ls : List Link) : WithTop W := (ls.map g.cost).sum

@[simp] theorem length_nil (g : Graph Node Link W) : length g [] = 0 := rfl

@[simp] theorem length_cons (g : Graph Node Link W) (l : Link) (ls : List Link) :
    length g (l :: ls) = g.cost l + length g ls := rfl

/-- The distance of a node: no walk is shorter, and one is as short if any is finite. -/
structure IsDistance (g : Graph Node Link W) (t n : Node) (d : WithTop W) : Prop where
  le : ∀ ls, Walk g t n ls → d ≤ length g ls
  attained : d < ⊤ → ∃ ls, Walk g t n ls ∧ length g ls = d

theorem IsDistance.unique {g : Graph Node Link W} {t n : Node} {d d' : WithTop W}
    (h : IsDistance g t n d) (h' : IsDistance g t n d') : d = d' := by
  have hle : ∀ {a b : WithTop W}, IsDistance g t n a → IsDistance g t n b → a ≤ b := by
    intro a b ha hb
    by_cases hfinite : b < ⊤
    · obtain ⟨ls, hls, hb⟩ := hb.attained hfinite
      exact hb ▸ ha.le ls hls
    · rw [not_lt_top_iff.mp hfinite]
      exact le_top
  exact le_antisymm (hle h h') (hle h' h)

/-- The labels of a search: a distance for each node, and the links that it may start with. -/
structure Labels (Node Link W : Type*) where
  dist : Node → WithTop W
  paths : Node → List Link

/-- Labels that no link improves, and that the first link of each node attains. -/
structure Exact (g : Graph Node Link W) (t : Node) (s : Labels Node Link W) : Prop where
  target : s.dist t = 0
  relaxed : ∀ n, ∀ l ∈ g.links n, s.dist (g.source l) ≤ s.dist n + g.cost l
  first : ∀ n, n ≠ t → s.dist n < ⊤ → ∃ l, (s.paths n).head? = some l ∧ g.source l = n ∧
    l ∈ g.links (g.dest l) ∧ s.dist n = s.dist (g.dest l) + g.cost l

end

section

variable [AddCommMonoid W] [LinearOrder W] [IsOrderedCancelAddMonoid W] {g : Graph Node Link W}
  {t n : Node} {s : Labels Node Link W}

theorem Exact.dist_le (h : Exact g t s) {ls : List Link} (hwalk : Walk g t n ls) :
    s.dist n ≤ length g ls := by
  induction hwalk with
  | nil => rw [h.target, length_nil]
  | @cons l ls n hl _ ih =>
    calc s.dist (g.source l) ≤ s.dist n + g.cost l := h.relaxed n l hl
      _ ≤ length g ls + g.cost l := add_le_add_left ih _
      _ = length g (l :: ls) := by rw [length_cons, add_comm]

/-- On the way to the target the distance falls. -/
theorem dist_dest_lt {l : Link} (hl : l ∈ g.links (g.dest l)) (hfinite : s.dist n < ⊤)
    (hdist : s.dist n = s.dist (g.dest l) + g.cost l) : s.dist (g.dest l) < s.dist n := by
  rw [hdist] at hfinite ⊢
  have hne : s.dist (g.dest l) ≠ ⊤ := fun htop => by simp [htop] at hfinite
  have hlt := WithTop.add_lt_add_left hne (g.cost_pos hl)
  rwa [add_zero] at hlt

/-! ## Following the first links -/

variable [DecidableEq Node]

/-- Follows the first link of each node. There is none at a node without paths. -/
def follow (dest : Link → Node) (t : Node) (s : Labels Node Link W) :
    Nat → Node → Option (List Link)
  | 0, n => if n = t then some [] else none
  | fuel + 1, n =>
    if n = t then some []
    else do
      let l ← (s.paths n).head?
      let ls ← follow dest t s fuel (dest l)
      some (l :: ls)

/--
From a node with a finite distance the first links lead to the target, on a shortest path. The fuel
counts the nodes that are closer: each link leads to one of them.
-/
theorem Exact.follow_eq (h : Exact g t s) {nodes : List Node}
    (hnodes : ∀ m, s.dist m < ⊤ → m ∈ nodes) : ∀ {fuel : Nat} {n : Node}, s.dist n < ⊤ →
    (nodes.filter fun m => s.dist m < s.dist n).length ≤ fuel →
    ∃ ls, follow g.dest t s fuel n = some ls ∧ Walk g t n ls ∧ length g ls = s.dist n ∧
      (n :: ls.map g.dest).Pairwise fun a b => s.dist b < s.dist a
  | fuel, n, hfinite, hfuel => by
    by_cases hn : n = t
    · subst hn
      refine ⟨[], ?_, .nil, h.target.symm, List.pairwise_singleton _ _⟩
      cases fuel <;> rw [follow, if_pos rfl]
    · obtain ⟨l, hhead, hsource, hl, hdist⟩ := h.first n hn hfinite
      have hlt := dist_dest_lt hl hfinite hdist
      have hmem : g.dest l ∈ nodes.filter fun m => s.dist m < s.dist n :=
        List.mem_filter.mpr ⟨hnodes _ (hlt.trans hfinite), by simpa using hlt⟩
      -- the node behind the link is closer, but not closer than itself
      have hless : (nodes.filter fun m => s.dist m < s.dist (g.dest l)).length <
          (nodes.filter fun m => s.dist m < s.dist n).length := by
        have hfilter : (nodes.filter fun m => s.dist m < s.dist (g.dest l)) =
            (nodes.filter fun m => s.dist m < s.dist n).filter
              fun m => s.dist m < s.dist (g.dest l) := by
          rw [List.filter_filter]
          refine List.filter_congr fun m _ => ?_
          rw [Bool.eq_iff_iff]
          simpa using fun hm => hm.trans hlt
        rw [hfilter]
        refine List.length_filter_lt_length_iff_exists.mpr ⟨_, hmem, ?_⟩
        simp
      match fuel with
      | 0 => omega
      | fuel + 1 =>
        obtain ⟨ls, hfollow, hwalk, hlength, hfalls⟩ :=
          h.follow_eq hnodes (hlt.trans hfinite) (by omega : _ ≤ fuel)
        refine ⟨l :: ls, ?_, hsource ▸ .cons hl hwalk, ?_, ?_⟩
        · rw [follow, if_neg hn, hhead]
          show (follow g.dest t s fuel (g.dest l)).bind (fun ls => some (l :: ls)) = _
          rw [hfollow]
          rfl
        · rw [length_cons, hlength, hdist, add_comm]
        · refine List.pairwise_cons.mpr ⟨fun b hb => ?_, hfalls⟩
          rcases List.mem_cons.mp hb with rfl | hb
          · exact hlt
          · exact ((List.pairwise_cons.mp hfalls).1 b hb).trans hlt

/-- **Exact labels are the distances.** -/
theorem Exact.isDistance (h : Exact g t s) {nodes : List Node}
    (hnodes : ∀ m, s.dist m < ⊤ → m ∈ nodes) (n : Node) : IsDistance g t n (s.dist n) where
  le _ hwalk := h.dist_le hwalk
  attained hfinite := by
    obtain ⟨ls, -, hwalk, hlength, -⟩ := h.follow_eq hnodes hfinite le_rfl
    exact ⟨ls, hwalk, hlength⟩

end

/-! ## Searching -/

section

variable [AddCommMonoid W] [LinearOrder W]

structure State (Node Link W : Type*) extends Labels Node Link W where
  queue : List Node

/--
A search under way. Nodes that were taken from the queue are settled, the last one first; the links
to the last one that are still to be looked at are pending.
-/
structure Frontier (g : Graph Node Link W) (t : Node) (settled : List Node) (pending : List Link)
    (s : State Node Link W) : Prop where
  target : s.dist t = 0
  nonneg : ∀ n, 0 ≤ s.dist n
  reached : ∀ n, s.dist n < ⊤ ↔ n ∈ settled ∨ n ∈ s.queue
  settled_nodup : settled.Nodup
  queue_nodup : s.queue.Nodup
  apart : ∀ n ∈ s.queue, n ∉ settled
  order : settled.Pairwise fun a b => s.dist b ≤ s.dist a
  sorted : s.queue.Pairwise fun a b => s.dist a ≤ s.dist b
  behind : ∀ a ∈ settled, ∀ b ∈ s.queue, s.dist a ≤ s.dist b
  relaxed : ∀ n ∈ settled, ∀ l ∈ g.links n, l ∉ pending →
    s.dist (g.source l) ≤ s.dist n + g.cost l
  first : ∀ n, n ≠ t → s.dist n < ⊤ → ∃ l, (s.paths n).head? = some l ∧ g.source l = n ∧
    l ∈ g.links (g.dest l) ∧ g.dest l ∈ settled ∧ s.dist n = s.dist (g.dest l) + g.cost l

variable {g : Graph Node Link W} {t c : Node} {settled : List Node} {pending : List Link}
  {s s' : State Node Link W}

/-- When the queue is empty the labels are exact. -/
theorem Frontier.exact (h : Frontier g t settled [] s) (hqueue : s.queue = []) :
    Exact g t s.toLabels where
  target := h.target
  relaxed n l hl := by
    by_cases hn : s.dist n < ⊤
    · have hsettled := (h.reached n).mp hn
      rw [hqueue] at hsettled
      exact h.relaxed n (hsettled.resolve_right List.not_mem_nil) l hl List.not_mem_nil
    · rw [not_lt_top_iff.mp hn, WithTop.top_add]
      exact le_top
  first n hn hfinite := by
    obtain ⟨l, hhead, hsource, hl, -, hdist⟩ := h.first n hn hfinite
    exact ⟨l, hhead, hsource, hl, hdist⟩

/-- The next node is taken from the queue. -/
theorem Frontier.settle (h : Frontier g t settled [] s) {rest : List Node}
    (hqueue : s.queue = c :: rest) :
    Frontier g t (c :: settled) (g.links c) { s with queue := rest } := by
  obtain ⟨htarget, hnonneg, hreached, hsettled, hnodup, hapart, horder, hsorted, hbehind, hrelaxed,
    hfirst⟩ := h
  rw [hqueue] at hnodup hapart hsorted hbehind
  rw [List.nodup_cons] at hnodup
  rw [List.pairwise_cons] at hsorted
  refine ⟨htarget, hnonneg, fun n => ?_, ?_, hnodup.2, fun n hn => ?_, ?_, hsorted.2, ?_, ?_, ?_⟩
  · rw [hreached, hqueue, List.mem_cons, List.mem_cons]
    tauto
  · exact List.nodup_cons.mpr ⟨hapart c List.mem_cons_self, hsettled⟩
  · rw [List.mem_cons, not_or]
    exact ⟨fun heq => hnodup.1 (heq ▸ hn), hapart n (List.mem_cons_of_mem _ hn)⟩
  · exact List.pairwise_cons.mpr ⟨fun b hb => hbehind b hb c List.mem_cons_self, horder⟩
  · intro a ha b hb
    rcases List.mem_cons.mp ha with rfl | ha
    · exact hsorted.1 b hb
    · exact hbehind a ha b (List.mem_cons_of_mem _ hb)
  · intro n hn l hl hpending
    rcases List.mem_cons.mp hn with rfl | hn
    · exact absurd hl hpending
    · exact hrelaxed n hn l hl List.not_mem_nil
  · intro n hn hfinite
    obtain ⟨l, hhead, hsource, hl, hdest, hdist⟩ := hfirst n hn hfinite
    exact ⟨l, hhead, hsource, hl, List.mem_cons_of_mem _ hdest, hdist⟩

/-- A link that improves nothing is passed over; other links may be noted behind the first ones. -/
theorem Frontier.keep {l : Link} (h : Frontier g t (c :: settled) (l :: pending) s)
    (hl : l ∈ g.links c) (hle : s.dist (g.source l) ≤ s.dist c + g.cost l)
    (hdist : s'.dist = s.dist) (hqueue : s'.queue = s.queue)
    (hpaths : ∀ n, s.dist n < ⊤ → n ≠ t → (s'.paths n).head? = (s.paths n).head?) :
    Frontier g t (c :: settled) pending s' := by
  obtain ⟨htarget, hnonneg, hreached, hsettled, hnodup, hapart, horder, hsorted, hbehind, hrelaxed,
    hfirst⟩ := h
  refine ⟨?_, ?_, ?_, hsettled, ?_, ?_, ?_, ?_, ?_, ?_, ?_⟩
  all_goals try rw [hqueue]
  all_goals try rw [hdist]
  all_goals try assumption
  · intro n hn l' hl' hpending
    by_cases heq : l' = l
    · subst heq
      rw [← g.dest_eq hl', g.dest_eq hl]
      exact hle
    · exact hrelaxed n hn l' hl' fun hmem => (List.mem_cons.mp hmem).elim heq hpending
  · intro n hn hfinite
    rw [hpaths n hfinite hn]
    exact hfirst n hn hfinite

/--
Each node has noted the links from it to a settled node, once, apart from the pending ones.
-/
structure Noted (g : Graph Node Link W) (settled : List Node) (pending : List Link)
    (s : State Node Link W) : Prop where
  mem : ∀ n l, l ∈ s.paths n ↔
    g.source l = n ∧ (∃ c ∈ settled, l ∈ g.links c) ∧ l ∉ pending
  nodup : ∀ n, (s.paths n).Nodup

theorem Noted.settle (h : Noted g settled [] s) (hc : c ∉ settled) {rest : List Node} :
    Noted g (c :: settled) (g.links c) { s with queue := rest } where
  mem n l := by
    rw [h.mem]
    refine and_congr_right fun _ => ?_
    constructor
    · rintro ⟨⟨m, hm, hl⟩, -⟩
      -- a link leads to one node only
      refine ⟨⟨m, List.mem_cons_of_mem _ hm, hl⟩, fun hlc => hc ?_⟩
      rwa [← g.dest_eq hlc, g.dest_eq hl]
    · rintro ⟨⟨m, hm, hl⟩, hpending⟩
      rcases List.mem_cons.mp hm with rfl | hm
      · exact absurd hl hpending
      · exact ⟨⟨m, hm, hl⟩, List.not_mem_nil⟩
  nodup := h.nodup

/-- The link is added to the links of its source. -/
theorem Noted.note {l : Link} (h : Noted g (c :: settled) (l :: pending) s) (hl : l ∈ g.links c)
    (hpending : l ∉ pending)
    (hmem : ∀ x, x ∈ s'.paths (g.source l) ↔ x = l ∨ x ∈ s.paths (g.source l))
    (hnodup : (s'.paths (g.source l)).Nodup)
    (hpaths : ∀ n, n ≠ g.source l → s'.paths n = s.paths n) :
    Noted g (c :: settled) pending s' where
  mem n x := by
    by_cases hn : n = g.source l
    · subst hn
      rw [hmem, h.mem, List.mem_cons, not_or]
      by_cases hx : x = l
      · subst hx
        exact iff_of_true (Or.inl rfl) ⟨rfl, ⟨c, List.mem_cons_self, hl⟩, hpending⟩
      · tauto
    · rw [hpaths n hn, h.mem, List.mem_cons, not_or]
      refine and_congr_right fun hsource => and_congr_right fun _ => and_iff_right ?_
      rintro rfl
      exact hn hsource.symm
  nodup n := by
    by_cases hn : n = g.source l
    · rw [hn]
      exact hnodup
    · rw [hpaths n hn]
      exact h.nodup n

/-- In the end a node has noted its links to the nodes that are reached. -/
theorem Noted.mem_paths (h : Noted g settled [] s) (hf : Frontier g t settled [] s)
    (hqueue : s.queue = []) {n : Node} {l : Link} :
    l ∈ s.paths n ↔ g.source l = n ∧ l ∈ g.links (g.dest l) ∧ s.dist (g.dest l) < ⊤ := by
  have hreached : ∀ m, m ∈ settled ↔ s.dist m < ⊤ := by
    intro m
    rw [hf.reached, hqueue]
    simp
  rw [h.mem]
  refine and_congr_right fun _ => ?_
  constructor
  · rintro ⟨⟨m, hm, hl⟩, -⟩
    rw [g.dest_eq hl]
    exact ⟨hl, (hreached m).mp hm⟩
  · rintro ⟨hl, hfinite⟩
    exact ⟨⟨_, (hreached _).mpr hfinite, hl⟩, List.not_mem_nil⟩

end

section

variable [AddCommMonoid W] [LinearOrder W] [IsOrderedCancelAddMonoid W] [DecidableEq Node]
  {g : Graph Node Link W} {t c : Node} {settled : List Node} {pending : List Link}
  {s s' : State Node Link W}

/-- A link that improves the label of its source: the source goes to its new place in the queue. -/
theorem Frontier.improve {l : Link} (h : Frontier g t (c :: settled) (l :: pending) s)
    (hl : l ∈ g.links c) (hlt : s.dist c + g.cost l < s.dist (g.source l))
    (hdist : s'.dist = Function.update s.dist (g.source l) (s.dist c + g.cost l))
    (hqueue : s'.queue.Perm (g.source l :: s.queue.filter (· ≠ g.source l)))
    (hsorted : s'.queue.Pairwise fun a b => s'.dist a ≤ s'.dist b)
    (hhead : (s'.paths (g.source l)).head? = some l)
    (hpaths : ∀ n, s.dist n < ⊤ → n ≠ g.source l → (s'.paths n).head? = (s.paths n).head?) :
    Frontier g t (c :: settled) pending s' := by
  have hle : ∀ a ∈ c :: settled, s.dist a ≤ s.dist c + g.cost l := by
    intro a ha
    have hstep : s.dist c ≤ s.dist c + g.cost l := le_add_of_nonneg_right (g.cost_pos hl).le
    rcases List.mem_cons.mp ha with rfl | ha
    · exact hstep
    · exact ((List.pairwise_cons.mp h.order).1 a ha).trans hstep
  -- a settled node has no label that could be improved
  have hopen : g.source l ∉ c :: settled := fun hmem => (hlt.trans_le (hle _ hmem)).false
  have hsame : ∀ n, n ≠ g.source l → s'.dist n = s.dist n := by
    intro n hn
    rw [hdist, Function.update_of_ne hn]
  have hnew : s'.dist (g.source l) = s.dist c + g.cost l := by rw [hdist, Function.update_self]
  have hlower : ∀ n, s'.dist n ≤ s.dist n := by
    intro n
    by_cases hn : n = g.source l
    · rw [hn, hnew]
      exact hlt.le
    · rw [hsame n hn]
  have hsettled : ∀ a ∈ c :: settled, s'.dist a = s.dist a := fun a ha =>
    hsame a fun heq => hopen (heq ▸ ha)
  have hmem : ∀ n, n ∈ s'.queue ↔ n = g.source l ∨ n ∈ s.queue ∧ n ≠ g.source l := by
    intro n
    rw [hqueue.mem_iff, List.mem_cons, List.mem_filter, decide_eq_true_eq]
  have hzero : 0 ≤ s.dist c + g.cost l := add_nonneg (h.nonneg c) (g.cost_pos hl).le
  refine ⟨?_, fun n => ?_, fun n => ?_, h.settled_nodup, ?_, fun n hn => ?_, ?_, hsorted, ?_, ?_,
    ?_⟩
  · by_cases ht : t = g.source l
    · rw [← ht, h.target] at hlt
      exact absurd hzero hlt.not_ge
    · rw [hsame t ht, h.target]
  · by_cases hn : n = g.source l
    · rw [hn, hnew]
      exact hzero
    · rw [hsame n hn]
      exact h.nonneg n
  · by_cases hn : n = g.source l
    · rw [hn, hnew]
      exact iff_of_true (hlt.trans_le le_top) (Or.inr ((hmem _).mpr (Or.inl rfl)))
    · rw [hsame n hn, h.reached, hmem]
      tauto
  · exact hqueue.nodup_iff.mpr (List.nodup_cons.mpr ⟨by simp, h.queue_nodup.filter _⟩)
  · rcases (hmem n).mp hn with rfl | ⟨hn, -⟩
    · exact hopen
    · exact h.apart n hn
  · refine h.order.imp_of_mem fun ha hb hab => ?_
    rwa [hsettled _ ha, hsettled _ hb]
  · intro a ha b hb
    rw [hsettled a ha]
    rcases (hmem b).mp hb with rfl | ⟨hb, hne⟩
    · rw [hnew]
      exact hle a ha
    · rw [hsame b hne]
      exact h.behind a ha b hb
  · intro n hn l' hl' hpending
    rw [hsettled n hn]
    by_cases heq : l' = l
    · subst heq
      rw [hnew, ← g.dest_eq hl', g.dest_eq hl]
    · refine (hlower _).trans (h.relaxed n hn l' hl' fun hmem' => ?_)
      exact (List.mem_cons.mp hmem').elim heq hpending
  · intro n hn hfinite
    by_cases hsource : n = g.source l
    · subst hsource
      have hdest := g.dest_eq hl
      refine ⟨l, hhead, rfl, by rwa [hdest], by rw [hdest]; exact List.mem_cons_self, ?_⟩
      rw [hnew, hdest, hsettled c List.mem_cons_self]
    · rw [hsame n hsource] at hfinite ⊢
      obtain ⟨l', hhead', hsource', hl', hdest, hdist'⟩ := h.first n hn hfinite
      refine ⟨l', ?_, hsource', hl', hdest, ?_⟩
      · rw [hpaths n hfinite hsource]
        exact hhead'
      · rw [hsettled _ hdest]
        exact hdist'

omit [IsOrderedCancelAddMonoid W] in
/-- A node that was not reached is not in the queue. -/
theorem Frontier.filter_queue (h : Frontier g t settled pending s) {n : Node} (hn : s.dist n = ⊤) :
    s.queue.filter (· ≠ n) = s.queue := by
  refine List.filter_eq_self.mpr fun a ha => ?_
  have hreached := (h.reached a).mpr (Or.inr ha)
  rw [decide_eq_true_eq]
  rintro rfl
  rw [hn] at hreached
  exact hreached.false

omit [IsOrderedCancelAddMonoid W] in
/-- Links that are noted behind the first one leave it in its place. -/
theorem Frontier.head_append (h : Frontier g t settled pending s) {n : Node} (hn : n ≠ t)
    (hfinite : s.dist n < ⊤) (m : Node) (ls : List Link) :
    (Function.update s.paths m (s.paths m ++ ls) n).head? = (s.paths n).head? := by
  by_cases hm : n = m
  · subst hm
    obtain ⟨l, hhead, -⟩ := h.first n hn hfinite
    rw [Function.update_self, List.head?_append, hhead]
    rfl
  · rw [Function.update_of_ne hm]

omit [DecidableEq Node] in
/-- A queue stays sorted when a node is inserted before the first one that is further away. -/
theorem pairwise_orderedInsert {Key : Type*} [LinearOrder Key] {key : Node → Key} {n : Node} :
    ∀ {q : List Node}, (q.Pairwise fun a b => key a ≤ key b) →
    (q.orderedInsert (fun a b => key a < key b) n).Pairwise fun a b => key a ≤ key b
  | [], _ => List.pairwise_singleton _ n
  | b :: q, h => by
    obtain ⟨hb, hq⟩ := List.pairwise_cons.mp h
    rw [List.orderedInsert]
    split
    · next hlt =>
      refine List.pairwise_cons.mpr ⟨fun x hx => ?_, h⟩
      rcases List.mem_cons.mp hx with rfl | hx
      · exact hlt.le
      · exact hlt.le.trans (hb x hx)
    · next hlt =>
      refine List.pairwise_cons.mpr ⟨fun x hx => ?_, pairwise_orderedInsert hq⟩
      rcases (List.mem_orderedInsert _).mp hx with rfl | hx
      · exact not_lt.mp hlt
      · exact hb x hx

/-! ## The loop -/

/-- The labels before the search: only the target is reached. -/
def start (t : Node) : State Node Link W :=
  { dist := fun n => if n = t then 0 else ⊤, paths := fun _ => [], queue := [t] }

omit [IsOrderedCancelAddMonoid W] in
theorem frontier_start (t : Node) : Frontier g t [] [] (start t) where
  target := if_pos rfl
  nonneg n := by
    rw [start]
    dsimp only
    split
    · exact le_rfl
    · exact le_top
  reached n := by
    by_cases hn : n = t <;> simp [start, hn]
  settled_nodup := List.nodup_nil
  queue_nodup := List.nodup_singleton t
  apart := fun _ _ => List.not_mem_nil
  order := .nil
  sorted := List.pairwise_singleton _ t
  behind := by simp
  relaxed := by simp
  first n hn hfinite := by simp [start, hn] at hfinite

/-- Takes nodes from the queue, at most `fuel` of them. -/
def loop (visit : Node → State Node Link W → Except Error (State Node Link W)) :
    Nat → State Node Link W → Except Error (State Node Link W)
  | 0, s => .ok s
  | fuel + 1, s =>
    match s.queue with
    | [] => .ok s
    | n :: rest =>
      match visit n { s with queue := rest } with
      | .error e => .error e
      | .ok s => loop visit fuel s

omit [IsOrderedCancelAddMonoid W] [DecidableEq Node] in
theorem Frontier.mem_nodes (h : Frontier g t settled pending s) {nodes : List Node} (ht : t ∈ nodes)
    (hclosed : ∀ n, ∀ l ∈ g.links n, g.source l ∈ nodes) {n : Node} (hn : s.dist n < ⊤) :
    n ∈ nodes := by
  by_cases heq : n = t
  · rwa [heq]
  · obtain ⟨l, -, rfl, hl, -⟩ := h.first n heq hn
    exact hclosed _ l hl

omit [IsOrderedCancelAddMonoid W] [DecidableEq Node] in
/--
A search that goes on from frontier to frontier ends. The fuel counts the nodes that are not settled
yet; `P` is what a search keeps besides.
-/
theorem loop_exact {visit : Node → State Node Link W → Except Error (State Node Link W)}
    {P : List Node → State Node Link W → Prop} {nodes : List Node} (ht : t ∈ nodes)
    (hclosed : ∀ n, ∀ l ∈ g.links n, g.source l ∈ nodes)
    (hvisit : ∀ {c rest settled s}, Frontier g t settled [] s → P settled s →
      s.queue = c :: rest → ∃ s', visit c { s with queue := rest } = .ok s' ∧
        Frontier g t (c :: settled) [] s' ∧ P (c :: settled) s') :
    ∀ {fuel : Nat} {settled : List Node} {s : State Node Link W}, Frontier g t settled [] s →
    P settled s → nodes.length ≤ settled.length + fuel →
    ∃ settled' s', loop visit fuel s = .ok s' ∧ Frontier g t settled' [] s' ∧ P settled' s' ∧
      s'.queue = []
  | 0, settled, s, h, hP, hfuel => by
    refine ⟨settled, s, rfl, h, hP, ?_⟩
    cases hqueue : s.queue with
    | nil => rfl
    | cons c rest =>
      -- all nodes are settled already
      have hsettle := h.settle hqueue
      have hsub : c :: settled ⊆ nodes := fun n hn =>
        hsettle.mem_nodes ht hclosed ((hsettle.reached n).mpr (Or.inl hn))
      have hlength := (List.subperm_of_subset hsettle.settled_nodup hsub).length_le
      rw [List.length_cons] at hlength
      omega
  | fuel + 1, settled, s, h, hP, hfuel => by
    rw [loop]
    cases hqueue : s.queue with
    | nil => exact ⟨settled, s, rfl, h, hP, hqueue⟩
    | cons c rest =>
      obtain ⟨s', hs', h', hP'⟩ := hvisit h hP hqueue
      dsimp only
      rw [hs']
      exact loop_exact ht hclosed hvisit h' hP' (by rw [List.length_cons]; omega)

end

end Infra.ShortestPath
