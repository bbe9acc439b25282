import Mathlib.Algebra.BigOperators.Group.List.Basic
import Mathlib.Algebra.GroupWithZero.Nat
import Mathlib.Data.List.Nodup
import Mathlib.Logic.Function.Basic
import Mathlib.Logic.Relation

/-!
# Breadth-first search over ports

A node has ports, and some of them lead to another node. The search keeps a queue of nodes. A node
that is taken from it gets a record of each of its ports that was not seen before, and the nodes
that these ports lead to are queued. The seen set holds ports, so a node can be queued more than once.

* `visit_of_visited`, `visit_of_not_visited` — what a node does to the state
* `run_start` — the queue empties, the nodes that can be reached from the start have got all their
  ports, in order, and the others none
-/

namespace Infra.Traversal

variable {Node Port : Type} [DecidableEq Node] [DecidableEq Port]

/-! ## The search -/

structure State (Node Port : Type) where
  unvisited : List Node
  seen : List Port
  /-- the ports that were recorded for each node -/
  found : Node → List Port

section

variable (ports : Node → List Port) (target : Node → Port → Option Node)

/-- One port of the node `n`. -/
def visitPort (n : Node) (s : State Node Port) (p : Port) : State Node Port :=
  if p ∈ s.seen then s
  else
    { unvisited := s.unvisited ++ (target n p).toList
      seen := p :: s.seen
      found := Function.update s.found n (s.found n ++ [p]) }

def visit (n : Node) (s : State Node Port) : State Node Port :=
  (ports n).foldl (visitPort target n) s

def run : Nat → State Node Port → State Node Port
  | 0, s => s
  | fuel + 1, s =>
    match s.unvisited with
    | [] => s
    | n :: rest => run fuel (visit ports target n { s with unvisited := rest })

def start (root : Node) : State Node Port := ⟨[root], [], fun _ => []⟩

/-- A port of `a` leads to `b`. -/
def Hop (a b : Node) : Prop := ∃ p ∈ ports a, target a p = some b

def Reachable (root n : Node) : Prop := Relation.ReflTransGen (Hop ports target) root n

end

variable {ports : Node → List Port} {target : Node → Port → Option Node}

/-! ## One node -/

theorem foldl_visitPort_of_seen {n : Node} {s : State Node Port} : ∀ {ps : List Port},
    (∀ p ∈ ps, p ∈ s.seen) → ps.foldl (visitPort target n) s = s
  | [], _ => rfl
  | p :: ps, h => by
    rw [List.foldl_cons, visitPort, if_pos (h p List.mem_cons_self)]
    exact foldl_visitPort_of_seen fun q hq => h q (List.mem_cons_of_mem _ hq)

theorem foldl_visitPort_of_new {n : Node} : ∀ {ps : List Port} {s : State Node Port}, ps.Nodup →
    (∀ p ∈ ps, p ∉ s.seen) →
    ps.foldl (visitPort target n) s =
      ⟨s.unvisited ++ ps.filterMap (target n), ps.reverse ++ s.seen,
        Function.update s.found n (s.found n ++ ps)⟩
  | [], s, _, _ => by simp
  | p :: ps, s, hnodup, h => by
    rw [List.nodup_cons] at hnodup
    have hrest : ∀ q ∈ ps, q ∉ p :: s.seen := by
      intro q hq hmem
      rcases List.mem_cons.mp hmem with rfl | hmem
      · exact hnodup.1 hq
      · exact h q (List.mem_cons_of_mem _ hq) hmem
    rw [List.foldl_cons, visitPort, if_neg (h p List.mem_cons_self),
      foldl_visitPort_of_new hnodup.2 hrest]
    cases htarget : target n p <;> simp [htarget]

/-! ## The invariant -/

/-- The ports are told apart by their nodes. -/
structure Separate (ports : Node → List Port) : Prop where
  nodup : ∀ n, (ports n).Nodup
  disjoint : ∀ {n m p}, p ∈ ports n → p ∈ ports m → n = m

/-- The state after the nodes `visited` were taken from the queue. -/
structure Visited (ports : Node → List Port) (target : Node → Port → Option Node) (root : Node)
    (visited : List Node) (s : State Node Port) : Prop where
  seen : ∀ p, p ∈ s.seen ↔ ∃ n ∈ visited, p ∈ ports n
  found : ∀ n, s.found n = if n ∈ visited then ports n else []
  queued : root ∈ visited ∨ root ∈ s.unvisited
  closed : ∀ n ∈ visited, ∀ m, Hop ports target n m → m ∈ visited ∨ m ∈ s.unvisited
  reachable : ∀ n, n ∈ visited ∨ n ∈ s.unvisited → Reachable ports target root n

omit [DecidableEq Port] in
theorem visited_start (root : Node) : Visited ports target root [] (start root) where
  seen := by simp [start]
  found := by simp [start]
  queued := Or.inr List.mem_cons_self
  closed := by simp
  reachable n hn := by
    simp only [start, List.not_mem_nil, false_or, List.mem_singleton] at hn
    rw [hn]
    exact Relation.ReflTransGen.refl

section

variable {root n : Node} {visited rest : List Node} {s : State Node Port}

theorem visit_of_visited (h : Visited ports target root visited s) (hn : n ∈ visited) :
    visit ports target n { s with unvisited := rest } = { s with unvisited := rest } :=
  foldl_visitPort_of_seen fun _ hp => (h.seen _).mpr ⟨n, hn, hp⟩

theorem visit_of_not_visited (hsep : Separate ports) (h : Visited ports target root visited s)
    (hn : n ∉ visited) :
    visit ports target n { s with unvisited := rest } =
      ⟨rest ++ (ports n).filterMap (target n), (ports n).reverse ++ s.seen,
        Function.update s.found n (ports n)⟩ := by
  have hnew : ∀ p ∈ ports n, p ∉ s.seen := by
    intro p hp hseen
    obtain ⟨m, hm, hpm⟩ := (h.seen p).mp hseen
    exact hn (hsep.disjoint hp hpm ▸ hm)
  have hfound : s.found n = [] := by rw [h.found, if_neg hn]
  rw [visit, foldl_visitPort_of_new (s := { s with unvisited := rest }) (hsep.nodup n) hnew, hfound,
    List.nil_append]

/-- One node is taken from the queue. -/
theorem Visited.step (hsep : Separate ports) (h : Visited ports target root visited s)
    (hqueue : s.unvisited = n :: rest) :
    Visited ports target root (n :: visited)
      (visit ports target n { s with unvisited := rest }) := by
  obtain ⟨hseen, hfound, hroot, hclosed, hreach⟩ := h
  rw [hqueue] at hroot hclosed hreach
  -- a node that comes up again changes nothing but the queue
  by_cases hn : n ∈ visited
  · have hmem : ∀ m, m ∈ n :: visited ↔ m ∈ visited := fun m =>
      ⟨fun hm => (List.mem_cons.mp hm).elim (fun he => he ▸ hn) id, List.mem_cons_of_mem _⟩
    have hsplit : ∀ m, (m ∈ visited ∨ m ∈ n :: rest) ↔ (m ∈ visited ∨ m ∈ rest) := by
      intro m
      rw [List.mem_cons]
      constructor
      · rintro (hm | rfl | hm)
        · exact Or.inl hm
        · exact Or.inl hn
        · exact Or.inr hm
      · exact Or.imp_right Or.inr
    rw [visit_of_visited ⟨hseen, hfound, by rwa [hqueue], by rwa [hqueue], by rwa [hqueue]⟩ hn]
    refine ⟨?_, ?_, ?_, ?_, ?_⟩
    · intro p
      simp only [hmem, hseen]
    · intro m
      simp only [hmem, hfound]
    · rw [hmem]
      exact (hsplit root).mp hroot
    · intro m hm k hk
      rw [hmem] at hm ⊢
      exact (hsplit k).mp (hclosed m hm k hk)
    · intro m hm
      rw [hmem] at hm
      exact hreach m ((hsplit m).mpr hm)
  -- a new node: its neighbours are queued, so that it is closed from now on
  · rw [visit_of_not_visited hsep
      ⟨hseen, hfound, by rwa [hqueue], by rwa [hqueue], by rwa [hqueue]⟩ hn]
    have hmem : ∀ m, m ∈ visited ∨ m ∈ n :: rest → m ∈ n :: visited ∨
        m ∈ rest ++ (ports n).filterMap (target n) := by
      intro m hm
      simp only [List.mem_cons, List.mem_append] at hm ⊢
      tauto
    refine ⟨?_, ?_, hmem root hroot, ?_, ?_⟩
    · intro p
      simp only [List.mem_append, List.mem_reverse, hseen, List.exists_mem_cons_iff]
    · intro m
      by_cases hmn : m = n
      · subst hmn
        rw [if_pos List.mem_cons_self]
        exact Function.update_self ..
      · show Function.update s.found n (ports n) m = _
        rw [Function.update_of_ne hmn, hfound]
        simp only [List.mem_cons, hmn, false_or]
    · intro m hm k hk
      rcases List.mem_cons.mp hm with rfl | hm
      · obtain ⟨p, hp, hk⟩ := hk
        exact Or.inr (List.mem_append_right _ (List.mem_filterMap.mpr ⟨p, hp, hk⟩))
      · exact hmem k (hclosed m hm k hk)
    · have hreachn := hreach n (Or.inr List.mem_cons_self)
      intro m hm
      rcases hm with hm | hm
      · rcases List.mem_cons.mp hm with rfl | hm
        · exact hreachn
        · exact hreach m (Or.inl hm)
      · rcases List.mem_append.mp hm with hm | hm
        · exact hreach m (Or.inr (List.mem_cons_of_mem _ hm))
        · obtain ⟨p, hp, hm⟩ := List.mem_filterMap.mp hm
          exact hreachn.tail ⟨p, hp, hm⟩

end

/-! ## The run -/

section

variable {nodes : List Node} {root n : Node} {visited rest : List Node} {s : State Node Port}

/-- What is left to do: the nodes in the queue and the ports of the nodes that were not visited. -/
def remaining (ports : Node → List Port) (nodes visited : List Node) (s : State Node Port) : Nat :=
  s.unvisited.length + ((nodes.filter (· ∉ visited)).map fun n => (ports n).length).sum

theorem remaining_step (hnodup : nodes.Nodup) (hsep : Separate ports)
    (h : Visited ports target root visited s) (hqueue : s.unvisited = n :: rest) (hn : n ∈ nodes) :
    remaining ports nodes (n :: visited) (visit ports target n { s with unvisited := rest }) <
      remaining ports nodes visited s := by
  rw [remaining, remaining, hqueue, List.length_cons]
  by_cases hv : n ∈ visited
  · have hfilter : nodes.filter (· ∉ n :: visited) = nodes.filter (· ∉ visited) := by
      refine List.filter_congr fun m _ => ?_
      have : m ∈ n :: visited ↔ m ∈ visited :=
        ⟨fun hm => (List.mem_cons.mp hm).elim (fun he => he ▸ hv) id, List.mem_cons_of_mem _⟩
      simp only [this]
    rw [visit_of_visited h hv, hfilter]
    dsimp only
    omega
  · have hmem : n ∈ nodes.filter (· ∉ visited) := List.mem_filter.mpr ⟨hn, by simpa using hv⟩
    have hfilter : nodes.filter (· ∉ n :: visited) = (nodes.filter (· ∉ visited)).erase n := by
      rw [(hnodup.filter _).erase_eq_filter, List.filter_filter]
      refine List.filter_congr fun m _ => ?_
      rw [Bool.eq_iff_iff]
      simp [not_or]
    have hsum := List.sum_map_erase (fun n => (ports n).length) hmem
    have hlen : ((ports n).filterMap (target n)).length ≤ (ports n).length :=
      List.length_filterMap_le _ _
    rw [visit_of_not_visited hsep h hv, hfilter, ← hsum, List.length_append]
    omega

/-- Enough fuel empties the queue. -/
theorem run_visited (hnodup : nodes.Nodup) (hsep : Separate ports)
    (hclosed : ∀ n, Reachable ports target root n → n ∈ nodes) : ∀ {fuel : Nat}
      {visited : List Node} {s : State Node Port}, Visited ports target root visited s →
    remaining ports nodes visited s ≤ fuel →
    ∃ visited', Visited ports target root visited' (run ports target fuel s) ∧
      (run ports target fuel s).unvisited = []
  | 0, visited, s, h, hfuel => by
    have hempty : s.unvisited = [] := by
      rw [remaining] at hfuel
      exact List.eq_nil_of_length_eq_zero (by omega)
    exact ⟨visited, h, hempty⟩
  | fuel + 1, visited, s, h, hfuel => by
    rw [run]
    cases hqueue : s.unvisited with
    | nil => exact ⟨visited, h, hqueue⟩
    | cons n rest =>
      have hn : n ∈ nodes := hclosed n (h.reachable n (Or.inr (by rw [hqueue]; simp)))
      have hless := remaining_step hnodup hsep h hqueue hn
      exact run_visited hnodup hsep hclosed (h.step hsep hqueue) (by omega)

/-- The fuel that a search needs: one step for the start and one for each port. -/
def fuelFor (ports : Node → List Port) (nodes : List Node) : Nat :=
  1 + (nodes.map fun n => (ports n).length).sum

/-- **The search ends, and finds the ports of the nodes that can be reached.** -/
theorem run_start (hnodup : nodes.Nodup) (hsep : Separate ports)
    (hclosed : ∀ n, Reachable ports target root n → n ∈ nodes) :
    (run ports target (fuelFor ports nodes) (start root)).unvisited = [] ∧
    ∀ n, (Reachable ports target root n →
        (run ports target (fuelFor ports nodes) (start root)).found n = ports n) ∧
      (¬ Reachable ports target root n →
        (run ports target (fuelFor ports nodes) (start root)).found n = []) := by
  have hfuel : remaining ports nodes [] (start root) ≤ fuelFor ports nodes := by
    simp [remaining, start, fuelFor]
  obtain ⟨visited, h, hempty⟩ := run_visited hnodup hsep hclosed (visited_start root) hfuel
  have hmem : ∀ n, Reachable ports target root n → n ∈ visited := by
    intro n hn
    induction hn with
    | refl => exact h.queued.resolve_right (by rw [hempty]; simp)
    | tail _ hhop ih => exact (h.closed _ ih _ hhop).resolve_right (by rw [hempty]; simp)
  refine ⟨hempty, fun n => ⟨fun hn => ?_, fun hn => ?_⟩⟩
  · rw [h.found, if_pos (hmem n hn)]
  · rw [h.found, if_neg fun hv => hn (h.reachable n (Or.inl hv))]

end

end Infra.Traversal
