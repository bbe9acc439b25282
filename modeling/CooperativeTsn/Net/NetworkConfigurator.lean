import CooperativeTsn.Net.ShortestPath

/-!
# Paths for the configurators

`NetworkConfiguratorBase` reads a path off the results of the unweighted search, by its links or by
its nodes.

* `followLinks_of_follow` — the two functions take the same path
* `shortest_path_found` — it is a shortest one, and where there is none both throw
-/

namespace CooperativeTsn.NodeGraph

open Infra.ShortestPath

variable {Module W : Type} [DecidableEq Module]

/-! ## The two functions -/

/--
The loop of `computeShortestLinkPath`. At a node without paths `getPath(0)` throws. There is no
result if the fuel does not last.
-/
def followLinks (s : SearchState Module Nat) (destination : Module) :
    Nat → Module → Option (Except SimError (List (TopologyLink Module)))
  | 0, node => if node = destination then some (.ok []) else none
  | fuel + 1, node =>
    if node = destination then some (.ok [])
    else match (s.paths node).head? with
      | none => some (.error .outOfRange)
      | some link =>
        (followLinks s destination fuel link.destNode).map fun path => (link :: ·) <$> path

def computeShortestLinkPath (nodes : List (TopologyNode Module)) (attributes : Attributes Module W)
    (source destination : Module) : Option (Except SimError (List (TopologyLink Module))) :=
  match calculateUnweightedSingleShortestPathsTo nodes attributes destination with
  | .error e => some (.error e)
  | .ok s => followLinks s destination nodes.length source

/-- The loop of `computeShortestNodePath`. -/
def followNodes (s : SearchState Module Nat) (destination : Module) :
    Nat → Module → Option (Except SimError (List Module))
  | 0, node => if node = destination then some (.ok [destination]) else none
  | fuel + 1, node =>
    if node = destination then some (.ok [destination])
    else match (s.paths node).head? with
      | none => some (.error .outOfRange)
      | some link =>
        (followNodes s destination fuel link.destNode).map fun path => (node :: ·) <$> path

def computeShortestNodePath (nodes : List (TopologyNode Module)) (attributes : Attributes Module W)
    (source destination : Module) : Option (Except SimError (List Module)) :=
  match calculateUnweightedSingleShortestPathsTo nodes attributes destination with
  | .error e => some (.error e)
  | .ok s => followNodes s destination nodes.length source

/-- Where the first links lead to the destination, both loops take them. -/
theorem followLinks_of_follow {s : SearchState Module Nat} {destination : Module} :
    ∀ {fuel : Nat} {node : Module} {ls : List (TopologyLink Module)},
      follow TopologyLink.destNode destination s.toLabels fuel node = some ls →
      followLinks s destination fuel node = some (.ok ls) ∧
        followNodes s destination fuel node = some (.ok (node :: ls.map TopologyLink.destNode))
  | 0, node, ls, h => by
    rw [follow] at h
    split at h
    · next heq =>
      cases h
      rw [followLinks, followNodes, if_pos heq, if_pos heq, heq]
      exact ⟨rfl, rfl⟩
    · cases h
  | fuel + 1, node, ls, h => by
    rw [follow] at h
    rw [followLinks, followNodes]
    by_cases heq : node = destination
    · rw [if_pos heq] at h
      cases h
      rw [if_pos heq, if_pos heq, heq]
      exact ⟨rfl, rfl⟩
    · rw [if_neg heq] at h
      simp only [Option.bind_eq_bind, Option.bind_eq_some_iff, Option.some.injEq] at h
      obtain ⟨link, hhead, rest, hrest, rfl⟩ := h
      obtain ⟨hlinks, hnodes⟩ := followLinks_of_follow hrest
      rw [if_neg heq, if_neg heq, hhead]
      dsimp only
      rw [hlinks, hnodes]
      exact ⟨rfl, rfl⟩

variable {nodes : List (TopologyNode Module)} {source destination : Module}

/-! ## The path is a shortest one -/

/-- Is the link path a shortest one? -/
structure IsShortestPath (g : Graph Module (TopologyLink Module) Nat) (source destination : Module)
    (ls : List (TopologyLink Module)) : Prop where
  walk : Walk g destination source ls
  le : ∀ ls', Walk g destination source ls' → ls.length ≤ ls'.length

/-- The two functions at a node that is reached. -/
theorem computeShortestPath_of_walk (h : WellLinked nodes) (attributes : Attributes Module W)
    (hdestination : destination ∈ nodes.map TopologyNode.module) {ls' : List (TopologyLink Module)}
    (hwalk : Walk (hopGraph h attributes) destination source ls') :
    ∃ ls, computeShortestLinkPath nodes attributes source destination = some (.ok ls) ∧
      computeShortestNodePath nodes attributes source destination =
        some (.ok (source :: ls.map TopologyLink.destNode)) ∧
      IsShortestPath (hopGraph h attributes) source destination ls ∧
      (source :: ls.map TopologyLink.destNode).Nodup := by
  obtain ⟨s, hs, hexact, hnodes, -⟩ := unweighted_search h attributes hdestination
  have hfinite : s.dist source < ⊤ := by
    refine (hexact.dist_le hwalk).trans_lt ?_
    rw [length_hopGraph]
    exact WithTop.coe_lt_top _
  have hfuel : ((nodes.map TopologyNode.module).filter fun m => s.dist m < s.dist source).length ≤
      nodes.length := (List.length_filter_le _ _).trans_eq (List.length_map _)
  obtain ⟨ls, hfollow, hls, hlength, hfalls⟩ := hexact.follow_eq hnodes hfinite hfuel
  obtain ⟨hlinks, hpath⟩ := followLinks_of_follow hfollow
  refine ⟨ls, ?_, ?_, ⟨hls, fun ls'' hls'' => ?_⟩, ?_⟩
  · rw [computeShortestLinkPath, hs]
    exact hlinks
  · rw [computeShortestNodePath, hs]
    exact hpath
  · have hle := hexact.dist_le hls''
    rw [← hlength, length_hopGraph, length_hopGraph] at hle
    exact WithTop.coe_le_coe.mp hle
  · -- the distance falls, so no node comes twice
    refine hfalls.imp fun hlt => ?_
    rintro rfl
    exact hlt.false

/-- At a node that does not reach the destination, `getPath(0)` throws. -/
theorem computeShortestPath_of_no_walk (h : WellLinked nodes) (attributes : Attributes Module W)
    (hdestination : destination ∈ nodes.map TopologyNode.module)
    (hnone : ∀ ls, ¬ Walk (hopGraph h attributes) destination source ls) :
    computeShortestLinkPath nodes attributes source destination = some (.error .outOfRange) ∧
      computeShortestNodePath nodes attributes source destination =
        some (.error .outOfRange) := by
  obtain ⟨s, hs, hexact, hnodes, hpaths⟩ := unweighted_search h attributes hdestination
  have hne : source ≠ destination := by
    rintro rfl
    exact hnone [] .nil
  have hinfinite : ¬ s.dist source < ⊤ := fun hfinite => by
    obtain ⟨ls, hls, -⟩ := (hexact.isDistance hnodes source).attained hfinite
    exact hnone ls hls
  have hhead : (s.paths source).head? = none := by
    rw [List.head?_eq_none_iff, List.eq_nil_iff_forall_not_mem]
    intro l hl
    obtain ⟨rfl, hl, hfinite⟩ := (hpaths _ l).mp hl
    refine hinfinite ((hexact.relaxed _ l hl).trans_lt ?_)
    exact WithTop.add_lt_top.mpr ⟨hfinite, WithTop.one_lt_top⟩
  -- the destination is a node, so that there is fuel for the first step
  obtain ⟨fuel, hfuel⟩ : ∃ fuel, nodes.length = fuel + 1 := by
    obtain ⟨n, hn, -⟩ := List.mem_map.mp hdestination
    exact Nat.exists_eq_add_one.mpr (List.length_pos_of_mem hn)
  constructor
  · rw [computeShortestLinkPath, hs]
    show followLinks s destination nodes.length source = _
    rw [hfuel, followLinks, if_neg hne, hhead]
  · rw [computeShortestNodePath, hs]
    show followNodes s destination nodes.length source = _
    rw [hfuel, followNodes, if_neg hne, hhead]

/-- **The paths of the configurators are shortest ones, without a loop; where the destination cannot
be reached, both functions throw.** -/
theorem shortest_path_found (h : WellLinked nodes) (attributes : Attributes Module W)
    (source : Module) (hdestination : destination ∈ nodes.map TopologyNode.module) :
    (∀ ls', Walk (hopGraph h attributes) destination source ls' → ∃ ls,
      computeShortestLinkPath nodes attributes source destination = some (.ok ls) ∧
      computeShortestNodePath nodes attributes source destination =
        some (.ok (source :: ls.map TopologyLink.destNode)) ∧
      IsShortestPath (hopGraph h attributes) source destination ls ∧
      (source :: ls.map TopologyLink.destNode).Nodup) ∧
    ((∀ ls', ¬ Walk (hopGraph h attributes) destination source ls') →
      computeShortestLinkPath nodes attributes source destination = some (.error .outOfRange) ∧
      computeShortestNodePath nodes attributes source destination =
        some (.error .outOfRange)) :=
  ⟨fun _ hwalk => computeShortestPath_of_walk h attributes hdestination hwalk,
    computeShortestPath_of_no_walk h attributes hdestination⟩

theorem shortest_path_found_line :
    computeShortestNodePath line defaultAttributes .leftHost .rightHost =
      some (.ok [.leftHost, .leftSwitch, .rightSwitch, .rightHost]) ∧
    (∀ ls', Walk (hopGraph line_wellLinked defaultAttributes) .rightHost .leftHost ls' → ∃ ls,
      computeShortestLinkPath line defaultAttributes .leftHost .rightHost = some (.ok ls) ∧
      computeShortestNodePath line defaultAttributes .leftHost .rightHost =
        some (.ok (.leftHost :: ls.map TopologyLink.destNode)) ∧
      IsShortestPath (hopGraph line_wellLinked defaultAttributes) .leftHost .rightHost ls ∧
      (.leftHost :: ls.map TopologyLink.destNode).Nodup) ∧
    ((∀ ls', ¬ Walk (hopGraph line_wellLinked defaultAttributes) .rightHost .leftHost ls') →
      computeShortestLinkPath line defaultAttributes .leftHost .rightHost =
        some (.error .outOfRange) ∧
      computeShortestNodePath line defaultAttributes .leftHost .rightHost =
        some (.error .outOfRange)) :=
  ⟨rfl, shortest_path_found line_wellLinked defaultAttributes .leftHost
    (by decide : LineNode.rightHost ∈ line.map TopologyNode.module)⟩

end CooperativeTsn.NodeGraph
