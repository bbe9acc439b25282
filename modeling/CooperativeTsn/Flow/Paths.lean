import CooperativeTsn.Flow.RoundTrip
import CooperativeTsn.Stream.Release

/-!
# Explicit paths through the configuration text

An entry may name the paths of its flows: `addFlows` reads a list of paths, each a list of node
names. The constructor of a stream reads a list of names, and so it stops at the first path. Only an
entry without any path gets through. It is printed without the field, and is read back with the
shortest path.

* `pathFragments_of_both` — what both readers accept is the empty list
* `paths_never_survive` — no list of paths survives
-/

namespace CooperativeTsn

open Infra.Runs TsnStream

variable {Module : Type}

/-! ## Two readers -/

section

variable [DecidableEq Module] {tree : ModuleTree Module} {topology : Topology Module}
  {entry : ValueMap}

theorem flowFragments_of_key {a b : Module} {fragments : List Value}
    (hkey : entry.containsKey "pathFragments" = true)
    (h : flowFragments tree topology entry a b = .ok fragments) :
    entry.lookup "pathFragments" = some (.array fragments) := by
  rw [flowFragments, if_pos hkey] at h
  simp only [ValueMap.get, bind_eq_ok, require_eq_ok, Value.arrayValue_eq_ok] at h
  obtain ⟨_, hvalue, rfl⟩ := h
  exact hvalue

omit [DecidableEq Module] in
/-- A list of lists is not a list of names. -/
theorem eq_nil_of_both {values : List Value} {paths : List (PathFragment Module)}
    {texts : List String} (hpaths : readPaths tree topology values = .ok paths)
    (htexts : values.mapM Value.stringValue = .ok texts) : values = [] := by
  cases values with
  | nil => rfl
  | cons value values =>
    simp only [readPaths, bind_eq_ok, Value.arrayValue_eq_ok] at hpaths
    simp only [List.mapM_cons, bind_eq_ok, Value.stringValue_eq_ok] at htexts
    obtain ⟨_, rfl, -⟩ := hpaths
    obtain ⟨_, hstring, -⟩ := htexts
    cases hstring

/-- What both readers accept is the empty list. -/
theorem pathFragments_of_both {build : Build} {ops : ValueOps} {parent : Module}
    {externalSourceModule : Option Module} {s : TsnStream Module} {a b : Module}
    {fragments : List Value} {paths : List (PathFragment Module)}
    (hbuilt : construct build tree ops entry parent externalSourceModule = .ok s)
    (hfragments : flowFragments tree topology entry a b = .ok fragments)
    (hpaths : readPaths tree topology fragments = .ok paths) :
    s.pathFragments = [] ∧ (entry.containsKey "pathFragments" = true → fragments = []) := by
  have hread := (construct_ok hbuilt).pathFragments
  by_cases hkey : entry.containsKey "pathFragments" = true
  · rw [ValueMap.getOptional, flowFragments_of_key hkey hfragments] at hread
    simp only [Value.arrayValue, bind_eq_ok, pure_eq_ok, Except.ok.injEq, exists_eq_left'] at hread
    obtain ⟨texts, htexts, hs⟩ := hread
    obtain rfl := eq_nil_of_both hpaths htexts
    rw [List.mapM_nil, pure_eq_ok] at htexts
    rw [← hs, ← htexts]
    exact ⟨rfl, fun _ => rfl⟩
  · have hnone : entry.lookup "pathFragments" = none := by
      rw [ValueMap.containsKey, Bool.not_eq_true, Option.isSome_eq_false_iff,
        Option.isNone_iff_eq_none] at hkey
      exact hkey
    rw [ValueMap.getOptional, hnone, Except.ok.injEq] at hread
    exact ⟨hread.symm, fun h => absurd h hkey⟩

/-- There is always one shortest path. -/
theorem readPaths_shortest_ne_nil {a b : Module} {fragments : List Value}
    {paths : List (PathFragment Module)}
    (hfragments : shortestFragment tree topology a b = .ok fragments)
    (hpaths : readPaths tree topology fragments = .ok paths) : paths ≠ [] := by
  simp only [shortestFragment, bind_eq_ok, pure_eq_ok] at hfragments
  obtain ⟨path, -, rfl⟩ := hfragments
  simp only [readPaths, bind_eq_ok, pure_eq_ok] at hpaths
  obtain ⟨_, -, path, -, _, -, rfl⟩ := hpaths
  exact List.cons_ne_nil path _

end

/-! ## Explicit paths -/

section

variable [DecidableEq Module] (build : Build) (tree : ModuleTree Module) (ops : ValueOps)
  (topology : Topology Module)

/--
The constructor accepts the entry, and what is printed for the stream is read back as flows with the
paths of the flows of the entry.
-/
def PathsSurvive (entry : ValueMap) (parent : Module) (externalSourceModule : Option Module)
    (flows : List (Flow Module)) : Prop :=
  ∃ s printed n n' flows', construct build tree ops entry parent externalSourceModule = .ok s ∧
    printStream tree ops s = .ok printed ∧
    flowsOfPairs tree ops topology printed (nodePairs topology) n = .ok (flows', n') ∧
    flows' ≠ [] ∧ ∀ flow ∈ flows, ∀ flow' ∈ flows', flow'.pathFragments = flow.pathFragments

variable {build tree ops topology} {entry : ValueMap} {parent : Module}
  {externalSourceModule : Option Module} {flows : List (Flow Module)} {n n' : Nat}

/-- **Explicit paths never survive.** -/
theorem paths_never_survive (hkey : entry.containsKey "pathFragments" = true)
    (hflows : flowsOfPairs tree ops topology entry (nodePairs topology) n = .ok (flows, n'))
    (hne : flows ≠ []) :
    ¬ PathsSurvive build tree ops topology entry parent externalSourceModule flows := by
  rintro ⟨s, printed, m, m', flows', hbuilt, hprint, hflows', hne', hsame⟩
  obtain ⟨flow, hflow⟩ := List.exists_mem_of_ne_nil flows hne
  obtain ⟨flow', hflow'⟩ := List.exists_mem_of_ne_nil flows' hne'
  obtain ⟨a, b, _, _, -, -, hmade⟩ := exists_makeFlow_of_mem hflows hflow
  obtain ⟨fragments, hfragments, hpaths⟩ := makeFlow_paths hmade
  obtain ⟨-, hempty⟩ := pathFragments_of_both hbuilt hfragments hpaths
  obtain rfl := hempty hkey
  rw [readPaths, pure_eq_ok] at hpaths
  simp only [printStream, bind_eq_ok, require_eq_ok, ensure_eq_ok, pure_eq_ok] at hprint
  obtain ⟨-, -, app, -, src, -, dst, -, printedFragments, -, rfl⟩ := hprint
  obtain ⟨c, d, _, _, -, -, hmade'⟩ := exists_makeFlow_of_mem hflows' hflow'
  obtain ⟨values, hvalues, hpaths'⟩ := makeFlow_paths hmade'
  obtain ⟨rfl, -⟩ := fragments_of_printed hvalues hpaths'
  rw [flowFragments, ValueMap.containsKey, printedFields_lookup_pathFragments] at hvalues
  refine readPaths_shortest_ne_nil hvalues hpaths' ?_
  rw [hsame flow hflow flow' hflow', ← hpaths]

end

/-! ## The devices of a car -/

/-- The stream to the first device, with paths. -/
def pathLine (paths : List (List String)) : ValueMap :=
  deviceLine ++
    [("pathFragments", .array (paths.map fun path => .array (path.map .string)))]

/-- Without any path the shortest one comes back. -/
theorem empty_paths_lost :
    ∃ flows n', flowsOfPairs carNetwork.tree basicOps carTopology (pathLine [])
        (nodePairs carTopology) 0 = .ok (flows, n') ∧
      ¬ PathsSurvive .debug carNetwork.tree basicOps carTopology (pathLine []) 1 none flows := by
  obtain ⟨⟨flows, n'⟩, hflows, hne⟩ : ∃ r, flowsOfPairs carNetwork.tree basicOps carTopology
      (pathLine []) (nodePairs carTopology) 0 = .ok r ∧ decide (r.1 ≠ []) = true :=
    exists_of_any (by decide +kernel)
  exact ⟨flows, n', hflows,
    paths_never_survive (by decide +kernel) hflows (of_decide_eq_true hne)⟩

/-- The flow takes the path that the entry names, and the stream cannot be built. -/
theorem explicit_path_rejected :
    ((flowsOfPairs carNetwork.tree basicOps carTopology
        (pathLine [["tsnNic.eth0", "tsnDevice[0]"]]) (nodePairs carTopology) 0).toOption.map
        fun r => r.1.map Flow.pathFragments) = some [[⟨[2, 4], [12], [10]⟩]] ∧
      construct .debug carNetwork.tree basicOps (pathLine [["tsnNic.eth0", "tsnDevice[0]"]]) 1
        none = .error .typeMismatch ∧
      ¬ ∃ flows n', flowsOfPairs carNetwork.tree basicOps carTopology
          (pathLine [["tsnNic.eth0", "tsnDevice[0]"]]) (nodePairs carTopology) 0 =
            .ok (flows, n') ∧
        PathsSurvive .debug carNetwork.tree basicOps carTopology
          (pathLine [["tsnNic.eth0", "tsnDevice[0]"]]) 1 none flows := by
  have hrejected : construct .debug carNetwork.tree basicOps
      (pathLine [["tsnNic.eth0", "tsnDevice[0]"]]) 1 none = .error .typeMismatch := by
    decide +kernel
  refine ⟨by decide +kernel, hrejected, ?_⟩
  rintro ⟨flows, n', -, s, _, _, _, _, hbuilt, -⟩
  rw [hrejected] at hbuilt
  cases hbuilt

end CooperativeTsn
