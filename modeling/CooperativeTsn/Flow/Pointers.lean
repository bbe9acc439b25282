import CooperativeTsn.App.Forwarding
import CooperativeTsn.Flow.Paths

/-!
# The modules of a stream

`operator<<` follows the pointers that the constructor has filled. Source and destination are looked
up below the parent, the application in the source module if its name has an index, and in the
parent otherwise. `addFlows` looks the application up in the node that the flow starts at.

* `PointersRight.exists_printed` — a stream with these modules can be printed
* `pointers_right_iff` — the constructor finds what `addFlows` finds iff the flows of the entry
  start where it looks the application up
-/

namespace CooperativeTsn

open Infra.Runs TsnStream

variable {Module Address : Type}

/-! ## Pointers that can be followed -/

/-- All modules exist, and the application is the one that `addFlows` resolves. -/
structure PointersRight (tree : ModuleTree Module) (topology : Topology Module) (entry : ValueMap)
    (s : TsnStream Module) : Prop where
  sourceModule : s.sourceModule ≠ none
  destinationModule : s.destinationModule ≠ none
  applicationModule : s.applicationModule ≠ none
  pathFragments : ∀ m ∈ s.pathFragments, m ≠ none
  resolved : ∀ application, entry.getString "application" = .ok application →
    ∀ a b, (a, b) ∈ nodePairs topology → matchesPair tree entry a b = .ok true →
      tree.getModuleByPath a.module ("." ++ application) = s.applicationModule

section

variable {tree : ModuleTree Module} {ops : ValueOps} {topology : Topology Module} {entry : ValueMap}
  {s : TsnStream Module}

theorem exists_mapM_id : ∀ {modules : List (Option Module)}, (∀ m ∈ modules, m ≠ none) →
    ∃ found, modules.mapM id = some found
  | [], _ => ⟨[], rfl⟩
  | m :: modules, h => by
    obtain ⟨hm, hmodules⟩ := List.forall_mem_cons.mp h
    obtain ⟨m, rfl⟩ := Option.ne_none_iff_exists'.mp hm
    obtain ⟨found, hfound⟩ := exists_mapM_id hmodules
    exact ⟨m :: found, by rw [List.mapM_cons, hfound]; rfl⟩

/-- Nothing is missing when the stream is printed. -/
theorem PointersRight.exists_printed (h : PointersRight tree topology entry s)
    (hname : Printable s.streamName) : ∃ printed, printStream tree ops s = .ok printed := by
  obtain ⟨app, happ⟩ := Option.ne_none_iff_exists'.mp h.applicationModule
  obtain ⟨src, hsrc⟩ := Option.ne_none_iff_exists'.mp h.sourceModule
  obtain ⟨dst, hdst⟩ := Option.ne_none_iff_exists'.mp h.destinationModule
  obtain ⟨fragments, hfragments⟩ := exists_mapM_id h.pathFragments
  simp only [printStream, bind_eq_ok, require_eq_ok, ensure_eq_ok, pure_eq_ok]
  exact ⟨_, (), hname, app, happ, src, hsrc, dst, hdst, fragments, hfragments, rfl⟩

/-- The first pointer that is followed is the application. -/
theorem printStream_of_missing (hname : Printable s.streamName) (h : s.applicationModule = none) :
    printStream tree ops s = .error .nullPointer := by
  rw [printStream, ensure, if_pos hname, h]
  rfl

variable [DecidableEq Module]

/-- The application of a flow is looked up in the node that the flow starts at. -/
theorem makeFlow_application {a b : Node Module} {flow : Flow Module} {n n' : Nat}
    (h : makeFlow tree ops topology entry a b n = .ok (flow, n')) (ha : a ∈ topology.nodes) :
    ∃ application, entry.getString "application" = .ok application ∧
      tree.getModuleByPath a.module ("." ++ application) = some flow.startApplication.module := by
  simp only [makeFlow, bind_eq_ok, pure_eq_ok, require_eq_ok, Topology.getDevice_eq_ok,
    Prod.mk.injEq] at h
  obtain ⟨_, -, _, -, _, -, _, -, _, -, _, -, _, -, device, ⟨hdevice, hmodule⟩, _, -, application,
    happ, m, hm, _, -, _, -, _, -, rfl, -⟩ := h
  rw [topology.node_ext (Topology.mem_nodes_of_mem_devices hdevice) ha hmodule] at hm
  exact ⟨application, happ, hm⟩

/-- The flows of the entry start at the application of the stream. -/
theorem PointersRight.startApplication (h : PointersRight tree topology entry s) {n n' : Nat}
    {flows : List (Flow Module)}
    (hflows : flowsOfPairs tree ops topology entry (nodePairs topology) n = .ok (flows, n')) :
    ∀ flow ∈ flows, s.applicationModule = some flow.startApplication.module := by
  intro flow hflow
  obtain ⟨a, b, _, _, hpair, hmatch, hmade⟩ := exists_makeFlow_of_mem hflows hflow
  obtain ⟨application, happ, hfound⟩ := makeFlow_application hmade (mem_nodePairs.mp hpair).1
  rw [← h.resolved application happ a b hpair hmatch, hfound]

end

/-! ## The entries -/

/--
An entry from which `addFlows` builds a flow, with an application that is given by its name, or one
that `adaptSchedule` makes.
-/
inductive Given [DecidableEq Module] (env : Surroundings Module Address)
    (topology : Topology Module) : ValueMap → Module → Prop
  | configured {entry : ValueMap} {parent : Module} {flows : List (Flow Module)} {n n' : Nat}
      {name : String} {index : Option Nat} :
      flowsOfPairs env.tree env.ops topology entry (nodePairs topology) n = .ok (flows, n') →
      flows ≠ [] → entry.getString "application" = .ok (indexedName name index) → IsName name →
      Given env topology entry parent
  | received (site : Site env.tree) (pcp : Int) (destination : String) (totalLength : Int) :
      Given env topology (newConfigLine env site pcp destination totalLength) site.car

/--
The modules `src` and `dst` are below the parent, the application `m` is in the module where the
constructor looks it up, and that is where the flows of the entry start.
-/
structure FoundBelow (tree : ModuleTree Module) (topology : Topology Module) (entry : ValueMap)
    (parent src dst p m : Module) : Prop where
  source : ∃ text, entry.getString "source" = .ok text ∧
    tree.findModuleByPath (tree.getFullPath parent ++ "." ++ text) = some src
  destination : ∃ text, entry.getString "destination" = .ok text ∧
    tree.findModuleByPath (tree.getFullPath parent ++ "." ++ text) = some dst
  application : ∃ text, entry.getString "application" = .ok text ∧
    p = (if '[' ∈ text.toList then src else parent) ∧ tree.getParentModule m = some p ∧
    tree.getFullName m = text
  start : ∀ a b, (a, b) ∈ nodePairs topology → matchesPair tree entry a b = .ok true → a.module = p

section

variable [DecidableEq Module] {env : Surroundings Module Address} {topology : Topology Module}
  {entry : ValueMap} {parent : Module}

/-- The application of such an entry is given by its name. -/
theorem Given.application (h : Given env topology entry parent) :
    ∃ name index, entry.getString "application" = .ok (indexedName name index) ∧ IsName name := by
  cases h with
  | configured _ _ happ hname => exact ⟨_, _, happ, hname⟩
  | received site => exact ⟨_, _, rfl, env.tree.getName_chars site.this⟩

/-- Such an entry has no explicit paths, if the constructor accepts it. -/
theorem Given.pathFragments (h : Given env topology entry parent) {build : Build}
    {externalSourceModule : Option Module} {s : TsnStream Module}
    (hbuilt : construct build env.tree env.ops entry parent externalSourceModule = .ok s) :
    s.pathFragments = [] := by
  cases h with
  | configured hflows hne =>
    obtain ⟨flow, hflow⟩ := List.exists_mem_of_ne_nil _ hne
    obtain ⟨a, b, _, _, -, -, hmade⟩ := exists_makeFlow_of_mem hflows hflow
    obtain ⟨fragments, hfragments, hpaths⟩ := makeFlow_paths hmade
    exact (pathFragments_of_both hbuilt hfragments hpaths).1
  | received site pcp destination totalLength =>
    have hread := (construct_ok hbuilt).pathFragments
    have hnone : (newConfigLine env site pcp destination totalLength).lookup "pathFragments" =
        none := rfl
    rw [ValueMap.getOptional, hnone, Except.ok.injEq] at hread
    exact hread.symm

/--
**The constructor finds what `addFlows` finds iff** the modules are below the parent, and the flows
of the entry start where it looks the application up.
-/
theorem pointers_right_iff (hgiven : Given env topology entry parent) {build : Build}
    {externalSourceModule : Option Module} {s : TsnStream Module}
    (hbuilt : construct build env.tree env.ops entry parent externalSourceModule = .ok s) :
    PointersRight env.tree topology entry s ↔
      ∃ src dst p m, FoundBelow env.tree topology entry parent src dst p m := by
  obtain ⟨name, index, happ, hname⟩ := hgiven.application
  obtain ⟨⟨source, hsource, hsrc⟩, ⟨destination, hdest, hdst⟩, hlookup, -⟩ := construct_ok hbuilt
  rw [ValueMap.getOptional, ValueMap.getString_eq_ok.mp happ] at hlookup
  have hfound := fun m => lookUpApplication_eq_some_iff (m := m) hname hlookup
  constructor
  · rintro ⟨hs, hd, ha, -, hresolved⟩
    obtain ⟨src, hsrc'⟩ := Option.ne_none_iff_exists'.mp hs
    obtain ⟨dst, hdst'⟩ := Option.ne_none_iff_exists'.mp hd
    obtain ⟨m, hm⟩ := Option.ne_none_iff_exists'.mp ha
    obtain ⟨p, hp, hparent, hfull⟩ := (hfound m).mp hm
    refine ⟨src, dst, p, m, ⟨source, hsource, by rw [← hsrc, hsrc']⟩,
      ⟨destination, hdest, by rw [← hdst, hdst']⟩, ⟨_, happ, ?_, hparent, hfull⟩, ?_⟩
    -- with an index the application is looked up in the source module, otherwise in the parent
    · rw [lookupModule, hsrc'] at hp
      split at hp
      · next hin => rw [if_pos hin, Option.some.inj hp]
      · next hno => rw [if_neg hno, Option.some.inj hp]
    · intro a b hpair hmatch
      have h := hresolved _ happ a b hpair hmatch
      rw [hm, ← hfull, ModuleTree.getFullName, env.tree.getModuleByPath_child, hparent,
        Option.some.injEq] at h
      exact h.symm
  · rintro ⟨src, dst, p, m, ⟨_, hsource', hsrc'⟩, ⟨_, hdest', hdst'⟩,
      ⟨_, happ', hp, hparent, hfull⟩, hstart⟩
    rw [hsource, Except.ok.injEq] at hsource'
    rw [hdest, Except.ok.injEq] at hdest'
    rw [happ, Except.ok.injEq] at happ'
    subst hsource' hdest' happ'
    rw [hsrc'] at hsrc
    rw [hdst'] at hdst
    have hm : s.applicationModule = some m := by
      refine (hfound m).mpr ⟨p, ?_, hparent, hfull⟩
      rw [lookupModule, hsrc, hp]
      split <;> rfl
    refine ⟨by simp [hsrc], by simp [hdst], by simp [hm], by simp [hgiven.pathFragments hbuilt], ?_⟩
    intro application happ' a b hpair hmatch
    rw [happ, Except.ok.injEq] at happ'
    subst happ'
    rw [hm, hstart a b hpair hmatch, ← hfull, ModuleTree.getFullName,
      env.tree.getModuleByPath_child, hparent]

end

/-! ## A car -/

/-- The application `app[0]` of the network card is found by both. -/
theorem pointers_right_indexed :
    PointersRight carNetwork.tree carTopology deviceLine deviceStream := by
  obtain ⟨⟨flows, n'⟩, hflows, hne⟩ : ∃ r, flowsOfPairs carNetwork.tree basicOps carTopology
      deviceLine (nodePairs carTopology) 0 = .ok r ∧ decide (r.1 ≠ []) = true :=
    exists_of_any (by decide +kernel)
  have hgiven : Given carSurroundings carTopology deviceLine 1 :=
    .configured hflows (of_decide_eq_true hne)
      (rfl : _ = Except.ok (indexedName "app" (some 0))) (carNetwork.name_chars 3)
  have hbuilt : construct .debug carSurroundings.tree carSurroundings.ops deviceLine 1 none =
      .ok deviceStream := by decide +kernel
  refine (pointers_right_iff hgiven hbuilt).mpr
    ⟨2, 4, 2, 3, ⟨_, rfl, by decide +kernel⟩, ⟨_, rfl, by decide +kernel⟩,
      ⟨_, rfl, by decide +kernel, by decide +kernel, by decide +kernel⟩, ?_⟩
  have hstart : ∀ r ∈ nodePairs carTopology,
      matchesPair carNetwork.tree deviceLine r.1 r.2 = .ok true → r.1.module = 2 := by
    decide +kernel
  exact fun a b => hstart (a, b)

/-- An application without an index, in a host of the network. -/
def unitSite : Site carSurroundings.tree where
  this := 6
  host := 1
  car := 0
  host_parent := rfl
  car_parent := rfl

/-- The application is looked up in the network, which has none of that name. -/
theorem plain_application_missing :
    Given carSurroundings carTopology (newConfigLine carSurroundings unitSite 0 "rsu" 800) 0 ∧
      ∃ s, construct .debug carNetwork.tree basicOps
          (newConfigLine carSurroundings unitSite 0 "rsu" 800) 0 (some 9) = .ok s ∧
        ¬ PointersRight carNetwork.tree carTopology
          (newConfigLine carSurroundings unitSite 0 "rsu" 800) s ∧
        printStream carNetwork.tree basicOps s = .error .nullPointer := by
  obtain ⟨s, hbuilt, hs⟩ : ∃ s, construct .debug carNetwork.tree basicOps
      (newConfigLine carSurroundings unitSite 0 "rsu" 800) 0 (some 9) = .ok s ∧
        decide (s.applicationModule = none ∧
          (s.streamName.toList.all fun c => c != '"' && c != '\\') = true) = true :=
    exists_of_any (by decide +kernel)
  obtain ⟨hnone, hall⟩ := of_decide_eq_true hs
  have hname := printable_of_all hall
  exact ⟨.received unitSite 0 "rsu" 800, s, hbuilt, fun h => h.applicationModule hnone,
    printStream_of_missing hname hnone⟩

end CooperativeTsn
