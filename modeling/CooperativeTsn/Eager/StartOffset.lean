import CooperativeTsn.Eager.Bookings

/-!
# The start of a flow

`computeStreamStartOffset` moves the start of a flow by the delays that its first packet would have,
until there is none.

* `delayOnFragment_eq` — the delay on a fragment leads to no start behind one without waiting
* `shift_eq_zero` — late enough nothing is in the way
* `exists_computeStartOffset` — the loop over the fragments ends
* `startOffset_exists` — the search ends, with one path at the first start without waiting
-/

namespace CooperativeTsn.Eager

open Infra.Runs Infra.Reservation Infra.Worklist

variable {Module Nic State : Type}

/-! ## On the way -/

namespace WiredNetwork

variable (net : WiredNetwork Module Nic)

theorem transmissionDuration_nonneg (nic : Nic) {packetLength : Int} (h : 0 ≤ packetLength) :
    0 ≤ net.transmissionDuration nic packetLength := by
  have hquotient : (0 : Rat) ≤ packetLength / net.datarate nic :=
    div_nonneg (by exact_mod_cast h) (net.datarate_pos nic).le
  rw [transmissionDuration, toSimTime, Rat.le_floor_iff]
  push_cast
  linarith

theorem propagationDelay_nonneg (nic : Nic) : 0 ≤ net.propagationDelay nic := by
  unfold propagationDelay
  cases hdelay : net.channelDelay nic with
  | none => exact Int.le_refl 0
  | some delay => exact net.channelDelay_nonneg nic delay hdelay

/-- The interfaces that a packet leaves by on its way along the nodes. -/
def findNetworkInterfaces : List Module → Except Halt (List Nic)
  | m :: next :: nodes => do
    let networkInterface ← net.findNetworkInterface m next
    let networkInterfaces ← findNetworkInterfaces (next :: nodes)
    pure (networkInterface :: networkInterfaces)
  | _ => pure []

variable {net} {nodes : List Module} {nic : Nic} {nics : List Nic}

theorem findNetworkInterfaces_nil (h : net.findNetworkInterfaces nodes = .ok []) :
    nodes = [] ∨ ∃ m, nodes = [m] := by
  match nodes with
  | [] => exact Or.inl rfl
  | [m] => exact Or.inr ⟨m, rfl⟩
  | m :: next :: nodes =>
    simp only [findNetworkInterfaces, bind_eq_ok, pure_eq_ok] at h
    obtain ⟨_, -, _, -, h⟩ := h
    cases h

theorem findNetworkInterfaces_cons (h : net.findNetworkInterfaces nodes = .ok (nic :: nics)) :
    ∃ m next rest, nodes = m :: next :: rest ∧ net.findNetworkInterface m next = .ok nic ∧
      net.findNetworkInterfaces (next :: rest) = .ok nics := by
  match nodes with
  | [] => cases h
  | [m] => cases h
  | m :: next :: rest =>
    simp only [findNetworkInterfaces, bind_eq_ok, pure_eq_ok, List.cons.injEq] at h
    obtain ⟨_, hnic, _, hrest, rfl, rfl⟩ := h
    exact ⟨m, next, rest, rfl, hnic, hrest⟩

end WiredNetwork

section

variable {net : WiredNetwork Module Nic} {s : InterfaceSchedules Nic} {packetLength : Int}

/-- A packet that waits nowhere finds its slots free at all interfaces. -/
def Unhindered (net : WiredNetwork Module Nic) (s : InterfaceSchedules Nic) (packetLength : Int) :
    List Nic → Int → Prop
  | [], _ => True
  | nic :: nics, t =>
    Free (net.interFrameGap nic) (net.transmissionDuration nic packetLength) (s nic) t ∧
      Unhindered net s packetLength nics
        (t + net.transmissionDuration nic packetLength + net.propagationDelay nic)

variable (s packetLength) in
/-- **The delay on a fragment is zero iff the packet waits nowhere, and leads to no start behind one
without waiting.** -/
theorem delayOnFragment_eq {nics : List Nic} : ∀ {nodes : List Module} (shift t : Int)
    (path : List String), net.findNetworkInterfaces nodes = .ok nics →
    ∃ delay t' path', delayOnFragment net s packetLength shift nodes t path =
        .ok (shift + delay, t', path') ∧
      (delay = 0 ↔ Unhindered net s packetLength nics t) ∧
      ∀ start, t ≤ start → Unhindered net s packetLength nics start → t + delay ≤ start := by
  induction nics with
  | nil =>
    intro nodes shift t path hnics
    refine ⟨0, t, path, ?_, by simp [Unhindered], fun start h _ => by omega⟩
    rcases WiredNetwork.findNetworkInterfaces_nil hnics with rfl | ⟨m, rfl⟩
    · simp only [delayOnFragment, Int.add_zero]
      rfl
    · simp only [delayOnFragment, Int.add_zero]
      rfl
  | cons nic nics ih =>
    intro nodes shift t path hnics
    obtain ⟨m, next, rest, rfl, hnic, hrest⟩ := WiredNetwork.findNetworkInterfaces_cons hnics
    have hself : net.gateOpenTime s packetLength nic t = t ↔ Free (net.interFrameGap nic)
      (net.transmissionDuration nic packetLength) (s nic) t := findGateOpenTime_eq_self
    simp only [delayOnFragment, bind_eq_ok, hnic, Except.ok.injEq, exists_eq_left']
    by_cases hfree : Free (net.interFrameGap nic) (net.transmissionDuration nic packetLength)
      (s nic) t
    · -- no delay here, but perhaps later
      obtain ⟨delay, t', path', hdelay, hzero, hleast⟩ := ih shift
        (t + net.transmissionDuration nic packetLength + net.propagationDelay nic)
        (path ++ [net.tree.getFullName m]) hrest
      refine ⟨delay, t', path', ?_, ?_, fun start hstart h => ?_⟩
      · have htime := hself.mpr hfree
        rw [if_neg (by omega), htime]
        exact hdelay
      · rw [hzero, Unhindered]
        exact (and_iff_right hfree).symm
      · have := hleast _ (by omega) h.2
        omega
    · have hne := mt hself.mp hfree
      refine ⟨net.gateOpenTime s packetLength nic t - t, _, _, if_pos (by omega),
        iff_of_false (by omega) fun h => hfree h.1, fun start hstart h => ?_⟩
      have hle : net.gateOpenTime s packetLength nic t ≤ start := findGateOpenTime_le hstart h.1
      omega

/-- A packet does not travel back in time, and the nodes that it leaves are on its path. -/
theorem delayOnFragment_path (hlength : 0 ≤ packetLength) (nodes : List Module) :
    ∀ {shift shift' t t' : Int} {path path' : List String},
      delayOnFragment net s packetLength shift nodes t path = .ok (shift', t', path') →
      t ≤ t' ∧ path ⊆ path' ∧
        (2 ≤ nodes.length → ∀ m ∈ nodes.head?, net.tree.getFullName m ∈ path') := by
  induction nodes with
  | nil =>
    intro shift shift' t t' path path' h
    simp only [delayOnFragment, pure_eq_ok, Prod.mk.injEq] at h
    obtain ⟨-, rfl, rfl⟩ := h
    exact ⟨Int.le_refl t, List.Subset.refl path, fun h => absurd h (by simp)⟩
  | cons m nodes ih =>
    intro shift shift' t t' path path' h
    cases nodes with
    | nil =>
      simp only [delayOnFragment, pure_eq_ok, Prod.mk.injEq] at h
      obtain ⟨-, rfl, rfl⟩ := h
      exact ⟨Int.le_refl t, List.Subset.refl path, fun h => absurd h (by simp)⟩
    | cons next nodes =>
      simp only [delayOnFragment, bind_eq_ok] at h
      obtain ⟨nic, -, h⟩ := h
      have hextend : path ⊆ path ++ [net.tree.getFullName m] := List.subset_append_left _ _
      have hleft : net.tree.getFullName m ∈ path ++ [net.tree.getFullName m] := by simp
      split at h
      · simp only [pure_eq_ok, Prod.mk.injEq] at h
        obtain ⟨-, rfl, rfl⟩ := h
        refine ⟨Int.le_refl t, hextend, fun _ m' hm' => ?_⟩
        rw [← Option.some.inj hm']
        exact hleft
      · obtain ⟨htime, hsubset, -⟩ := ih h
        have hduration := net.transmissionDuration_nonneg nic hlength
        have hpropagation := net.propagationDelay_nonneg nic
        refine ⟨by omega, List.Subset.trans hextend hsubset, fun _ m' hm' => ?_⟩
        rw [← Option.some.inj hm']
        exact hsubset hleft

/-! ## Late enough -/

/-- All slots of the interfaces end a gap before the time. -/
def Over (net : WiredNetwork Module Nic) (s : InterfaceSchedules Nic) (nics : List Nic) (t : Int) :
    Prop :=
  ∀ nic ∈ nics, ∀ slot ∈ s nic, slot.gateCloseTime + net.interFrameGap nic ≤ t

theorem Over.unhindered (hlength : 0 ≤ packetLength) : ∀ {nics : List Nic} {t : Int},
    Over net s nics t → Unhindered net s packetLength nics t
  | [], _, _ => trivial
  | nic :: nics, t, h => by
    have hduration := net.transmissionDuration_nonneg nic hlength
    have hpropagation := net.propagationDelay_nonneg nic
    refine ⟨fun slot hslot => Or.inl (h nic List.mem_cons_self slot hslot),
      Over.unhindered hlength fun nic' hnic' slot hslot => ?_⟩
    have := h nic' (List.mem_cons_of_mem _ hnic') slot hslot
    omega

theorem Over.mono {nics : List Nic} {t t' : Int} (h : Over net s nics t) (ht : t ≤ t') :
    Over net s nics t' := fun nic hnic slot hslot => (h nic hnic slot hslot).trans ht

/-- There is a time when all slots are over. -/
theorem exists_over (net : WiredNetwork Module Nic) (s : InterfaceSchedules Nic)
    (nics : List Nic) : ∃ t, 0 ≤ t ∧ Over net s nics t := by
  induction nics with
  | nil => exact ⟨0, Int.le_refl 0, nofun⟩
  | cons nic nics ih =>
    obtain ⟨t, hnonneg, ht⟩ := ih
    obtain ⟨t', ht'⟩ : ∃ t' : Int, ∀ slot ∈ s nic,
        slot.gateCloseTime + net.interFrameGap nic ≤ t' := by
      induction s nic with
      | nil => exact ⟨0, nofun⟩
      | cons slot slots ih =>
        obtain ⟨t', ht'⟩ := ih
        refine ⟨max t' (slot.gateCloseTime + net.interFrameGap nic), List.forall_mem_cons.mpr
          ⟨Int.le_max_right _ _, fun slot' hslot' => ?_⟩⟩
        exact (ht' slot' hslot').trans (Int.le_max_left _ _)
    refine ⟨max t t', by omega, List.forall_mem_cons.mpr
      ⟨fun slot hslot => (ht' slot hslot).trans (Int.le_max_right _ _),
        ht.mono (Int.le_max_left _ _)⟩⟩

theorem exists_over_fragments (net : WiredNetwork Module Nic) (s : InterfaceSchedules Nic) :
    ∀ fragments : List (PathFragment Module), ∃ t, 0 ≤ t ∧ ∀ fragment ∈ fragments, ∀ nics,
      net.findNetworkInterfaces fragment.networkNodes = .ok nics → Over net s nics t
  | [] => ⟨0, Int.le_refl 0, nofun⟩
  | fragment :: fragments => by
    obtain ⟨t, hnonneg, ht⟩ := exists_over_fragments net s fragments
    obtain ⟨t', hnonneg', ht'⟩ : ∃ t', 0 ≤ t' ∧ ∀ nics,
        net.findNetworkInterfaces fragment.networkNodes = .ok nics → Over net s nics t' := by
      cases net.findNetworkInterfaces fragment.networkNodes with
      | error e => exact ⟨0, Int.le_refl 0, nofun⟩
      | ok nics =>
        obtain ⟨t', hnonneg', ht'⟩ := exists_over net s nics
        refine ⟨t', hnonneg', fun nics' h => ?_⟩
        rw [Except.ok.injEq] at h
        exact h ▸ ht'
    refine ⟨max t t', by omega, List.forall_mem_cons.mpr ⟨fun nics h => ?_, fun f hf nics h => ?_⟩⟩
    · exact (ht' nics h).mono (Int.le_max_right _ _)
    · exact (ht f hf nics h).mono (Int.le_max_left _ _)

/-! ## All fragments -/

/-- The interfaces on a fragment are known, and it leads on or ends at the end device. -/
structure Walkable (net : WiredNetwork Module Nic) (endDevice : Module) (nodes : List Module) :
    Prop where
  nics : ∃ nics, net.findNetworkInterfaces nodes = .ok nics
  nonempty : nodes ≠ []
  leads : 2 ≤ nodes.length ∨
    ∀ m ∈ nodes.getLast?, net.tree.getFullName m = net.tree.getFullName endDevice

variable {flow : Flow Module} {fuel : Nat}

/-- Late enough nothing is in the way of the packet. -/
theorem shift_eq_zero (hwalkable : ∀ fragment ∈ flow.pathFragments,
      Walkable net flow.endDevice fragment.networkNodes)
    (hlength : 0 ≤ flow.startApplication.packetLength) {t startTime shift : Int}
    (hover : ∀ fragment ∈ flow.pathFragments, ∀ nics,
      net.findNetworkInterfaces fragment.networkNodes = .ok nics → Over net s nics t)
    (hstart : t ≤ startTime)
    (h : computeStartOffsetForPathFragments net fuel flow startTime s = .ok shift) : shift = 0 := by
  refine forPathFragments_invariant (I := fun shift => shift = 0) (P := fun time => t ≤ time)
    (fun fragment hfragment shift time path shift' time' path' hwalk hI htime => ?_) hstart h rfl
  obtain ⟨nics, hnics⟩ := (hwalkable fragment hfragment).nics
  obtain ⟨delay, t', p', hdelay, hzero, -⟩ := delayOnFragment_eq s
    flow.startApplication.packetLength shift time path hnics
  have hfree := ((hover fragment hfragment nics hnics).mono htime).unhindered hlength
  obtain ⟨hle, -⟩ := delayOnFragment_path hlength _ hwalk
  rw [hdelay, Except.ok.injEq, Prod.mk.injEq] at hwalk
  have := hzero.mpr hfree
  omega

/-- What a visit of a network node adds has the node on its path. -/
theorem exists_visitFragments {endDevice : Module} (hlength : 0 ≤ packetLength) (todo : Todo) :
    ∀ {fragments : List (PathFragment Module)} (shift : Int),
      (∀ fragment ∈ fragments, Walkable net endDevice fragment.networkNodes) →
      ∃ shift' added, visitFragments net endDevice (delayOnFragment net s packetLength) todo
          fragments shift = .ok (shift', added) ∧ added.length ≤ fragments.length ∧
        ∀ todo' ∈ added, todo'.networkNodeName ∉ todo'.path ∧ todo.path ⊆ todo'.path ∧
          todo.networkNodeName ∈ todo'.path ∧ ∃ fragment ∈ fragments,
            ∃ m ∈ fragment.networkNodes.head?, net.tree.getFullName m = todo.networkNodeName
  | [], shift, _ => ⟨shift, [], rfl, Nat.le_refl 0, nofun⟩
  | fragment :: fragments, shift, hwalkable => by
    obtain ⟨⟨nics, hnics⟩, hnonempty, hleads⟩ := hwalkable fragment List.mem_cons_self
    have hrest := fun f hf => hwalkable f (List.mem_cons_of_mem _ hf)
    have hlater := fun shift => exists_visitFragments hlength todo shift hrest
    obtain ⟨front, hfront⟩ : ∃ m, fragment.networkNodes.head? = some m :=
      ⟨_, List.head?_eq_some_head hnonempty⟩
    obtain ⟨back, hback⟩ : ∃ m, fragment.networkNodes.getLast? = some m :=
      ⟨_, List.getLast?_eq_some_getLast hnonempty⟩
    simp only [visitFragments, bind_eq_ok, require_eq_ok, hfront, Option.some.injEq,
      exists_eq_left']
    by_cases hname : net.tree.getFullName front = todo.networkNodeName
    · rw [if_pos hname]
      obtain ⟨delay, t', path', hdelay, -⟩ := delayOnFragment_eq s packetLength shift todo.time
        todo.path hnics
      obtain ⟨-, hsubset, hleft⟩ := delayOnFragment_path hlength _ hdelay
      obtain ⟨shift', added, hothers, hadded, hpaths⟩ := hlater (shift + delay)
      have hnext : ∃ next, followUp net endDevice fragment.networkNodes t' path' = .ok next ∧
          next.length ≤ 1 ∧ ∀ todo' ∈ next, todo'.networkNodeName ∉ todo'.path ∧
            todo'.path = path' ∧ todo.networkNodeName ∈ path' := by
        simp only [followUp, bind_eq_ok, require_eq_ok, hback, Option.some.injEq, exists_eq_left',
          pure_eq_ok]
        by_cases hgo : net.tree.getFullName back ≠ net.tree.getFullName endDevice ∧
            net.tree.getFullName back ∉ path'
        · -- the fragment does not end at the end device, so it has two nodes
          have htwo := hleads.resolve_right fun h => hgo.1 (h back hback)
          rw [if_pos hgo]
          exact ⟨Nat.le_refl 1, List.forall_mem_singleton.mpr
            ⟨hgo.2, rfl, hname ▸ hleft htwo front hfront⟩⟩
        · rw [if_neg hgo]
          exact ⟨Nat.zero_le 1, nofun⟩
      obtain ⟨next, hnext, hone, hnew⟩ := hnext
      simp only [bind_eq_ok, pure_eq_ok]
      refine ⟨shift', next ++ added, ⟨_, hdelay, next, hnext, _, hothers, rfl⟩, ?_, ?_⟩
      · rw [List.length_append, List.length_cons]
        omega
      · intro todo' htodo'
        rcases List.mem_append.mp htodo' with h | h
        · obtain ⟨h1, h2, h3⟩ := hnew todo' h
          exact ⟨h1, h2 ▸ hsubset, h2 ▸ h3, fragment, List.mem_cons_self, front, hfront, hname⟩
        · obtain ⟨h1, h2, h3, f, hf, hm⟩ := hpaths todo' h
          exact ⟨h1, h2, h3, f, List.mem_cons_of_mem _ hf, hm⟩
    · rw [if_neg hname]
      obtain ⟨shift', added, hothers, hadded, hpaths⟩ := hlater shift
      refine ⟨shift', added, hothers, Nat.le_succ_of_le hadded, fun todo' htodo' => ?_⟩
      obtain ⟨h1, h2, h3, f, hf, hm⟩ := hpaths todo' htodo'
      exact ⟨h1, h2, h3, f, List.mem_cons_of_mem _ hf, hm⟩

/-- The nodes at which fragments of the flow start, but for those on the path. -/
def startsAhead (net : WiredNetwork Module Nic) (flow : Flow Module) (todo : Todo) : List String :=
  (flow.pathFragments.filterMap fun fragment =>
    fragment.networkNodes.head?.map net.tree.getFullName).filter (· ∉ todo.path)

/-- **The loop over the fragments ends**, after a number of visits that the start is no matter for. -/
theorem exists_computeStartOffset
    (hwalkable : ∀ fragment ∈ flow.pathFragments,
      Walkable net flow.endDevice fragment.networkNodes)
    (hlength : 0 ≤ flow.startApplication.packetLength) (s : InterfaceSchedules Nic) :
    ∃ fuel₀, ∀ startTime, ∃ shift, ∀ fuel, fuel₀ ≤ fuel →
      computeStartOffsetForPathFragments net fuel flow startTime s = .ok shift := by
  -- a node that is left is no longer ahead
  have hvisit : ∀ (shift : Int) (todo : Todo), todo.networkNodeName ∉ todo.path →
      ∃ shift' added, visitFragments net flow.endDevice
          (delayOnFragment net s flow.startApplication.packetLength) todo flow.pathFragments shift =
            .ok (shift', added) ∧ added.length ≤ flow.pathFragments.length ∧
        ∀ todo' ∈ added, todo'.networkNodeName ∉ todo'.path ∧
          (startsAhead net flow todo').length < (startsAhead net flow todo).length := by
    intro shift todo htodo
    obtain ⟨shift', added, hvisit, hadded, hpaths⟩ :=
      exists_visitFragments (s := s) hlength todo shift hwalkable
    refine ⟨shift', added, hvisit, hadded, fun todo' htodo' => ?_⟩
    obtain ⟨hnew, hsubset, hmem, fragment, hfragment, m, hm, hname⟩ := hpaths todo' htodo'
    refine ⟨hnew, length_filter_lt (x := todo.networkNodeName) (fun name hname => ?_)
      (List.mem_filterMap.mpr ⟨fragment, hfragment, ?_⟩) (decide_eq_true htodo)
      (decide_eq_false (not_not.mpr hmem))⟩
    · rw [decide_eq_true_eq] at hname ⊢
      exact fun h => hname (hsubset h)
    · rw [Option.mem_def.mp hm, Option.map_some, hname]
  refine ⟨(flow.pathFragments.length + 1) ^ (startsAhead net flow ⟨"", 0, []⟩).length,
    fun startTime => ?_⟩
  have hsource : ∀ todo ∈
      [(⟨net.tree.getFullName flow.startApplication.device, startTime, []⟩ : Todo)],
      todo.networkNodeName ∉ todo.path := List.forall_mem_singleton.mpr List.not_mem_nil
  obtain ⟨shift, hshift⟩ : ∃ shift, computeStartOffsetForPathFragments net
      ((flow.pathFragments.length + 1) ^ (startsAhead net flow ⟨"", 0, []⟩).length) flow startTime
      s = .ok shift := exists_workOff hvisit 0 hsource (Nat.le_refl _)
  refine ⟨shift, fun fuel hfuel => ?_⟩
  obtain ⟨more, rfl⟩ := Nat.exists_eq_add_of_le hfuel
  exact workOff_more more hshift

/-! ## One path -/

/-- The flow has one path, from its source to its end. -/
structure SinglePath (net : WiredNetwork Module Nic) (flow : Flow Module) (nodes : List Module)
    (nics : List Nic) : Prop where
  fragments : flow.pathFragments.map PathFragment.networkNodes = [nodes]
  front : nodes.head?.map net.tree.getFullName =
    some (net.tree.getFullName flow.startApplication.device)
  back : nodes.getLast?.map net.tree.getFullName = some (net.tree.getFullName flow.endDevice)
  nics : net.findNetworkInterfaces nodes = .ok nics

variable {nodes : List Module} {nics : List Nic}

/-- A flow with one path is done with one walk. -/
theorem SinglePath.walk (h : SinglePath net flow nodes nics)
    {walk : State → List Module → Int → List String → Except Halt (State × Int × List String)}
    {startTime : Int} {s s' : State}
    (hloop : forPathFragments net flow walk fuel startTime s = .ok s') :
    ∃ time path, walk s nodes startTime [] = .ok (s', time, path) := by
  obtain ⟨fragment, hfragment, rfl⟩ := List.map_eq_singleton_iff.mp h.fragments
  obtain ⟨front, hfront, hname⟩ := Option.map_eq_some_iff.mp h.front
  obtain ⟨back, hback, hend⟩ := Option.map_eq_some_iff.mp h.back
  unfold forPathFragments at hloop
  obtain ⟨fuel', s₁, added, rfl, hvisit, hrest⟩ := workOff_cons_ok hloop
  simp only [hfragment, visitFragments, bind_eq_ok, require_eq_ok, hfront, Option.some.injEq,
    exists_eq_left', hname, if_true, followUp, hback, pure_eq_ok, hend, ne_eq, not_true, false_and,
    if_false, List.nil_append, Prod.mk.injEq] at hvisit
  obtain ⟨⟨s₂, time, path⟩, hwalk, hlast, rfl⟩ := hvisit
  dsimp only at hlast
  rw [List.append_nil, workOff_nil, Except.ok.injEq] at hrest
  rw [hlast, hrest] at hwalk
  exact ⟨time, path, hwalk⟩

/-- The shift of a flow with one path is the delay on it. -/
theorem SinglePath.shift (h : SinglePath net flow nodes nics) {startTime shift : Int}
    (hshift : computeStartOffsetForPathFragments net fuel flow startTime s = .ok shift) :
    (shift = 0 ↔ Unhindered net s flow.startApplication.packetLength nics startTime) ∧
      ∀ start, startTime ≤ start → Unhindered net s flow.startApplication.packetLength nics start →
        startTime + shift ≤ start := by
  obtain ⟨time, path, hwalk⟩ := h.walk hshift
  obtain ⟨delay, t', path', hdelay, hzero, hleast⟩ :=
    delayOnFragment_eq s _ 0 startTime [] h.nics
  rw [hdelay, Except.ok.injEq, Prod.mk.injEq, Int.zero_add] at hwalk
  rw [← hwalk.1]
  exact ⟨hzero, hleast⟩

/-! ## The search -/

/-- No start without waiting is passed over. -/
theorem SinglePath.shiftStartOffset (h : SinglePath net flow nodes nics) :
    ∀ {rounds : Nat} {startOffset startOffset' : Int},
      shiftStartOffset net fuel flow s rounds startOffset = .ok startOffset' →
      Unhindered net s flow.startApplication.packetLength nics startOffset' ∧
        ∀ start, startOffset ≤ start →
          Unhindered net s flow.startApplication.packetLength nics start → startOffset' ≤ start
  | 0, startOffset, startOffset', hloop => by cases hloop
  | rounds + 1, startOffset, startOffset', hloop => by
    simp only [Eager.shiftStartOffset, bind_eq_ok] at hloop
    obtain ⟨shift, hshift, hloop⟩ := hloop
    obtain ⟨hzero, hleast⟩ := h.shift hshift
    split at hloop
    · next hdone =>
      rw [pure_eq_ok] at hloop
      exact ⟨hloop ▸ hzero.mp hdone, fun start hstart _ => hloop ▸ hstart⟩
    · obtain ⟨hfree, hrest⟩ := h.shiftStartOffset hloop
      exact ⟨hfree, fun start hstart hstartFree =>
        hrest start (hleast start hstart hstartFree) hstartFree⟩

/-- The shifts are positive until they end, so they lead to where nothing is in the way. -/
theorem exists_shiftStartOffset {f : Int → Int} {fuel₀ : Nat} {late : Int}
    (hf : ∀ t fuel, fuel₀ ≤ fuel →
      computeStartOffsetForPathFragments net fuel flow t s = .ok (f t))
    (hlate : ∀ t, late ≤ t → f t = 0) :
    ∀ (n : Nat) (startOffset : Int), (late - startOffset).toNat ≤ n →
      ∃ start, f start = 0 ∧ ∀ fuel rounds, fuel₀ ≤ fuel → n < rounds →
        shiftStartOffset net fuel flow s rounds startOffset = .ok start := by
  intro n
  induction n with
  | zero =>
    intro startOffset hn
    have hzero := hlate startOffset (by omega)
    refine ⟨startOffset, hzero, fun fuel rounds hfuel hrounds => ?_⟩
    obtain ⟨rounds, rfl⟩ := Nat.exists_eq_add_of_lt hrounds
    simp only [shiftStartOffset, bind_eq_ok, hf startOffset fuel hfuel, Except.ok.injEq,
      exists_eq_left', hzero, if_true]
    rfl
  | succ n ih =>
    intro startOffset hn
    by_cases hzero : f startOffset = 0
    · refine ⟨startOffset, hzero, fun fuel rounds hfuel hrounds => ?_⟩
      obtain ⟨rounds, rfl⟩ := Nat.exists_eq_add_of_lt hrounds
      simp only [shiftStartOffset, bind_eq_ok, hf startOffset fuel hfuel, Except.ok.injEq,
        exists_eq_left', hzero, if_true]
      rfl
    · have hpos := shift_nonneg (hf startOffset fuel₀ (Nat.le_refl _))
      have hbefore : startOffset < late := by
        by_contra hge
        exact hzero (hlate startOffset (by omega))
      obtain ⟨start, hstart, hrounds⟩ := ih (startOffset + f startOffset) (by omega)
      refine ⟨start, hstart, fun fuel rounds hfuel hlt => ?_⟩
      obtain ⟨rounds, rfl⟩ : ∃ r, rounds = r + 1 := ⟨rounds - 1, by omega⟩
      simp only [shiftStartOffset, bind_eq_ok, hf startOffset fuel hfuel, Except.ok.injEq,
        exists_eq_left', hzero, if_false]
      exact hrounds fuel rounds hfuel (by omega)

/-- **The search for the start of a flow ends, with a start at which the first packet waits nowhere;
if the flow has one path, it is the first such start.** -/
theorem startOffset_exists (hwalkable : ∀ fragment ∈ flow.pathFragments,
      Walkable net flow.endDevice fragment.networkNodes)
    (hlength : 0 ≤ flow.startApplication.packetLength) (s : InterfaceSchedules Nic) :
    ∃ fuel₀ startOffset, (∀ fuel, fuel₀ ≤ fuel →
        computeStreamStartOffset net fuel flow s = .ok startOffset ∧
        computeStartOffsetForPathFragments net fuel flow startOffset s = .ok 0) ∧
      ∀ nodes nics, SinglePath net flow nodes nics →
        IsLeast {start | 0 ≤ start ∧
          Unhindered net s flow.startApplication.packetLength nics start} startOffset := by
  obtain ⟨fuel₀, hshifts⟩ := exists_computeStartOffset hwalkable hlength s
  choose f hf using hshifts
  obtain ⟨late, -, hover⟩ := exists_over_fragments net s flow.pathFragments
  have hlate : ∀ t, late ≤ t → f t = 0 := fun t ht =>
    shift_eq_zero hwalkable hlength hover ht (hf t fuel₀ (Nat.le_refl _))
  obtain ⟨startOffset, hzero, hsearch⟩ :=
    exists_shiftStartOffset hf hlate late.toNat 0 (by omega)
  have hresult : ∀ fuel, max fuel₀ (late.toNat + 1) ≤ fuel →
      computeStreamStartOffset net fuel flow s = .ok startOffset :=
    fun fuel hfuel => hsearch fuel fuel (by omega) (by omega)
  refine ⟨max fuel₀ (late.toNat + 1), startOffset, fun fuel hfuel => ⟨hresult fuel hfuel, ?_⟩, ?_⟩
  · rw [hf startOffset fuel (by omega), hzero]
  · intro nodes nics hsingle
    have hstart := hresult _ (Nat.le_refl _)
    obtain ⟨hfree, hleast⟩ := hsingle.shiftStartOffset hstart
    exact ⟨⟨le_shiftStartOffset hstart, hfree⟩, fun start h => hleast start h.1 h.2⟩

end

/-- A packet for the device behind the card, when the slots of the car are reserved. -/
theorem startOffset_exists_car : ∃ fuel₀ startOffset, (∀ fuel, fuel₀ ≤ fuel →
      computeStreamStartOffset carWires fuel (carFlow 0 [5, 2, 4] 1000 100000000) carReserved =
        .ok startOffset ∧
      computeStartOffsetForPathFragments carWires fuel (carFlow 0 [5, 2, 4] 1000 100000000)
        startOffset carReserved = .ok 0) ∧
    ∀ nodes nics, SinglePath carWires (carFlow 0 [5, 2, 4] 1000 100000000) nodes nics →
      IsLeast {start | 0 ≤ start ∧ Unhindered carWires carReserved 1000 nics start} startOffset :=
  startOffset_exists (List.forall_mem_singleton.mpr
    ⟨⟨[13, 10], by decide +kernel⟩, by decide, Or.inl (by decide)⟩) (by decide) carReserved

end CooperativeTsn.Eager
