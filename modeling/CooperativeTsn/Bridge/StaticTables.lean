import CooperativeTsn.Bridge.Wiring

/-!
# The tables that the configurator writes

After `initialize` the rules of each bridge are the first interfaces of its ways to the interfaces
of the hosts, one rule for each address. Later changes of multicast groups add rules and write the
tables again, with the same entries for these addresses.

* `computeMacForwardingTables_eq` — one extension for each interface with an address
* `computeMacForwardingTables_spec` — the rules
* `exists_parse_ok` — when a table accepts rules
* `initializeTables_spec` — the configurator succeeds, and the tables have the entries
* `receiveSignal_step`, `written_of_run` — the entries stay while groups change
-/

namespace CooperativeTsn

open NodeGraph Infra.Runs Infra.Updates Infra.ShortestPath MacForwardingTableConfigurator

variable {Host Mac Group : Type}

/-! ## Rules for all addresses -/

namespace Wiring

/-- The interfaces that rules are computed for, in their order. -/
def destinations (wiring : Wiring Host Mac) : List (Endpoint Host Mac) :=
  (wiring.modules.filter fun m => !wiring.isBridgeNode m).flatMap fun m =>
    (wiring.interfaces m).filterMap fun i =>
      if i.isLoopback then none else i.macAddress.map fun address => ⟨m, i.name, address⟩

theorem node_of_mem_destinations {wiring : Wiring Host Mac} {d : Endpoint Host Mac}
    (hd : d ∈ wiring.destinations) :
    d.node ∈ wiring.modules ∧ wiring.isBridgeNode d.node = false := by
  obtain ⟨m, hm, hd⟩ := List.mem_flatMap.mp hd
  obtain ⟨i, -, hi⟩ := List.mem_filterMap.mp hd
  have hnode : d.node = m := by
    split at hi
    · cases hi
    · obtain ⟨address, -, rfl⟩ := Option.map_eq_some_iff.mp hi
      rfl
  rw [hnode]
  obtain ⟨hmem, hbridge⟩ := List.mem_filter.mp hm
  exact ⟨hmem, by simpa using hbridge⟩

section

variable [DecidableEq Host]

/-- A search for the interface of a host, under weights that searches for others have left, and the
interface at which each bridge begins. -/
structure Installed (wiring : Wiring Host Mac) (d : Endpoint Host Mac)
    (weights : TopologyLink Host → WithTop Nat) (search : SearchState Host Nat)
    (route : Host → Option String) : Prop where
  passable : wiring.Passable weights
  weights_eq : ∀ l ∈ linksAt wiring.nodes .dest d.node,
    weights l = if wiring.destinationInterface l ≠ some d.interface then ⊤ else 1
  found : wiring.Found weights d.node search
  route : ∀ b, route b = wiring.firstInterface search d.node b

/-- The rule of a bridge for an endpoint, if it has one. -/
def ruleFor (route : Endpoint Host Mac → Host → Option String) (b : Host) (d : Endpoint Host Mac) :
    List (ForwardingRule Mac Group) :=
  (route d b).toList.map fun name => ⟨none, .inl d.address, name⟩

variable [DecidableEq Mac] [DecidableEq Group] {wiring : Wiring Host Mac}

/-- One extension for each interface with an address. -/
theorem computeMacForwardingTables_eq (wiring : Wiring Host Mac)
    (s : ConfiguratorState Host Mac Group) :
    wiring.computeMacForwardingTables s = wiring.destinations.foldlM
      (fun s d => wiring.extendConfiguration d.node (some d.interface) (.inl d.address) s) s := by
  rw [computeMacForwardingTables, destinations]
  generalize wiring.modules = ms
  induction ms generalizing s with
  | nil => rfl
  | cons m ms ih =>
    rw [List.foldlM_cons]
    by_cases hbridge : wiring.isBridgeNode m = true
    · rw [List.filter_cons_of_neg (by simp [hbridge]), ← ih, hbridge]
      rfl
    · have hinterfaces : ∀ s, (wiring.interfaces m).foldlM (wiring.extendInterface m) s =
          ((wiring.interfaces m).filterMap fun i => if i.isLoopback then none
            else i.macAddress.map fun address => (⟨m, i.name, address⟩ : Endpoint Host Mac)).foldlM
          (fun (s : ConfiguratorState Host Mac Group) d =>
            wiring.extendConfiguration d.node (some d.interface) (.inl d.address) s) s := by
        intro s
        rw [List.foldlM_filterMap]
        congr 1
        funext s i
        rw [extendInterface]
        by_cases hloopback : i.isLoopback = true
        · simp only [if_pos hloopback]
        · simp only [if_neg hloopback]
          cases i.macAddress <;> rfl
      rw [List.filter_cons_of_pos (by simp [hbridge]), List.flatMap_cons, List.foldlM_append,
        if_pos (by simp [hbridge]), hinterfaces]
      exact bind_congr fun s => ih s

/-- The loop over the interfaces. -/
theorem foldlM_extendConfiguration (hconf : wiring.Configurable) :
    ∀ (ds : List (Endpoint Host Mac)) (s : ConfiguratorState Host Mac Group)
      (rules : Host → List (ForwardingRule Mac Group)),
    (∀ d ∈ ds, d.node ∈ wiring.modules ∧ wiring.isBridgeNode d.node = false) →
    (ds.map Endpoint.address).Nodup → wiring.Passable s.weights →
    (∀ b ∈ wiring.modules, s.configurations b = asConfiguration (rules b)) →
    (∀ d ∈ ds, ∀ b, ∀ r ∈ rules b, r.address ≠ .inl d.address) →
    ∃ s' route, ds.foldlM
        (fun s d => wiring.extendConfiguration d.node (some d.interface) (.inl d.address) s) s =
        .ok s' ∧
      (∀ d ∈ ds, ∃ weights search, wiring.Installed d weights search (route d)) ∧
      ∀ b ∈ wiring.modules,
        s'.configurations b = asConfiguration (rules b ++ ds.flatMap (ruleFor route b))
  | [], s, rules, _, _, _, hrules, _ =>
    ⟨s, fun _ _ => none, rfl, by simp, fun b hb => by simpa using hrules b hb⟩
  | d :: ds, s, rules, hnodes, haddresses, hpassable, hrules, hfresh => by
    rw [List.map_cons, List.nodup_cons] at haddresses
    obtain ⟨hd, hhost⟩ := hnodes d List.mem_cons_self
    obtain ⟨s₁, search, hs₁, hweights, hfound, hrules₁⟩ := extendConfiguration_spec hconf hpassable
      hd hhost (some d.interface) hrules (hfresh d List.mem_cons_self)
    have hpassable₁ : wiring.Passable s₁.weights := hweights ▸ hpassable.setWeights hhost
    have hother : ∀ d' ∈ ds, d'.address ≠ d.address := fun d' hd' heq =>
      haddresses.1 (heq ▸ List.mem_map_of_mem hd')
    have hfresh₁ : ∀ d' ∈ ds, ∀ b, ∀ r ∈ rules b ++
        (wiring.firstInterface search d.node b).toList.map (fun name =>
          (⟨none, .inl d.address, name⟩ : ForwardingRule Mac Group)), r.address ≠ .inl d'.address := by
      intro d' hd' b r hr
      rcases List.mem_append.mp hr with hr | hr
      · exact hfresh d' (List.mem_cons_of_mem _ hd') b r hr
      · obtain ⟨name, -, rfl⟩ := List.mem_map.mp hr
        intro heq
        exact hother d' hd' (Sum.inl.inj heq).symm
    obtain ⟨s', route, hs', hinstalled, hrules'⟩ := foldlM_extendConfiguration hconf ds s₁ _
      (fun d' hd' => hnodes d' (List.mem_cons_of_mem _ hd')) haddresses.2 hpassable₁ hrules₁ hfresh₁
    -- the routes of the others are those of the rest of the loop
    refine ⟨s', Function.update route d (wiring.firstInterface search d.node),
      bind_eq_ok.mpr ⟨s₁, hs₁, hs'⟩, fun d' hd' => ?_, fun b hb => ?_⟩
    · rcases List.mem_cons.mp hd' with rfl | hd'
      · refine ⟨s₁.weights, search, hpassable₁, fun l hl => ?_, hfound, fun b => ?_⟩
        · rw [hweights, setWeights_eq, if_pos hl]
        · rw [Function.update_self]
      · rw [Function.update_of_ne fun heq => hother d' hd' (by rw [heq])]
        exact hinstalled d' hd'
    · have hrest : (ds.flatMap (ruleFor route b) : List (ForwardingRule Mac Group)) = ds.flatMap
          (ruleFor (Function.update route d (wiring.firstInterface search d.node)) b) := by
        refine List.flatMap_congr fun d' hd' => ?_
        rw [ruleFor, ruleFor, Function.update_of_ne fun heq => hother d' hd' (by rw [heq])]
      rw [hrules' b hb, List.flatMap_cons, hrest, ← List.append_assoc]
      congr 3
      rw [ruleFor, Function.update_self]

variable (Group) in
/-- **The rules of each bridge, one for each address that it has a way to.** -/
theorem computeMacForwardingTables_spec (hconf : wiring.Configurable)
    (haddresses : (wiring.destinations.map Endpoint.address).Nodup) :
    ∃ (s : ConfiguratorState Host Mac Group) (route : Endpoint Host Mac → Host → Option String),
      wiring.computeMacForwardingTables initial = .ok s ∧
      (∀ d ∈ wiring.destinations, ∃ weights search, wiring.Installed d weights search (route d)) ∧
      ∀ b ∈ wiring.modules,
        s.configurations b = asConfiguration (wiring.destinations.flatMap (ruleFor route b)) := by
  rw [computeMacForwardingTables_eq]
  exact foldlM_extendConfiguration hconf wiring.destinations initial (fun _ => [])
    (fun d hd => node_of_mem_destinations hd) haddresses (passable_initial wiring) (fun _ _ => rfl)
    (by simp)

end

end Wiring

/-! ## Tables -/

namespace MacForwardingTable

variable [DecidableEq Mac] [DecidableEq Group]

/-- A table accepts unicast rules without a VLAN if their interfaces exist, no address has two rules
and none has an entry yet. -/
theorem exists_parse_ok : ∀ {rules : List (ForwardingRule Mac Group)}
    {table : MacForwardingTable Mac Group},
    (∀ r ∈ rules, r.vlan = none ∧ ∃ a, r.address = .inl a ∧ table.forwardingTable (0, a) = none) →
    (∀ r ∈ rules, table.findInterfaceByName r.interface ≠ none) →
    (rules.map ForwardingRule.address).Nodup →
    ∃ table', table.parseForwardingTableParameter rules = .ok table'
  | [], table, _, _, _ => ⟨table, rfl⟩
  | rule :: rules, table, hunicast, hinterface, hnodup => by
    obtain ⟨hvlan, a, ha, hnone⟩ := hunicast rule List.mem_cons_self
    obtain ⟨id, hid⟩ := Option.ne_none_iff_exists'.mp (hinterface rule List.mem_cons_self)
    rw [List.map_cons, List.nodup_cons] at hnodup
    have hrule : table.addRule rule = .ok (table.setUnicastAddressForwardingInterface id a 0) := by
      rw [addRule, hid, ha, hvlan]
      exact bind_eq_ok.mpr ⟨id, rfl, bind_eq_ok.mpr ⟨(), ensure_eq_ok.mpr hnone, rfl⟩⟩
    -- the entries of the rules behind it are still missing
    have hrest : ∀ r ∈ rules, r.vlan = none ∧ ∃ a', r.address = .inl a' ∧
        (table.setUnicastAddressForwardingInterface id a 0 :
          MacForwardingTable Mac Group).forwardingTable (0, a') = none := by
      intro r hr
      obtain ⟨hvlan', a', ha', hnone'⟩ := hunicast r (List.mem_cons_of_mem _ hr)
      refine ⟨hvlan', a', ha', ?_⟩
      have hne : (0, a') ≠ ((0 : Nat), a) := by
        intro heq
        refine hnodup.1 (List.mem_map.mpr ⟨r, hr, ?_⟩)
        rw [ha, ha', (Prod.mk.inj heq).2]
      rw [forwardingTable_set, Function.update_of_ne hne]
      exact hnone'
    obtain ⟨table', htable'⟩ := exists_parse_ok hrest
      (fun r hr => hinterface r (List.mem_cons_of_mem _ hr)) hnodup.2
    exact ⟨table', bind_eq_ok.mpr ⟨_, hrule, htable'⟩⟩

end MacForwardingTable

namespace Wiring

section

variable [DecidableEq Host] {wiring : Wiring Host Mac}

/-- The interfaces of a bridge can be found in its interface table, by their names. -/
structure Named (wiring : Wiring Host Mac) (tables : Host → MacForwardingTable Mac Group) : Prop
    extends wiring.Configurable where
  findInterfaceByName : ∀ b, wiring.isBridgeNode b = true →
    ∀ l ∈ linksAt wiring.nodes .source b, ∀ name, wiring.sourceInterface l = some name →
      (tables b).findInterfaceByName name ≠ none

/-- The interfaces that rules name are those of links. -/
theorem Installed.link {d : Endpoint Host Mac} {weights : TopologyLink Host → WithTop Nat}
    {search : SearchState Host Nat} {route : Host → Option String}
    (h : wiring.Installed d weights search route) {b : Host} {name : String}
    (hroute : route b = some name) : b ≠ d.node ∧ wiring.isBridgeNode b = true ∧
      ∃ l, (search.paths b).head? = some l ∧ wiring.sourceInterface l = some name := by
  rw [h.route, firstInterface] at hroute
  split at hroute
  · next hbridge =>
    obtain ⟨l, hl, hname⟩ := Option.bind_eq_some_iff.mp hroute
    exact ⟨hbridge.1, hbridge.2, l, hl, hname⟩
  · cases hroute

variable [DecidableEq Mac] [DecidableEq Group] {tables : Host → MacForwardingTable Mac Group}
  {route : Endpoint Host Mac → Host → Option String}

omit [DecidableEq Host] [DecidableEq Mac] [DecidableEq Group] in
/-- The rules for the endpoints are rules for their addresses, each for one. -/
theorem nodup_ruleFor (b : Host) {ds : List (Endpoint Host Mac)}
    (haddresses : (ds.map Endpoint.address).Nodup) :
    ((ds.flatMap (ruleFor route b)).map
      (ForwardingRule.address : ForwardingRule Mac Group → Mac ⊕ Group)).Nodup := by
  have hsub : ∀ ds : List (Endpoint Host Mac),
      ((ds.flatMap (ruleFor route b)).map
        (ForwardingRule.address : ForwardingRule Mac Group → Mac ⊕ Group)).Sublist
        (ds.map fun d => .inl d.address) := by
    intro ds
    induction ds with
    | nil => exact List.Sublist.slnil
    | cons d ds ih =>
      rw [List.flatMap_cons, List.map_append, List.map_cons, ruleFor]
      cases route d b with
      | none => exact ih.cons _
      | some name => exact ih.cons_cons _
  refine (hsub ds).nodup ?_
  have hinl := haddresses.map (Sum.inl_injective : Function.Injective (Sum.inl : Mac → Mac ⊕ Group))
  rwa [List.map_map] at hinl

omit [DecidableEq Host] in
/-- What the rules say about the address of an endpoint. -/
theorem configuredPort_ruleFor (b : Host) (table : MacForwardingTable Mac Group) :
    ∀ {ds : List (Endpoint Host Mac)}, (ds.map Endpoint.address).Nodup →
    ∀ d ∈ ds, table.configuredPort (ds.flatMap (ruleFor route b)) 0 d.address =
      (route d b).bind table.findInterfaceByName
  | [], _, _, hd => absurd hd List.not_mem_nil
  | d₀ :: ds, haddresses, d, hd => by
    rw [List.map_cons, List.nodup_cons] at haddresses
    have hfirst : table.configuredPort ((d₀ :: ds).flatMap (ruleFor route b)) 0 d.address =
        (if d₀.address = d.address then (route d₀ b).bind table.findInterfaceByName else none).or
          (table.configuredPort (ds.flatMap (ruleFor route b)) 0 d.address) := by
      rw [MacForwardingTable.configuredPort, List.flatMap_cons, List.findSome?_append, ruleFor]
      congr 1
      cases route d₀ b with
      | none => simp
      | some name => simp [Sum.inl.injEq]
    rw [hfirst]
    rcases List.mem_cons.mp hd with rfl | hd
    · rw [if_pos rfl]
      cases (route d b).bind table.findInterfaceByName with
      | some id => rfl
      | none =>
        -- no other rule is about this address
        rw [Option.none_or, MacForwardingTable.configuredPort, List.findSome?_eq_none_iff]
        intro r hr
        rw [if_neg]
        rintro ⟨haddress, -⟩
        obtain ⟨d', hd', hr⟩ := List.mem_flatMap.mp hr
        obtain ⟨name, -, rfl⟩ := List.mem_map.mp hr
        exact haddresses.1 (Sum.inl.inj haddress ▸ List.mem_map_of_mem hd')
    · rw [if_neg fun heq : d₀.address = d.address =>
        haddresses.1 (heq ▸ List.mem_map_of_mem hd), Option.none_or]
      exact configuredPort_ruleFor b table haddresses.2 d hd

/-! ## Runs of the configurator -/

/-- The rules give the addresses of the hosts their routes; the tables are read from the rules. -/
structure Written (wiring : Wiring Host Mac) (tables : Host → MacForwardingTable Mac Group)
    (route : Endpoint Host Mac → Host → Option String)
    (s : ConfiguratorState Host Mac Group × (Host → MacForwardingTable Mac Group)) : Prop where
  port : ∀ b ∈ wiring.modules, ∀ d ∈ wiring.destinations,
    ∀ table : MacForwardingTable Mac Group,
      table.configuredPort ((s.1.configurations b).getD []) 0 d.address =
        (route d b).bind table.findInterfaceByName
  sameSettings : ∀ b ∈ wiring.modules, (tables b).SameSettings (s.2 b)
  entry : ∀ b ∈ wiring.modules, ∀ vid address, (s.2 b).forwardingTable (vid, address) =
    ((tables b).configuredPort ((s.1.configurations b).getD []) vid address).map
      fun interfaceId => ⟨interfaceId, newEntryTime⟩

omit [DecidableEq Host] in
/-- The entries of the addresses of the hosts. -/
theorem Written.forwardingTable
    {s : ConfiguratorState Host Mac Group × (Host → MacForwardingTable Mac Group)}
    (h : wiring.Written tables route s) {b : Host} (hb : b ∈ wiring.modules) {d : Endpoint Host Mac}
    (hd : d ∈ wiring.destinations) : (s.2 b).forwardingTable (0, d.address) =
      ((route d b).bind (tables b).findInterfaceByName).map fun interfaceId =>
        ⟨interfaceId, newEntryTime⟩ := by
  rw [h.entry b hb, h.port b hb d hd]

theorem configureMacForwardingTables_spec {configurations : Configurations Host Mac Group}
    {tables' : Host → MacForwardingTable Mac Group}
    (h : wiring.configureMacForwardingTables configurations tables = .ok tables') {b : Host}
    (hb : b ∈ wiring.modules)
    (hnone : configurations b = none → ∀ key, (tables b).forwardingTable key = none) :
    (tables b).SameSettings (tables' b) ∧
      ∀ vid address, (tables' b).forwardingTable (vid, address) =
        ((tables b).configuredPort ((configurations b).getD []) vid address).map
          fun interfaceId => ⟨interfaceId, newEntryTime⟩ := by
  have hlayout : MacForwardingTableConfigurator.configureMacForwardingTables
      (wiring.layout (fun _ => 1)) () configurations tables = .ok tables' := h
  cases hconfiguration : configurations b with
  | none =>
    have hsame := configureMacForwardingTables_frame hlayout (.inr hconfiguration)
    rw [hsame]
    refine ⟨.refl _, fun vid address => ?_⟩
    rw [hnone hconfiguration]
    rfl
  | some rules =>
    have hok := configureMacForwardingTables_ok hlayout (by exact hb) (by rw [hconfiguration]; rfl)
    rwa [hconfiguration] at hok

/-- **The configurator succeeds: a bridge has an entry for each address that it has a way to.** -/
theorem initializeTables_spec (hnamed : wiring.Named tables)
    (haddresses : (wiring.destinations.map Endpoint.address).Nodup)
    (hempty : ∀ b key, (tables b).forwardingTable key = none) :
    ∃ (s : ConfiguratorState Host Mac Group × (Host → MacForwardingTable Mac Group))
      (route : Endpoint Host Mac → Host → Option String), wiring.initializeTables tables = .ok s ∧
      (∀ d ∈ wiring.destinations, ∃ weights search, wiring.Installed d weights search (route d)) ∧
      wiring.Written tables route s := by
  obtain ⟨s, route, hs, hinstalled, hrules⟩ := computeMacForwardingTables_spec
    Group hnamed.toConfigurable haddresses
  have htable : ∀ b ∈ wiring.modules,
      ∃ table', configureTable s.configurations b (tables b) = .ok table' := by
    intro b hb
    rw [configureTable, hrules b hb]
    cases hcases : (wiring.destinations.flatMap (ruleFor route b) :
        List (ForwardingRule Mac Group)) with
    | nil => exact ⟨tables b, rfl⟩
    | cons rule rules =>
      show ∃ table', (tables b).clearTable.parseForwardingTableParameter (rule :: rules) = .ok table'
      rw [← hcases]
      refine MacForwardingTable.exists_parse_ok (fun r hr => ?_) (fun r hr => ?_) ?_
      · obtain ⟨d, hd, hr⟩ := List.mem_flatMap.mp hr
        obtain ⟨name, hname, rfl⟩ := List.mem_map.mp hr
        exact ⟨rfl, d.address, rfl, rfl⟩
      · obtain ⟨d, hd, hr⟩ := List.mem_flatMap.mp hr
        obtain ⟨name, hname, rfl⟩ := List.mem_map.mp hr
        obtain ⟨weights, search, hd⟩ := hinstalled d hd
        obtain ⟨-, hbridge, l, hl, hsource⟩ := hd.link (Option.mem_toList.mp hname)
        exact hnamed.findInterfaceByName b hbridge l
          (hd.found.mem_linksAt (List.mem_of_head? hl)) name hsource
      · exact nodup_ruleFor b haddresses
  obtain ⟨tables', htables'⟩ := updateEach_ok wiring.wellLinked.nodup htable
  refine ⟨(s, tables'), route, ?_, hinstalled, fun b hb d hd table => ?_, fun b hb => ?_,
    fun b hb => ?_⟩
  · exact bind_eq_ok.mpr ⟨s, hs, bind_eq_ok.mpr ⟨tables', htables', rfl⟩⟩
  · have hgetD : ((s.configurations b).getD []) = wiring.destinations.flatMap (ruleFor route b) := by
      rw [hrules b hb]
      cases wiring.destinations.flatMap (ruleFor route b) <;> rfl
    rw [hgetD]
    exact configuredPort_ruleFor b table haddresses d hd
  · exact (configureMacForwardingTables_spec htables' hb fun _ => hempty b).1
  · exact (configureMacForwardingTables_spec htables' hb fun _ => hempty b).2

/-- A new member of a group changes nothing for the addresses of the hosts. -/
theorem receiveSignal_step
    {s s' : ConfiguratorState Host Mac Group × (Host → MacForwardingTable Mac Group)}
    {change : Endpoint Host Group} (h : wiring.Written tables route s)
    (hs : wiring.receiveSignal s change = .ok s') : wiring.Written tables route s' := by
  simp only [receiveSignal, bind_eq_ok, pure_eq_ok] at hs
  obtain ⟨-, -, c', hc', tables', htables', rfl⟩ := hs
  have hextend : ∀ b ∈ wiring.modules,
      (s.1.configurations b ≠ none → c'.configurations b ≠ none) ∧
      ∀ (table : MacForwardingTable Mac Group) vid address,
        table.configuredPort ((c'.configurations b).getD []) vid address =
          table.configuredPort ((s.1.configurations b).getD []) vid address := by
    intro b hb
    obtain ⟨hsome, hports⟩ :=
      extendConfiguration_ok (extendConfiguration_refines hc' change.interface) (by exact hb)
    rw [Option.isSome_iff_ne_none, Option.isSome_iff_ne_none] at hsome
    exact ⟨fun hne => hsome.mpr (.inl hne), hports⟩
  have htable : ∀ b ∈ wiring.modules, (s.2 b).SameSettings (tables' b) ∧
      ∀ vid address, (tables' b).forwardingTable (vid, address) =
        ((s.2 b).configuredPort ((c'.configurations b).getD []) vid address).map
          fun interfaceId => ⟨interfaceId, newEntryTime⟩ := by
    intro b hb
    refine configureMacForwardingTables_spec htables' hb fun hnone => ?_
    have hnone' : s.1.configurations b = none := by
      by_contra hne
      exact (hextend b hb).1 hne hnone
    rintro ⟨vid, address⟩
    rw [h.entry b hb, hnone']
    rfl
  refine ⟨fun b hb d hd table => ?_, fun b hb => ?_, fun b hb vid address => ?_⟩
  · rw [(hextend b hb).2]
    exact h.port b hb d hd table
  · exact (h.sameSettings b hb).trans (htable b hb).1
  · have hports : ∀ rules, (s.2 b).configuredPort rules vid address =
        (tables b).configuredPort rules vid address := by
      intro rules
      rw [MacForwardingTable.configuredPort, MacForwardingTable.configuredPort,
        (h.sameSettings b hb).findInterfaceByName]
    rw [(htable b hb).2, hports]

/-- Nor do any number of them. -/
theorem written_of_run : ∀ {changes : List (Endpoint Host Group)}
    {s s' : ConfiguratorState Host Mac Group × (Host → MacForwardingTable Mac Group)},
    wiring.Written tables route s → run wiring.receiveSignal changes s = .ok s' →
    wiring.Written tables route s'
  | [], _, _, h, hrun => by
    rw [run_nil, Except.ok.injEq] at hrun
    exact hrun ▸ h
  | _ :: _, _, _, h, hrun => by
    obtain ⟨_, hstep, hrun⟩ := run_cons_ok hrun
    exact written_of_run (receiveSignal_step h hstep) hrun

end

end Wiring

end CooperativeTsn
