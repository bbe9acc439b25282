import CooperativeTsn.Bridge.Registration

/-!
# Cars with bridges

The cars, each with a sub-network of its own, and the events that write the forwarding tables of
their bridges.

* `registerNic_ok` — what a registration writes, table by table
* `exists_registerNic_ok` — a registration does not fail
* `step` — registrations, learning, time and multicast groups
-/

namespace CooperativeTsn

open Infra Infra.Aging Infra.Runs Infra.Updates MacForwardingTable ForwardingAutoConfigurator

variable {Nic Car Host Mac Group : Type}

namespace Layout

variable (layout : Layout Nic Car Host Mac Group) (nic : Nic)

def interfaces : List (NetworkInterface Mac) := (layout.interfaceTable nic).getD []

/-- The addresses of the network card, without loopback. -/
def macs : List Mac := macAddresses (layout.interfaces nic)

/-- The bridges in the sub-network of the network card that have a table. -/
def bridges : List Host :=
  match layout.configurator nic with
  | none => []
  | some car => bridgeTables layout car

variable {layout nic}

theorem bridges_of_none (h : layout.configurator nic = none) : layout.bridges nic = [] := by
  rw [bridges, h]

theorem bridges_of_some {car : Car} (h : layout.configurator nic = some car) :
    layout.bridges nic = bridgeTables layout car := by
  rw [bridges, h]

end Layout

/-- Every network card has its own addresses and its own bridges. -/
structure Network (Nic Car Host Mac Group : Type) extends Layout Nic Car Host Mac Group where
  macs_nodup : ∀ nic, (toLayout.macs nic).Nodup
  macs_apart : ∀ nic nic', nic ≠ nic' →
    ∀ interface ∈ toLayout.interfaces nic, interface.macAddress ∉ toLayout.macs nic'
  bridges_apart : ∀ nic nic', nic ≠ nic' →
    ∀ host ∈ toLayout.bridges nic, host ∉ toLayout.bridges nic'

/-! ## Registrations -/

section

variable {net : Network Nic Car Host Mac Group} {now : Int} {mcastMac : Group} {macs : List Mac}
  {value nic : Nic} {tables tables' : Host → MacForwardingTable Mac Group}

theorem existingNicMacs_ok {layout : Layout Nic Car Host Mac Group} {nics : List Nic}
    {existing : List Mac} (h : existingNicMacs layout nics = .ok existing) :
    existing = nics.flatMap layout.macs := by
  simp only [existingNicMacs, bind_eq_ok, pure_eq_ok] at h
  obtain ⟨macs, hmapM, rfl⟩ := h
  rw [List.flatMap_def, mapM_eq_map (g := layout.macs) _ hmapM]
  intro nic macs hnic
  simp only [nicMacs, bind_eq_ok, require_eq_ok, pure_eq_ok] at hnic
  obtain ⟨interfaces, hinterfaces, rfl⟩ := hnic
  rw [Layout.macs, Layout.interfaces, hinterfaces]
  rfl

/-- The foreign addresses are not those of the network card. -/
def ForeignTo (net : Network Nic Car Host Mac Group) (nic : Nic) (macs : List Mac) : Prop :=
  macs.Nodup ∧ ∀ interface ∈ net.interfaces nic, interface.macAddress ∉ macs

theorem bridges_unique {a b : Nic} {host : Host} (ha : host ∈ net.bridges a)
    (hb : host ∈ net.bridges b) : a = b := by
  by_contra hne
  exact net.bridges_apart a b hne host ha hb

theorem foreignTo_macs {a b : Nic} (hne : a ≠ b) : ForeignTo net a (net.macs b) :=
  ⟨net.macs_nodup b, net.macs_apart a b hne⟩

theorem foreignTo_existing {nics : List Nic} (hnodup : nics.Nodup) (hnot : nic ∉ nics) :
    ForeignTo net nic (nics.flatMap net.macs) := by
  refine ⟨List.nodup_flatMap.mpr ⟨fun b _ => net.macs_nodup b, ?_⟩, fun i hi hmem => ?_⟩
  · refine hnodup.imp fun {a b} hne m ha hb => ?_
    obtain ⟨i, hi, rfl⟩ := List.mem_map.mp ha
    exact net.macs_apart a b hne i (List.mem_of_mem_filter hi) hb
  · obtain ⟨b, hb, hmac⟩ := List.mem_flatMap.mp hmem
    exact net.macs_apart nic b (fun heq => hnot (heq ▸ hb)) i hi hmac

variable [DecidableEq Host] [DecidableEq Mac] [DecidableEq Group]

theorem configureNic_ok (hmacs : ForeignTo net nic macs)
    (h : configureNic net.toLayout now mcastMac macs nic tables = .ok tables') (host : Host) :
    (host ∉ net.bridges nic → tables' host = tables host) ∧
      (host ∈ net.bridges nic →
        Visited now macs (net.interfaces nic) (tables host) (tables' host)) := by
  rw [configureNic] at h
  split at h
  · next hnone =>
    rw [pure_eq_ok] at h
    subst h
    rw [Layout.bridges_of_none hnone]
    exact ⟨fun _ => rfl, fun hmem => absurd hmem List.not_mem_nil⟩
  · next car hcar =>
    rw [Layout.bridges_of_some hcar]
    refine ⟨fun hnot => updateEach_frame hnot h, fun hmem => ?_⟩
    have htable := updateEach_mem ((net.topology_nodup car).filter _) hmem h
    simp only [bind_eq_ok, require_eq_ok] at htable
    obtain ⟨interfaces, hinterfaces, hvisit⟩ := htable
    have hnic : net.interfaces nic = interfaces := by rw [Layout.interfaces, hinterfaces]; rfl
    rw [hnic]
    exact visitTable_ok hmacs.1 (hnic ▸ hmacs.2) hvisit

theorem exists_configureNic_ok (hnic : (net.interfaceTable nic).isSome = true)
    (tables : Host → MacForwardingTable Mac Group) :
    ∃ tables', configureNic net.toLayout now mcastMac macs nic tables = .ok tables' := by
  rw [configureNic]
  split
  · exact ⟨tables, rfl⟩
  · refine exists_updateEach_ok fun _ _ table => ?_
    obtain ⟨interfaces, hinterfaces⟩ := Option.isSome_iff_exists.mp hnic
    obtain ⟨table', htable'⟩ := exists_visitTable_ok now mcastMac macs interfaces table
    simp only [bind_eq_ok, require_eq_ok]
    exact ⟨table', interfaces, hinterfaces, htable'⟩

theorem addExisting_ok {s : BridgeState Nic Car Host Mac Group} {b : Bool}
    (hnew : value ∉ s.registeredNics)
    (h : addExisting net.toLayout now mcastMac (s.registeredNics.flatMap net.macs) value tables =
      .ok (b, tables')) (host : Host) :
    (host ∉ net.bridges value → tables' host = tables host) ∧
      (host ∈ net.bridges value → s.registeredNics.flatMap net.macs = [] ∧
          tables' host = tables host ∨
        Visited now (s.registeredNics.flatMap net.macs) (net.interfaces value) (tables host)
          (tables' host)) := by
  rw [addExisting] at h
  split at h
  · next hnil =>
    rw [pure_eq_ok] at h
    cases h
    exact ⟨fun _ => rfl, fun _ => .inl ⟨hnil, rfl⟩⟩
  · split at h
    · next hnone =>
      rw [pure_eq_ok] at h
      cases h
      rw [Layout.bridges_of_none hnone]
      exact ⟨fun _ => rfl, fun hmem => absurd hmem List.not_mem_nil⟩
    · simp only [bind_eq_ok, pure_eq_ok, Prod.mk.injEq] at h
      obtain ⟨_, h, -, rfl⟩ := h
      obtain ⟨hframe, hvisited⟩ := configureNic_ok (foreignTo_existing s.nodup hnew) h host
      exact ⟨hframe, fun hhost => .inr (hvisited hhost)⟩

variable [LinearOrder Nic]

/-- The tables of the other network cards, which do not share bridges. -/
theorem configureOthers_ok : ∀ {nics : List Nic}
    {tables tables' : Host → MacForwardingTable Mac Group},
    (∀ nic ∈ nics, nic ≠ value → ForeignTo net nic macs) → nics.Nodup →
    configureOthers net.toLayout now mcastMac macs value nics tables = .ok tables' →
    ∀ host, ((∀ nic ∈ nics, nic ≠ value → host ∉ net.bridges nic) → tables' host = tables host) ∧
      ∀ nic ∈ nics, nic ≠ value → host ∈ net.bridges nic →
        Visited now macs (net.interfaces nic) (tables host) (tables' host)
  | [], tables, tables', _, _, h, host => by
    rw [configureOthers, pure_eq_ok] at h
    subst h
    exact ⟨fun _ => rfl, fun _ hmem => absurd hmem List.not_mem_nil⟩
  | first :: nics, tables, tables', hmacs, hnodup, h, host => by
    rw [List.nodup_cons] at hnodup
    have hmacs' := fun nic hnic => hmacs nic (List.mem_cons_of_mem _ hnic)
    rw [configureOthers] at h
    -- the new network card is in the set already and is skipped
    split at h
    · next heq =>
      obtain ⟨hframe, hvisited⟩ := configureOthers_ok hmacs' hnodup.2 h host
      refine ⟨fun hnot => hframe fun nic hnic => hnot nic (List.mem_cons_of_mem _ hnic), ?_⟩
      intro nic hnic hne
      exact hvisited nic ((List.mem_cons.mp hnic).resolve_left fun h => hne (h.trans heq)) hne
    · next hne =>
      simp only [bind_eq_ok] at h
      obtain ⟨tables₁, hfirst, hrest⟩ := h
      obtain ⟨hframe₁, hvisited₁⟩ :=
        configureNic_ok (hmacs first List.mem_cons_self hne) hfirst host
      obtain ⟨hframe, hvisited⟩ := configureOthers_ok hmacs' hnodup.2 hrest host
      refine ⟨fun hnot => ?_, fun nic hnic hnicne hhost => ?_⟩
      · rw [hframe fun nic hnic => hnot nic (List.mem_cons_of_mem _ hnic),
          hframe₁ (hnot first List.mem_cons_self hne)]
      -- two network cards have no bridge in common, so no table is written twice
      · rcases List.mem_cons.mp hnic with rfl | hnic
        · rw [hframe fun other hother _ => net.bridges_apart nic other
            (fun heq => hnodup.1 (heq ▸ hother)) host hhost]
          exact hvisited₁ hhost
        · rw [← hframe₁ (net.bridges_apart nic first (fun heq => hnodup.1 (heq ▸ hnic)) host hhost)]
          exact hvisited nic hnic hnicne hhost

/-! ### All tables -/

/-- The registration of `value` writes the addresses of `b` to the bridges of `a`. -/
def Pair (s : BridgeState Nic Car Host Mac Group) (value a b : Nic) : Prop :=
  a ∈ s.registeredNics ∧ b = value ∨ a = value ∧ b ∈ s.registeredNics

/-- The registration of `value` writes the address to the table of the host. -/
def Writes (net : Network Nic Car Host Mac Group) (s : BridgeState Nic Car Host Mac Group)
    (value : Nic) (host : Host) (m : Mac) : Prop :=
  ∃ a b, Pair s value a b ∧ host ∈ net.bridges a ∧ m ∈ net.macs b

/-- The state after the registration of a new network card. -/
structure Registers (net : Network Nic Car Host Mac Group)
    (s : BridgeState Nic Car Host Mac Group) (value : Nic)
    (s' : BridgeState Nic Car Host Mac Group) : Prop where
  now : s'.now = s.now
  configurations : s'.configurations = s.configurations
  mem : ∀ nic, nic ∈ s'.registeredNics ↔ nic = value ∨ nic ∈ s.registeredNics
  sameSettings : ∀ host, (s.tables host).SameSettings (s'.tables host)
  frame : ∀ host vid m, ¬ (vid = 0 ∧ Writes net s value host m) →
    (s'.tables host).forwardingTable (vid, m) = (s.tables host).forwardingTable (vid, m)
  written : ∀ a b host m last, Pair s value a b → host ∈ net.bridges a → m ∈ net.macs b →
    (net.interfaces a).getLast? = some last → (s'.tables host).forwardingTable (0, m) =
      some (installedEntry s.now (net.interfaces a) last (s.tables host) m)

/-- **What a registration writes.** -/
theorem registerNic_ok {s s' : BridgeState Nic Car Host Mac Group}
    (hnew : value ∉ s.registeredNics) (h : registerNic net.toLayout value s = .ok s') :
    Registers net s value s' := by
  obtain ⟨b, h⟩ := registerNic_eq_ok.mp h
  simp only [registerNicResult, dif_neg hnew, bind_eq_ok, require_eq_ok, pure_eq_ok,
    Prod.mk.injEq] at h
  obtain ⟨existing, hexisting, mcastMac, -, interfaces, hinterfaces, tables₁, hothers,
    ⟨b', tables'⟩, hown, -, rfl⟩ := h
  obtain rfl := existingNicMacs_ok hexisting
  have hmacs : macAddresses interfaces = net.macs value := by
    rw [Layout.macs, Layout.interfaces, hinterfaces]
    rfl
  rw [hmacs] at hothers
  have hmem : ∀ nic, nic ∈ s.registeredNics.orderedInsert (· ≤ ·) value ↔
      nic = value ∨ nic ∈ s.registeredNics := fun nic => List.mem_orderedInsert _
  have hnodup : (s.registeredNics.orderedInsert (· ≤ ·) value).Nodup :=
    (List.perm_orderedInsert _ _ _).nodup_iff.mpr (List.nodup_cons.mpr ⟨hnew, s.nodup⟩)
  have hothers := configureOthers_ok (fun nic _ hne => foreignTo_macs hne) hnodup hothers
  have hown := addExisting_ok hnew hown
  have hold : ∀ a ∈ s.registeredNics, a ≠ value := fun a ha heq => hnew (heq ▸ ha)
  -- a table belongs to a registered network card, to the new one, or to none of them
  have hcases : ∀ host,
      (∃ a ∈ s.registeredNics, host ∈ net.bridges a ∧ Visited s.now (net.macs value)
        (net.interfaces a) (s.tables host) (tables' host)) ∨
      (host ∈ net.bridges value ∧ s.registeredNics.flatMap net.macs = [] ∧
        tables' host = s.tables host) ∨
      (host ∈ net.bridges value ∧ Visited s.now (s.registeredNics.flatMap net.macs)
        (net.interfaces value) (s.tables host) (tables' host)) ∨
      ((∀ a, a = value ∨ a ∈ s.registeredNics → host ∉ net.bridges a) ∧
        tables' host = s.tables host) := by
    intro host
    obtain ⟨hframe₁, hvisited₁⟩ := hothers host
    obtain ⟨hframe, hvisited⟩ := hown host
    by_cases hregistered : ∃ a ∈ s.registeredNics, host ∈ net.bridges a
    · obtain ⟨a, ha, hhost⟩ := hregistered
      refine .inl ⟨a, ha, hhost, ?_⟩
      rw [hframe (net.bridges_apart a value (hold a ha) host hhost)]
      exact hvisited₁ a ((hmem a).mpr (.inr ha)) (hold a ha) hhost
    · have hsame : tables₁ host = s.tables host := hframe₁ fun a ha hne hhost =>
        hregistered ⟨a, ((hmem a).mp ha).resolve_left hne, hhost⟩
      by_cases hhost : host ∈ net.bridges value
      · rw [← hsame]
        rcases hvisited hhost with ⟨hnil, hsame'⟩ | hvisit
        · exact .inr (.inl ⟨hhost, hnil, hsame'⟩)
        · exact .inr (.inr (.inl ⟨hhost, hvisit⟩))
      · refine .inr (.inr (.inr ⟨fun a ha hhost' => ?_, by rw [hframe hhost, hsame]⟩))
        rcases ha with rfl | ha
        · exact hhost hhost'
        · exact hregistered ⟨a, ha, hhost'⟩
  refine ⟨rfl, rfl, hmem, fun host => ?_, fun host vid m hnot => ?_, ?_⟩
  · change (s.tables host).SameSettings (tables' host)
    rcases hcases host with ⟨_, _, _, hvisit⟩ | ⟨_, _, hsame⟩ | ⟨_, hvisit⟩ | ⟨_, hsame⟩
    · exact hvisit.sameSettings
    · exact hsame ▸ .refl _
    · exact hvisit.sameSettings
    · exact hsame ▸ .refl _
  · change (tables' host).forwardingTable (vid, m) = _
    rcases hcases host with ⟨a, ha, hhost, hvisit⟩ | ⟨_, _, hsame⟩ | ⟨hhost, hvisit⟩ | ⟨_, hsame⟩
    · exact hvisit.frame vid m fun hkey => hnot ⟨hkey.1, a, value, .inl ⟨ha, rfl⟩, hhost, hkey.2⟩
    · rw [hsame]
    · refine hvisit.frame vid m fun hkey => ?_
      obtain ⟨b, hb, hm⟩ := List.mem_flatMap.mp hkey.2
      exact hnot ⟨hkey.1, value, b, .inr ⟨rfl, hb⟩, hhost, hm⟩
    · rw [hsame]
  · intro a b host m last hpair hhost hm hlast
    rcases hpair with ⟨ha, rfl⟩ | ⟨rfl, hb⟩
    · rcases hcases host with ⟨a', ha', hhost', hvisit⟩ | ⟨hhost', _⟩ | ⟨hhost', _⟩ | ⟨hnone, _⟩
      · obtain rfl := bridges_unique hhost hhost'
        exact hvisit.written last hlast m hm
      · exact absurd (bridges_unique hhost hhost') (hold a ha)
      · exact absurd (bridges_unique hhost hhost') (hold a ha)
      · exact absurd hhost (hnone a (.inr ha))
    · have hmem : m ∈ s.registeredNics.flatMap net.macs := List.mem_flatMap.mpr ⟨b, hb, hm⟩
      rcases hcases host with ⟨a', ha', hhost', _⟩ | ⟨_, hnil, _⟩ | ⟨_, hvisit⟩ | ⟨hnone, _⟩
      · exact absurd (bridges_unique hhost' hhost) (hold a' ha')
      · rw [hnil] at hmem
        exact absurd hmem List.not_mem_nil
      · exact hvisit.written last hlast m hmem
      · exact absurd hhost (hnone a (.inl rfl))

/-- A known network card changes nothing. -/
theorem registerNic_known {s s' : BridgeState Nic Car Host Mac Group}
    (hknown : value ∈ s.registeredNics) (h : registerNic net.toLayout value s = .ok s') :
    s' = s := by
  obtain ⟨b, h⟩ := registerNic_eq_ok.mp h
  simp only [registerNicResult, dif_pos hknown, bind_eq_ok, pure_eq_ok, Prod.mk.injEq] at h
  obtain ⟨_, -, _, -, -, rfl⟩ := h
  rfl

/-! ### Success -/

theorem exists_configureOthers_ok : ∀ {nics : List Nic},
    (∀ nic ∈ nics, (net.interfaceTable nic).isSome = true) →
    ∀ tables : Host → MacForwardingTable Mac Group,
      ∃ tables', configureOthers net.toLayout now mcastMac macs value nics tables = .ok tables'
  | [], _, tables => ⟨tables, rfl⟩
  | nic :: nics, hnics, tables => by
    have hrest := fun nic hnic => hnics nic (List.mem_cons_of_mem _ hnic)
    rw [configureOthers]
    split
    · exact exists_configureOthers_ok hrest tables
    · obtain ⟨tables₁, h₁⟩ := exists_configureNic_ok (hnics nic List.mem_cons_self) tables
      obtain ⟨tables', h'⟩ := exists_configureOthers_ok hrest tables₁
      simp only [bind_eq_ok]
      exact ⟨tables', tables₁, h₁, h'⟩

/-- A registration does not fail if the assertions of the source hold. -/
theorem exists_registerNic_ok (hgroup : net.multicastAddress.isSome = true)
    (hnics : ∀ nic, (net.interfaceTable nic).isSome = true) (value : Nic)
    (s : BridgeState Nic Car Host Mac Group) :
    ∃ s', registerNic net.toLayout value s = .ok s' := by
  obtain ⟨mcastMac, hmcast⟩ := Option.isSome_iff_exists.mp hgroup
  have hmac : ∀ nic ∈ s.registeredNics, ∃ macs, nicMacs net.toLayout nic = .ok macs := by
    intro nic _
    obtain ⟨interfaces, hinterfaces⟩ := Option.isSome_iff_exists.mp (hnics nic)
    exact ⟨macAddresses interfaces, by rw [nicMacs, hinterfaces]; rfl⟩
  obtain ⟨macs, hmacs⟩ := exists_mapM_ok.mpr hmac
  have hexisting : existingNicMacs net.toLayout s.registeredNics = .ok macs.flatten := by
    simp only [existingNicMacs, bind_eq_ok, pure_eq_ok]
    exact ⟨macs, hmacs, rfl⟩
  refine (exists_congr fun s' => registerNic_eq_ok).mpr ?_
  simp only [registerNicResult, hexisting, hmcast, require, bind, Except.bind]
  split
  · exact ⟨s, false, rfl⟩
  · next hnew =>
    obtain ⟨interfaces, hinterfaces⟩ := Option.isSome_iff_exists.mp (hnics value)
    obtain ⟨tables₁, h₁⟩ : ∃ tables₁, configureOthers net.toLayout s.now mcastMac
        (macAddresses interfaces) value (s.registeredNics.orderedInsert (· ≤ ·) value) s.tables =
          .ok tables₁ :=
      exists_configureOthers_ok (fun nic _ => hnics nic) s.tables
    obtain ⟨⟨b, tables'⟩, h'⟩ : ∃ r, addExisting net.toLayout s.now mcastMac macs.flatten value
        tables₁ = .ok r := by
      rw [addExisting]
      split
      · exact ⟨_, rfl⟩
      · split
        · exact ⟨_, rfl⟩
        · obtain ⟨tables', h'⟩ := exists_configureNic_ok (hnics value) tables₁
          exact ⟨(true, tables'), bind_eq_ok.mpr ⟨tables', h', rfl⟩⟩
    simp only [hinterfaces, h₁, h']
    exact ⟨_, b, rfl⟩

end

/-! ## Events -/

/-- What writes to the forwarding tables of the bridges, and the clock. -/
inductive BridgeEvent (Nic Car Host Mac Group : Type) where
  | registerNic (value : Nic)
  /-- `learnUnicastAddressForwardingInterface` of the table in the host -/
  | learn (host : Host) (interfaceId : Int) (address : Mac) (vid : Nat)
  | advance (time : Int)
  /-- `ipv4MulticastChangeSignal` in the car, for an interface of the node -/
  | multicastChange (car : Car) (node : Host) (interface : String) (group : Group)

section

def advanceTo (time : Int) (s : BridgeState Nic Car Host Mac Group) :
    Except SimError (BridgeState Nic Car Host Mac Group) :=
  if h : s.now ≤ time ∧ time ≤ maxTime then .ok { s with now := time, now_le := h.2 }
  else .error (.runtimeError "simulation time")

theorem advanceTo_ok {time : Int} {s s' : BridgeState Nic Car Host Mac Group}
    (h : advanceTo time s = .ok s') :
    s.now ≤ time ∧ s'.now = time ∧ s'.registeredNics = s.registeredNics ∧ s'.tables = s.tables := by
  rw [advanceTo] at h
  split at h
  · next hle =>
    cases h
    exact ⟨hle.1, rfl, rfl, rfl⟩
  · cases h

variable [DecidableEq Car] [DecidableEq Host] [DecidableEq Mac] [DecidableEq Group]
  [LinearOrder Nic]

def step (net : Network Nic Car Host Mac Group) (s : BridgeState Nic Car Host Mac Group) :
    BridgeEvent Nic Car Host Mac Group → Except SimError (BridgeState Nic Car Host Mac Group)
  | .registerNic value => registerNic net.toLayout value s
  | .learn host interfaceId address vid => .ok { s with
      tables := Function.update s.tables host
        ((s.tables host).learnUnicastAddressForwardingInterface s.now interfaceId address vid) }
  | .advance time => advanceTo time s
  | .multicastChange car node interface group => do
    let (configurations, tables) ← MacForwardingTableConfigurator.receiveSignal net.toLayout car node
      interface group (s.configurations car) s.tables
    pure { s with
      configurations := Function.update s.configurations car configurations
      tables := tables }

variable {net : Network Nic Car Host Mac Group} {s s' : BridgeState Nic Car Host Mac Group}

theorem step_learn {host : Host} {interfaceId : Int} {address : Mac} {vid : Nat}
    (h : step net s (.learn host interfaceId address vid) = .ok s') :
    s'.now = s.now ∧ s'.registeredNics = s.registeredNics ∧
      s'.tables host = (s.tables host).learnUnicastAddressForwardingInterface s.now interfaceId
        address vid ∧
      ∀ other, other ≠ host → s'.tables other = s.tables other := by
  cases h
  exact ⟨rfl, rfl, Function.update_self .., fun other hne => Function.update_of_ne hne ..⟩

theorem step_multicastChange {car : Car} {node : Host} {interface : String} {group : Group}
    (h : step net s (.multicastChange car node interface group) = .ok s') :
    s'.now = s.now ∧ s'.registeredNics = s.registeredNics ∧ ∃ configurations,
      MacForwardingTableConfigurator.extendConfiguration net.toLayout car node interface
          (.inr group) (s.configurations car) = .ok configurations ∧
        MacForwardingTableConfigurator.configureMacForwardingTables net.toLayout car configurations
          s.tables = .ok s'.tables := by
  simp only [step, MacForwardingTableConfigurator.receiveSignal, bind_eq_ok, pure_eq_ok,
    ensure_eq_ok] at h
  obtain ⟨_, ⟨-, -, configurations, hextend, tables, hconfigure, rfl⟩, rfl⟩ := h
  exact ⟨rfl, rfl, configurations, hextend, hconfigure⟩

end

/-! ## Two cars -/

/-- The interfaces of the network card: `lo`, `wlan0` and `eth0`. -/
def nicInterfaces (nic : Fin 2) : List (NetworkInterface Nat) :=
  [⟨true, 0⟩, ⟨false, 2 * nic + 1⟩, ⟨false, 2 * nic + 2⟩]

/-- Two cars, with a bridge (0 and 1) and a device (2 and 3). -/
def twoCars : Network (Fin 2) (Fin 2) (Fin 4) Nat Unit where
  interfaceTable nic := some (nicInterfaces nic)
  configurator nic := some nic
  topology car := [⟨car, by omega⟩, ⟨car + 2, by omega⟩]
  topology_nodup := by decide
  hasInterfaceTable _ := true
  hasIpv4RoutingTable host := 2 ≤ host.val
  hasIpv6RoutingTable _ := false
  hasMacTable host := host.val < 2
  firstInterface _ _ _ _ := some "eth1"
  multicastAddress := some ()
  macs_nodup := by decide
  macs_apart := by decide
  bridges_apart := by decide

def emptyTable : MacForwardingTable Nat Unit where
  agingTime := 120 * SimTime.sec
  agingTime_pos := by decide
  lastPurge := 0
  forwardingTable _ := none
  multicastForwardingTable _ := none
  findInterfaceByName name :=
    if name = "eth0" then some 101 else if name = "eth1" then some 102 else none

/-- The rule for `eth0` of the network card. -/
def nicRule (nic : Fin 2) : ForwardingRule Nat Unit := ⟨none, .inl (2 * nic + 2), "eth0"⟩

/-- The tables of the bridges are configured, nobody has registered. -/
def twoCarsStart : BridgeState (Fin 2) (Fin 2) (Fin 4) Nat Unit where
  now := 0
  now_le := by decide
  registeredNics := []
  nodup := List.nodup_nil
  tables host :=
    if host.val < 2 then emptyTable.setUnicastAddressForwardingInterface 101 (2 * host + 2) 0
    else emptyTable
  configurations car host := if host.val = car.val then some [nicRule car] else none

end CooperativeTsn
