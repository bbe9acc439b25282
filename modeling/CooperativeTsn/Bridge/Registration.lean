import CooperativeTsn.Bridge.Configurator
import Mathlib.Data.List.Sort

/-!
# `ForwardingAutoConfigurator`

When a network card registers, the addresses of its interfaces are written to the bridges of all
other registered cars, and theirs to its own bridges. The port is the one that the bridge has for
the network card of its own car: the loop looks up each interface of the network card and writes
the result every time, so the last interface decides.

* `visitTable_ok` — what is written to one table
-/

namespace CooperativeTsn

open Infra.Aging Infra.Runs Infra.Updates MacForwardingTable

variable {Nic Car Host Mac Group : Type}

/-- The addresses of the interfaces that are not loopback. -/
def macAddresses (interfaces : List (NetworkInterface Mac)) : List Mac :=
  (interfaces.filter fun interface => !interface.isLoopback).map (·.macAddress)

/-- The simulation, as far as forwarding tables depend on it. -/
structure BridgeState (Nic Car Host Mac Group : Type) where
  now : Int
  now_le : now ≤ maxTime
  /-- `registerdNics` -/
  registeredNics : List Nic
  nodup : registeredNics.Nodup
  tables : Host → MacForwardingTable Mac Group
  configurations : Car → MacForwardingTableConfigurator.Configurations Host Mac Group

namespace ForwardingAutoConfigurator

/-! ## Registration -/

/-- `ForwardingAutoConfigurator::isBridgeNode` -/
def isBridgeNode (layout : Layout Nic Car Host Mac Group) (host : Host) : Bool :=
  layout.hasInterfaceTable host || layout.hasIpv4RoutingTable host ||
    layout.hasIpv6RoutingTable host

/-- The tables that the loop over the topology comes to. -/
def bridgeTables (layout : Layout Nic Car Host Mac Group) (car : Car) : List Host :=
  (layout.topology car).filter fun host => isBridgeNode layout host && layout.hasMacTable host

section

variable [DecidableEq Mac] [DecidableEq Group]

/-- The multicast address goes to the first port that is found. -/
def addGroupPort (result : Int) (mcastMac : Group) (macTable : MacForwardingTable Mac Group) :
    Except SimError (MacForwardingTable Mac Group) :=
  if macTable.getMulticastAddressForwardingInterfaces mcastMac 0 = [] ∧ result ≠ -1 then
    macTable.addMulticastAddressForwardingInterface result mcastMac 0
  else pure macTable

/-- The body of the loop over the interfaces. -/
def visitInterface (now : Int) (mcastMac : Group) (newMacAddresses : List Mac)
    (macTable : MacForwardingTable Mac Group) (interface : NetworkInterface Mac) :
    Except SimError (MacForwardingTable Mac Group) := do
  let result := macTable.getUnicastAddressForwardingInterface now interface.macAddress 0
  let macTable ← addGroupPort result mcastMac macTable
  pure (newMacAddresses.foldl
    (fun macTable newMacAddress =>
      macTable.setUnicastAddressForwardingInterface result newMacAddress 0) macTable)

def visitTable (now : Int) (mcastMac : Group) (newMacAddresses : List Mac)
    (interfaces : List (NetworkInterface Mac)) (macTable : MacForwardingTable Mac Group) :
    Except SimError (MacForwardingTable Mac Group) :=
  interfaces.foldlM (visitInterface now mcastMac newMacAddresses) macTable

variable [DecidableEq Host] [LinearOrder Nic]

/-- The tables next to the network card. Without a configurator there is only an error message. -/
def configureNic (layout : Layout Nic Car Host Mac Group) (now : Int) (mcastMac : Group)
    (newMacAddresses : List Mac) (nic : Nic) (tables : Host → MacForwardingTable Mac Group) :
    Except SimError (Host → MacForwardingTable Mac Group) :=
  match layout.configurator nic with
  | none => pure tables
  | some car =>
    updateEach (fun _ macTable => do
      let interfaces ← require .nullPointer (layout.interfaceTable nic)
      visitTable now mcastMac newMacAddresses interfaces macTable) (bridgeTables layout car) tables

/-- The loop over the registered network cards; the new one is left out. -/
def configureOthers (layout : Layout Nic Car Host Mac Group) (now : Int) (mcastMac : Group)
    (newMacAddresses : List Mac) (value : Nic) :
    List Nic → (Host → MacForwardingTable Mac Group) →
      Except SimError (Host → MacForwardingTable Mac Group)
  | [], tables => pure tables
  | nic :: nics, tables =>
    if nic = value then configureOthers layout now mcastMac newMacAddresses value nics tables
    else do
      let tables ← configureNic layout now mcastMac newMacAddresses nic tables
      configureOthers layout now mcastMac newMacAddresses value nics tables

def nicMacs (layout : Layout Nic Car Host Mac Group) (nic : Nic) : Except SimError (List Mac) := do
  let interfaces ← require .nullPointer (layout.interfaceTable nic)
  pure (macAddresses interfaces)

/-- `existing_nic_macs` -/
def existingNicMacs (layout : Layout Nic Car Host Mac Group) (nics : List Nic) :
    Except SimError (List Mac) := do
  let macs ← nics.mapM (nicMacs layout)
  pure macs.flatten

/-- `std::set` keeps the modules in the order of their addresses in memory. -/
def insertNic (value : Nic) (s : BridgeState Nic Car Host Mac Group)
    (h : value ∉ s.registeredNics) (tables : Host → MacForwardingTable Mac Group) :
    BridgeState Nic Car Host Mac Group :=
  { s with
    registeredNics := s.registeredNics.orderedInsert (· ≤ ·) value
    nodup := (List.perm_orderedInsert _ _ _).nodup_iff.mpr (List.nodup_cons.mpr ⟨h, s.nodup⟩)
    tables := tables }

/--
The tables of the new network card. Without other addresses it is left early, without a configurator
it fails.
-/
def addExisting (layout : Layout Nic Car Host Mac Group) (now : Int) (mcastMac : Group)
    (existing : List Mac) (value : Nic) (tables : Host → MacForwardingTable Mac Group) :
    Except SimError (Bool × (Host → MacForwardingTable Mac Group)) :=
  if existing = [] then pure (true, tables)
  else if layout.configurator value = none then pure (false, tables)
  else do
    let tables ← configureNic layout now mcastMac existing value tables
    pure (true, tables)

/-- `registerNic`, with its return value. -/
def registerNicResult (layout : Layout Nic Car Host Mac Group) (value : Nic)
    (s : BridgeState Nic Car Host Mac Group) :
    Except SimError (Bool × BridgeState Nic Car Host Mac Group) := do
  let existing ← existingNicMacs layout s.registeredNics
  let mcastMac ← require
    (.assertion ("No multicast address specified. Needed to simulate broadcast in the wireless " ++
      "network."))
    layout.multicastAddress
  if h : value ∈ s.registeredNics then pure (false, s)
  else do
    let interfaces ← require (.assertion "No interface table found for newly registered nic")
      (layout.interfaceTable value)
    let tables ← configureOthers layout s.now mcastMac (macAddresses interfaces) value
      (s.registeredNics.orderedInsert (· ≤ ·) value) s.tables
    let (result, tables) ← addExisting layout s.now mcastMac existing value tables
    pure (result, insertNic value s h tables)

/-- `registerNic` as a slot of the signal, where nobody reads the return value. -/
def registerNic (layout : Layout Nic Car Host Mac Group) (value : Nic)
    (s : BridgeState Nic Car Host Mac Group) :
    Except SimError (BridgeState Nic Car Host Mac Group) :=
  (registerNicResult layout value s).map Prod.snd

theorem registerNic_eq_ok {layout : Layout Nic Car Host Mac Group} {value : Nic}
    {s s' : BridgeState Nic Car Host Mac Group} :
    registerNic layout value s = .ok s' ↔ ∃ b, registerNicResult layout value s = .ok (b, s') := by
  rw [registerNic, map_eq_ok]
  constructor
  · rintro ⟨⟨b, s''⟩, h, rfl⟩
    exact ⟨b, h⟩
  · rintro ⟨b, h⟩
    exact ⟨(b, s'), h, rfl⟩

end

/-! ## One table -/

section

variable {now result : Int} {mcastMac : Group} {macs : List Mac}
  {table table' : MacForwardingTable Mac Group}

section

variable [DecidableEq Group]

theorem addGroupPort_ok (h : addGroupPort result mcastMac table = .ok table') :
    table.SameSettings table' ∧ table'.forwardingTable = table.forwardingTable := by
  rw [addGroupPort] at h
  split at h
  · exact addMulticast_ok h
  · rw [pure_eq_ok] at h
    subst h
    exact ⟨.refl table, rfl⟩

theorem exists_addGroupPort_ok (result : Int) (mcastMac : Group)
    (table : MacForwardingTable Mac Group) :
    ∃ table', addGroupPort result mcastMac table = .ok table' := by
  rw [addGroupPort]
  split
  · next h =>
    rw [addMulticastAddressForwardingInterface]
    split
    · exact ⟨_, rfl⟩
    · next interfaceIds hids =>
      rw [getMulticastAddressForwardingInterfaces, hids, Option.getD_some] at h
      rw [h.1, if_neg List.not_mem_nil]
      exact ⟨_, rfl⟩
  · exact ⟨table, rfl⟩

end

variable [DecidableEq Mac]

/-- Different addresses are written once each. -/
theorem forwardingTable_foldl_set {vid : Nat} {m : Mac} : ∀ {macs : List Mac}
    {table : MacForwardingTable Mac Group}, macs.Nodup →
    (macs.foldl (fun table mac => table.setUnicastAddressForwardingInterface result mac 0)
        table).forwardingTable (vid, m) =
      if vid = 0 ∧ m ∈ macs then some (replaceEntry result (table.forwardingTable (vid, m)))
      else table.forwardingTable (vid, m)
  | [], table, _ => by simp
  | mac :: macs, table, hnodup => by
    rw [List.nodup_cons] at hnodup
    rw [List.foldl_cons, forwardingTable_foldl_set hnodup.2, forwardingTable_set]
    by_cases hkey : (vid, m) = (0, mac)
    · obtain ⟨rfl, rfl⟩ := Prod.mk.inj hkey
      simp [hnodup.1]
    · have hne : ¬ (vid = 0 ∧ m = mac) := fun h => hkey (by rw [h.1, h.2])
      rw [Function.update_of_ne hkey]
      refine if_congr ?_ rfl rfl
      rw [List.mem_cons]
      exact ⟨fun h => ⟨h.1, .inr h.2⟩, fun h => ⟨h.1, h.2.resolve_left fun heq => hne ⟨h.1, heq⟩⟩⟩

theorem sameSettings_foldl_set : ∀ {macs : List Mac} {table : MacForwardingTable Mac Group},
    table.SameSettings (macs.foldl
      (fun table mac => table.setUnicastAddressForwardingInterface result mac 0) table)
  | [], table => .refl table
  | mac :: macs, table => by
    rw [List.foldl_cons]
    exact sameSettings_set.trans sameSettings_foldl_set

variable [DecidableEq Group]

/-- The entry after a visit. The result of the last interface stays, and only an entry that was new
and written once can age. -/
def installedEntry (now : Int) (interfaces : List (NetworkInterface Mac))
    (last : NetworkInterface Mac) (table : MacForwardingTable Mac Group) (m : Mac) : AddressEntry :=
  ⟨table.getUnicastAddressForwardingInterface now last.macAddress 0,
    if table.forwardingTable (0, m) = none ∧ interfaces.length = 1 then newEntryTime else maxTime⟩

/-- What a visit of the interfaces writes. -/
structure Visited (now : Int) (macs : List Mac) (interfaces : List (NetworkInterface Mac))
    (table table' : MacForwardingTable Mac Group) : Prop where
  sameSettings : table.SameSettings table'
  frame : ∀ vid m, ¬ (vid = 0 ∧ m ∈ macs) →
    table'.forwardingTable (vid, m) = table.forwardingTable (vid, m)
  written : ∀ last, interfaces.getLast? = some last → ∀ m ∈ macs,
    table'.forwardingTable (0, m) = some (installedEntry now interfaces last table m)

theorem visitInterface_ok (hmacs : macs.Nodup) {interface : NetworkInterface Mac}
    (h : visitInterface now mcastMac macs table interface = .ok table') :
    table.SameSettings table' ∧ ∀ vid m, table'.forwardingTable (vid, m) =
      if vid = 0 ∧ m ∈ macs then some (replaceEntry
        (table.getUnicastAddressForwardingInterface now interface.macAddress 0)
        (table.forwardingTable (vid, m)))
      else table.forwardingTable (vid, m) := by
  simp only [visitInterface, bind_eq_ok, pure_eq_ok] at h
  obtain ⟨table₁, hgroup, rfl⟩ := h
  obtain ⟨hsame, htable⟩ := addGroupPort_ok hgroup
  refine ⟨hsame.trans sameSettings_foldl_set, fun vid m => ?_⟩
  rw [forwardingTable_foldl_set hmacs, htable]

/-- **What is written to one table.** The addresses are foreign: no interface has one of them. -/
theorem visitTable_ok (hmacs : macs.Nodup) : ∀ {interfaces : List (NetworkInterface Mac)}
    {table table' : MacForwardingTable Mac Group},
    (∀ interface ∈ interfaces, interface.macAddress ∉ macs) →
    visitTable now mcastMac macs interfaces table = .ok table' →
    Visited now macs interfaces table table'
  | [], table, table', _, h => by
    rw [visitTable, List.foldlM_nil, pure_eq_ok] at h
    subst h
    exact ⟨.refl table, fun _ _ _ => rfl, by simp⟩
  | interface :: interfaces, table, table', hforeign, h => by
    simp only [visitTable, List.foldlM_cons, bind_eq_ok] at h
    obtain ⟨table₁, hfirst, hrest⟩ := h
    obtain ⟨hsame₁, hentries₁⟩ := visitInterface_ok hmacs hfirst
    obtain ⟨hsame, hframe, hwritten⟩ := visitTable_ok hmacs
      (fun i hi => hforeign i (List.mem_cons_of_mem _ hi)) hrest
    refine ⟨hsame₁.trans hsame, fun vid m hkey => ?_, fun last hlast m hm => ?_⟩
    · rw [hframe vid m hkey, hentries₁, if_neg hkey]
    · have hfirst : table₁.forwardingTable (0, m) = some (replaceEntry
          (table.getUnicastAddressForwardingInterface now interface.macAddress 0)
          (table.forwardingTable (0, m))) := by
        rw [hentries₁, if_pos ⟨rfl, hm⟩]
      -- every interface writes the same keys, so the last one decides what is in the table
      cases interfaces with
      | nil =>
        rw [List.foldlM_nil, pure_eq_ok] at hrest
        subst hrest
        rw [List.getLast?_singleton, Option.some.injEq] at hlast
        rw [hfirst, hlast, installedEntry]
        cases table.forwardingTable (0, m) <;> simp [replaceEntry]
      | cons next interfaces =>
        rw [List.getLast?_cons_cons] at hlast
        have hmem : last ∈ interface :: next :: interfaces :=
          List.mem_cons_of_mem _ (List.mem_of_getLast? hlast)
        -- the addresses are foreign, so the entry of the last interface is still the old one
        have hentry : table₁.forwardingTable (0, last.macAddress) =
            table.forwardingTable (0, last.macAddress) := by
          rw [hentries₁, if_neg fun h => hforeign last hmem h.2]
        have hown : table₁.getUnicastAddressForwardingInterface now last.macAddress 0 =
            table.getUnicastAddressForwardingInterface now last.macAddress 0 := by
          rw [getUnicast_eq_find, getUnicast_eq_find, hsame₁.horizon, find_congr hentry]
        rw [hwritten last hlast m hm, installedEntry, installedEntry, hown, hfirst]
        simp

theorem exists_visitTable_ok (now : Int) (mcastMac : Group) (macs : List Mac) :
    ∀ (interfaces : List (NetworkInterface Mac)) (table : MacForwardingTable Mac Group),
      ∃ table', visitTable now mcastMac macs interfaces table = .ok table'
  | [], table => ⟨table, rfl⟩
  | interface :: interfaces, table => by
    obtain ⟨table₁, h₁⟩ := exists_addGroupPort_ok
      (table.getUnicastAddressForwardingInterface now interface.macAddress 0) mcastMac table
    obtain ⟨table', h'⟩ := exists_visitTable_ok now mcastMac macs interfaces (macs.foldl
      (fun macTable mac => macTable.setUnicastAddressForwardingInterface
        (table.getUnicastAddressForwardingInterface now interface.macAddress 0) mac 0) table₁)
    refine ⟨table', ?_⟩
    simp only [visitTable, List.foldlM_cons, visitInterface, bind_eq_ok, pure_eq_ok]
    exact ⟨_, ⟨table₁, h₁, rfl⟩, h'⟩

end

end ForwardingAutoConfigurator

end CooperativeTsn
