import CooperativeTsn.Config.Value
import CooperativeTsn.Infra.Subnet
import Mathlib.Data.List.Forall2

/-!
# Addresses that hosts give themselves

`HostAutoConfigurator::setupNetworkLayer`. A host adds the module id of an interface to the base
address, modulo 2^32, and compares the result with the base under the netmask. This is all that is
tested: the address of the network and its directed broadcast address are given out as well.

* `configureInterfaces_forall₂` — what the loop over the names does to each interface
* `listed_addresses` — the listed interfaces of all hosts have the base plus their id
* `addresses_usable_iff` — when all of them can use what they get
-/

namespace CooperativeTsn

open Infra.Runs Infra.Subnet

abbrev Ipv4Address := BitVec 32

namespace Ipv4Address

/-- `Ipv4Address(i0, i1, i2, i3)` -/
def ofBytes (i0 i1 i2 i3 : Nat) : Ipv4Address :=
  BitVec.ofNat 32 i0 <<< 24 ||| BitVec.ofNat 32 i1 <<< 16 ||| BitVec.ofNat 32 i2 <<< 8 |||
    BitVec.ofNat 32 i3

/-- 127.0.0.1 -/
def LOOPBACK_ADDRESS : Ipv4Address := ofBytes 127 0 0 1

/-- 255.0.0.0 -/
def LOOPBACK_NETMASK : Ipv4Address := ofBytes 255 0 0 0

/-- 224.0.0.1 -/
def ALL_HOSTS_MCAST : Ipv4Address := ofBytes 224 0 0 1

/-- 224.0.0.2 -/
def ALL_ROUTERS_MCAST : Ipv4Address := ofBytes 224 0 0 2

def isMulticast (addr : Ipv4Address) : Bool := addr &&& 0xF0000000 = 0xE0000000

def str (addr : Ipv4Address) : String :=
  if addr = 0 then "<unspec>"
  else
    let byte (i : Nat) : String := toString (addr >>> i &&& 255).toNat
    byte 24 ++ "." ++ byte 16 ++ "." ++ byte 8 ++ "." ++ byte 0

/-- The number at the start of a text, and what follows it. -/
def readNumber : List Char → Nat → Nat × List Char
  | [], num => (num, [])
  | c :: rest, num =>
    if c.isDigit then readNumber rest (10 * num + (c.toNat - '0'.toNat)) else (num, c :: rest)

/-- The bytes of a text in dotted notation, of which `left` have not been read. -/
def parseBytes : Nat → List Char → Option (List Nat)
  | 0, _ => none
  | left + 1, text =>
    if text.head?.all (!·.isDigit) then none
    else
      match readNumber text 0 with
      | (num, []) => if num ≤ 255 ∧ left = 0 then some [num] else none
      | (num, c :: rest) =>
        if num ≤ 255 ∧ c = '.' then (parseBytes left rest).map (num :: ·) else none

def parseIPAddress (text : String) : Option (List Nat) :=
  if text = "<unspec>" then some [0, 0, 0, 0] else parseBytes 4 text.toList

/-- `Ipv4Address(text)` -/
def ofText (text : String) : Except SimError Ipv4Address :=
  match parseIPAddress text with
  | some [i0, i1, i2, i3] => pure (ofBytes i0 i1 i2 i3)
  | _ => throw (.runtimeError ("Invalid Ipv4 address string `" ++ text ++ "'"))

end Ipv4Address

/-- `cStringTokenizer`: the words between blanks. -/
def tokens (text : String) : List String :=
  ((text.toList.splitOn ' ').filter (· ≠ [])).map String.ofList

structure Ipv4InterfaceData where
  inetAddr : Ipv4Address
  netmask : Ipv4Address
  metric : Int
  /-- each with the number of sockets that listen to it from all sources -/
  joinedMulticastGroups : List (Ipv4Address × Nat)
deriving DecidableEq, Repr

structure Ipv4Interface where
  interfaceName : String
  fullPath : String
  id : BitVec 32
  loopback : Bool
  multicast : Bool
  broadcast : Bool
  ipv4Data : Option Ipv4InterfaceData
deriving DecidableEq, Repr

/-- The address of an interface, unspecified if it has no data. -/
def Ipv4Interface.getIPAddress (ie : Ipv4Interface) : Ipv4Address :=
  ie.ipv4Data.elim 0 (·.inetAddr)

/-- `InterfaceTable`: two of its interfaces never have the same name. -/
structure Ipv4InterfaceTable where
  interfaces : List Ipv4Interface
  nodup : (interfaces.map (·.interfaceName)).Nodup

/-- The parameters of a configurator. -/
structure HostAutoConfigurator where
  interfaces : String
  addressBase : String
  netmask : String
  mcastGroups : String

/-- A host with its configurator. -/
structure Ipv4Host where
  id : BitVec 32
  configurator : HostAutoConfigurator
  hasRoutingTable : Bool
  interfaceTable : Ipv4InterfaceTable

namespace Ipv4InterfaceTable

def findInterfaceByName (table : Ipv4InterfaceTable) (name : String) : Option Ipv4Interface :=
  table.interfaces.find? (·.interfaceName = name)

/-- The interfaces with one of them changed. -/
def write (ie' ie : Ipv4Interface) : Ipv4Interface :=
  if ie.interfaceName = ie'.interfaceName then ie' else ie

theorem write_interfaceName {ie' ie : Ipv4Interface} :
    (write ie' ie).interfaceName = ie.interfaceName := by
  rw [write]
  split
  · next h => exact h.symm
  · rfl

/-- The table after an interface has been changed in place. -/
def update (table : Ipv4InterfaceTable) (ie' : Ipv4Interface) : Ipv4InterfaceTable where
  interfaces := table.interfaces.map (write ie')
  nodup := by
    rw [List.map_map, Function.comp_def]
    simpa only [write_interfaceName] using table.nodup

end Ipv4InterfaceTable

namespace HostAutoConfigurator

/-- One more socket that listens to a group. -/
def joinGroup (group : Ipv4Address) : List (Ipv4Address × Nat) → List (Ipv4Address × Nat)
  | [] => [(group, 1)]
  | (g, sockets) :: rest =>
    if g = group then (g, sockets + 1) :: rest else (g, sockets) :: joinGroup group rest

def joinMulticastGroup (ie : Ipv4Interface) (data : Ipv4InterfaceData) (group : Ipv4Address) :
    Except SimError Ipv4InterfaceData := do
  ensure ie.multicast (.runtimeError ("Ipv4InterfaceData::" ++
    "changeMulticastGroupMembership(): multicast interface expected, received " ++ ie.fullPath ++
    "."))
  ensure group.isMulticast (.runtimeError ("Ipv4InterfaceData::" ++
    "changeMulticastGroupMembership(): multicast address expected, received " ++ group.str ++
    "."))
  pure { data with joinedMulticastGroups := joinGroup group data.joinedMulticastGroups }

/-- Joins a group that is given as a text. -/
def joinNamedGroup (ie : Ipv4Interface) (data : Ipv4InterfaceData) (mcastGroup : String) :
    Except SimError Ipv4InterfaceData := do
  let group ← Ipv4Address.ofText mcastGroup
  joinMulticastGroup ie data group

/-- The address test. -/
def addressTest (address addressBase netmask : Ipv4Address) : Except SimError Unit :=
  ensure (SameSubnet address addressBase netmask)
    (.runtimeError "Generated IP address is out of specified address range")

/-- The body of the loop over the interfaces, with the next loopback address. -/
def configureInterface (addressBase netmask : Ipv4Address) (mcastGroups : String)
    (loopbackAddr : Ipv4Address) (ie : Ipv4Interface) :
    Except SimError (Ipv4Interface × Ipv4Address) := do
  let interfaceAddress := addressBase + ie.id
  addressTest interfaceAddress addressBase netmask
  let ipv4Data ← require (.runtimeError "Tag 'inet::Ipv4InterfaceData' is absent") ie.ipv4Data
  if ie.loopback then
    let ipv4Data := { ipv4Data with
      inetAddr := loopbackAddr, netmask := Ipv4Address.LOOPBACK_NETMASK, metric := 1 }
    pure ({ ie with ipv4Data := some ipv4Data }, loopbackAddr + 1)
  else do
    let ipv4Data := { ipv4Data with inetAddr := interfaceAddress, netmask := netmask }
    let ipv4Data ← joinMulticastGroup ie ipv4Data Ipv4Address.ALL_HOSTS_MCAST
    let ipv4Data ← joinMulticastGroup ie ipv4Data Ipv4Address.ALL_ROUTERS_MCAST
    let ipv4Data ← (tokens mcastGroups).foldlM (joinNamedGroup ie) ipv4Data
    pure ({ ie with broadcast := true, ipv4Data := some ipv4Data }, loopbackAddr)

/-- The loop over the names of the interfaces. -/
def configureInterfaces (addressBase netmask : Ipv4Address) (mcastGroups : String) :
    List String → Ipv4Address → Ipv4InterfaceTable → Except SimError Ipv4InterfaceTable
  | [], _, table => pure table
  | ifname :: rest, loopbackAddr, table => do
    let ie ← require (.runtimeError ("No such interface '" ++ ifname ++ "'"))
      (table.findInterfaceByName ifname)
    let (ie, loopbackAddr) ← configureInterface addressBase netmask mcastGroups loopbackAddr ie
    configureInterfaces addressBase netmask mcastGroups rest loopbackAddr (table.update ie)

def setupNetworkLayer (host : Ipv4Host) : Except SimError Ipv4Host := do
  let addressBase ← Ipv4Address.ofText host.configurator.addressBase
  let netmask ← Ipv4Address.ofText host.configurator.netmask
  addressTest (addressBase + host.id) addressBase netmask
  ensure host.hasRoutingTable (.runtimeError "No routing table found")
  let table ← configureInterfaces addressBase netmask host.configurator.mcastGroups
    (tokens host.configurator.interfaces) Ipv4Address.LOOPBACK_ADDRESS host.interfaceTable
  pure { host with interfaceTable := table }

end HostAutoConfigurator

open HostAutoConfigurator Ipv4InterfaceTable

/-! ## One interface -/

section

variable {addressBase netmask : Ipv4Address} {mcastGroups : String}
  {ie ie' : Ipv4Interface} {data data' : Ipv4InterfaceData}

theorem joinMulticastGroup_inetAddr {group : Ipv4Address}
    (h : joinMulticastGroup ie data group = .ok data') : data'.inetAddr = data.inetAddr := by
  simp only [joinMulticastGroup, bind_eq_ok, pure_eq_ok] at h
  obtain ⟨_, _, _, _, rfl⟩ := h
  rfl

theorem joinNamedGroups_inetAddr : ∀ {groups : List String} {data : Ipv4InterfaceData},
    groups.foldlM (joinNamedGroup ie) data = .ok data' → data'.inetAddr = data.inetAddr
  | [], data, h => by
    rw [List.foldlM_nil, pure_eq_ok] at h
    rw [h]
  | group :: groups, data, h => by
    rw [List.foldlM_cons, bind_eq_ok] at h
    obtain ⟨joined, hjoin, hrest⟩ := h
    obtain ⟨_, _, hjoin⟩ := bind_eq_ok.mp hjoin
    rw [joinNamedGroups_inetAddr hrest, joinMulticastGroup_inetAddr hjoin]

/-- What the loop over the names does to an interface. -/
structure Configured (addressBase netmask : Ipv4Address) (names : List String)
    (ie ie' : Ipv4Interface) : Prop where
  interfaceName : ie'.interfaceName = ie.interfaceName
  id : ie'.id = ie.id
  loopback : ie'.loopback = ie.loopback
  unlisted : ie.interfaceName ∉ names → ie' = ie
  listed : ie.interfaceName ∈ names → ie.loopback = false →
    SameSubnet (addressBase + ie.id) addressBase netmask ∧
      ie'.getIPAddress = addressBase + ie.id

theorem configureInterface_configured {loopbackAddr loopbackAddr' : Ipv4Address}
    (h : configureInterface addressBase netmask mcastGroups loopbackAddr ie =
      .ok (ie', loopbackAddr')) :
    Configured addressBase netmask [ie.interfaceName] ie ie' := by
  simp only [configureInterface, bind_eq_ok] at h
  obtain ⟨_, htest, data, _, h⟩ := h
  have hinside : SameSubnet (addressBase + ie.id) addressBase netmask := ensure_eq_ok.mp htest
  cases hloopback : ie.loopback with
  | true =>
    rw [hloopback, if_pos rfl, pure_eq_ok] at h
    cases h
    refine ⟨rfl, rfl, hloopback.symm, fun hnot => absurd List.mem_cons_self hnot,
      fun _ hfalse => ?_⟩
    rw [hloopback] at hfalse
    cases hfalse
  | false =>
    rw [hloopback, if_neg Bool.false_ne_true] at h
    simp only [bind_eq_ok, pure_eq_ok] at h
    obtain ⟨hosts, hhosts, routers, hrouters, joined, hjoined, heq⟩ := h
    cases heq
    refine ⟨rfl, rfl, hloopback.symm, fun hnot => absurd List.mem_cons_self hnot,
      fun _ _ => ⟨hinside, ?_⟩⟩
    calc joined.inetAddr = routers.inetAddr := joinNamedGroups_inetAddr hjoined
      _ = hosts.inetAddr := joinMulticastGroup_inetAddr hrouters
      _ = addressBase + ie.id := joinMulticastGroup_inetAddr hhosts

/-- A name, and then the others: an interface is configured by the last that is its own. -/
theorem Configured.trans {name : String} {names : List String} {ie'' : Ipv4Interface}
    (h : Configured addressBase netmask [name] ie ie')
    (h' : Configured addressBase netmask names ie' ie'') :
    Configured addressBase netmask (name :: names) ie ie'' := by
  refine ⟨h'.interfaceName.trans h.interfaceName, h'.id.trans h.id,
    h'.loopback.trans h.loopback, fun hnot => ?_, fun hmem hloopback => ?_⟩
  · rw [List.mem_cons, not_or] at hnot
    have heq : ie' = ie := h.unlisted (by simpa using hnot.1)
    rw [← heq]
    exact h'.unlisted (by rw [heq]; exact hnot.2)
  · by_cases hrest : ie.interfaceName ∈ names
    · have hlisted := h'.listed (by rw [h.interfaceName]; exact hrest)
        (h.loopback.trans hloopback)
      rwa [h.id] at hlisted
    · have hname := (List.mem_cons.mp hmem).resolve_right hrest
      rw [h'.unlisted (by rw [h.interfaceName]; exact hrest)]
      exact h.listed (List.mem_singleton.mpr hname) hloopback

/-! ## All interfaces of a host -/

/-- In a table with distinct names, a changed interface replaces the one that has been found. -/
theorem write_configured {table : Ipv4InterfaceTable} {name : String}
    (hfind : table.findInterfaceByName name = some ie)
    (h : Configured addressBase netmask [ie.interfaceName] ie ie') :
    ∀ old ∈ table.interfaces, Configured addressBase netmask [name] old (write ie' old) := by
  intro old hold
  have hname : ie.interfaceName = name := by
    simpa using List.find?_some hfind
  rw [write]
  by_cases heq : old.interfaceName = ie'.interfaceName
  · have hsame : old = ie := List.inj_on_of_nodup_map table.nodup hold
      (List.mem_of_find?_eq_some hfind) (heq.trans h.interfaceName)
    rw [if_pos heq, hsame, ← hname]
    exact h
  · rw [if_neg heq]
    rw [h.interfaceName, hname] at heq
    exact ⟨rfl, rfl, rfl, fun _ => rfl,
      fun hlisted => absurd (List.mem_singleton.mp hlisted) heq⟩

/-- **The loop over the names** gives every listed interface the base plus its id, or a loopback
address, and leaves the others alone. -/
theorem configureInterfaces_forall₂ : ∀ {names : List String} {loopbackAddr : Ipv4Address}
    {table table' : Ipv4InterfaceTable},
    configureInterfaces addressBase netmask mcastGroups names loopbackAddr table = .ok table' →
    List.Forall₂ (Configured addressBase netmask names) table.interfaces table'.interfaces
  | [], _, table, table', h => by
    rw [configureInterfaces, pure_eq_ok] at h
    rw [← h]
    exact List.forall₂_same.mpr fun ie _ =>
      ⟨rfl, rfl, rfl, fun _ => rfl, fun hmem => absurd hmem List.not_mem_nil⟩
  | name :: names, loopbackAddr, table, table', h => by
    simp only [configureInterfaces, bind_eq_ok, require_eq_ok] at h
    obtain ⟨ie, hfind, ⟨ie', _⟩, hconfigure, hrest⟩ := h
    have hfirst := write_configured hfind (configureInterface_configured hconfigure)
    have hall := List.forall₂_map_left_iff.mp (configureInterfaces_forall₂ hrest)
    exact ((List.forall₂_and_left _ _).mpr ⟨hfirst, hall⟩).imp fun _ _ hboth =>
      hboth.1.trans hboth.2

/-- The listed interfaces of a host that are no loopback interfaces. -/
def Ipv4Host.listed (host : Ipv4Host) : List Ipv4Interface :=
  host.interfaceTable.interfaces.filter fun ie =>
    ie.interfaceName ∈ tokens host.configurator.interfaces ∧ ie.loopback = false

/-- The interfaces of the hosts, whether they are listed or not. -/
def allInterfaces (hosts : List Ipv4Host) : List Ipv4Interface :=
  hosts.flatMap (·.interfaceTable.interfaces)

/-- The listed interfaces of the hosts. -/
def listedInterfaces (hosts : List Ipv4Host) : List Ipv4Interface :=
  hosts.flatMap Ipv4Host.listed

theorem setupNetworkLayer_listed {host host' : Ipv4Host}
    (hbase : Ipv4Address.ofText host.configurator.addressBase = .ok addressBase)
    (hmask : Ipv4Address.ofText host.configurator.netmask = .ok netmask)
    (h : setupNetworkLayer host = .ok host') :
    List.Forall₂ (fun ie ie' => SameSubnet (addressBase + ie.id) addressBase netmask ∧
      ie'.getIPAddress = addressBase + ie.id) host.listed host'.listed := by
  rw [setupNetworkLayer, hbase, hmask] at h
  simp only [bind_eq_ok, pure_eq_ok, Except.ok.injEq] at h
  obtain ⟨_, rfl, _, rfl, _, _, _, _, table, htable, rfl⟩ := h
  have hall := configureInterfaces_forall₂ htable
  have hlisted : List.Forall₂ (Configured addressBase netmask
      (tokens host.configurator.interfaces)) host.listed
      (Ipv4Host.listed { host with interfaceTable := table }) := by
    refine List.rel_filter (fun ie ie' hie => ?_) hall
    simp only [decide_eq_true_eq, hie.interfaceName, hie.loopback]
  have hmem : ∀ ie ∈ host.listed, ie.interfaceName ∈ tokens host.configurator.interfaces ∧
      ie.loopback = false := fun ie hie => by
    simpa using (List.mem_filter.mp hie).2
  exact ((List.forall₂_and_left _ _).mpr ⟨hmem, hlisted⟩).imp fun _ _ hboth =>
    hboth.2.listed hboth.1.1 hboth.1.2

end

/-! ## All hosts -/

section

variable {addressBase netmask : Ipv4Address} {hosts hosts' : List Ipv4Host} {h : Nat}

/-- The hosts share a base address and a netmask. -/
def ShareSubnet (addressBase netmask : Ipv4Address) (hosts : List Ipv4Host) : Prop :=
  ∀ host ∈ hosts, Ipv4Address.ofText host.configurator.addressBase = .ok addressBase ∧
    Ipv4Address.ofText host.configurator.netmask = .ok netmask

theorem setupNetworkLayer_forall₂ (hshare : ShareSubnet addressBase netmask hosts)
    (hsetup : hosts.mapM setupNetworkLayer = .ok hosts') :
    List.Forall₂ (fun ie ie' => SameSubnet (addressBase + ie.id) addressBase netmask ∧
      ie'.getIPAddress = addressBase + ie.id) (listedInterfaces hosts)
      (listedInterfaces hosts') := by
  have hall := (List.forall₂_and_left _ _).mpr ⟨hshare, mapM_eq_ok.mp hsetup⟩
  exact List.rel_flatMap hall fun host host' hhost =>
    setupNetworkLayer_listed hhost.1.1 hhost.1.2 hhost.2

/-- The addresses of the listed interfaces, once all hosts have been set up. -/
theorem listed_addresses (hshare : ShareSubnet addressBase netmask hosts)
    (hsetup : hosts.mapM setupNetworkLayer = .ok hosts') :
    (listedInterfaces hosts').map (·.getIPAddress) =
      ((listedInterfaces hosts).map (·.id)).map (addressBase + ·) := by
  have hall := setupNetworkLayer_forall₂ hshare hsetup
  rw [List.map_map]
  generalize listedInterfaces hosts = before, listedInterfaces hosts' = after at hall
  induction hall with
  | nil => rfl
  | cons hie _ ih => rw [List.map_cons, List.map_cons, hie.2, ih, Function.comp]

theorem listed_inside (hshare : ShareSubnet addressBase netmask hosts)
    (hsetup : hosts.mapM setupNetworkLayer = .ok hosts') :
    ∀ i ∈ (listedInterfaces hosts).map (·.id),
      SameSubnet (addressBase + i) addressBase netmask := by
  have hall := setupNetworkLayer_forall₂ hshare hsetup
  refine List.forall_mem_map.mpr ?_
  generalize listedInterfaces hosts = before, listedInterfaces hosts' = after at hall
  induction hall with
  | nil => exact fun ie hie => absurd hie List.not_mem_nil
  | cons hie _ ih => exact List.forall_mem_cons.mpr ⟨hie.1, ih⟩

theorem listed_sublist (hosts : List Ipv4Host) :
    (listedInterfaces hosts).Sublist (allInterfaces hosts) := by
  induction hosts with
  | nil => exact List.Sublist.slnil
  | cons host hosts ih =>
    rw [listedInterfaces, allInterfaces, List.flatMap_cons, List.flatMap_cons]
    exact List.Sublist.append List.filter_sublist ih

/-- **The addresses of hosts that configure themselves** are usable iff no listed interface has one
of the two ids that lead to the address of the network or to its directed broadcast address. -/
theorem addresses_usable_iff (hh : h ≤ 32)
    (hshare : ShareSubnet addressBase (contiguousMask 32 h) hosts)
    (hids : ((allInterfaces hosts).map (·.id)).Nodup)
    (hsetup : hosts.mapM setupNetworkLayer = .ok hosts') :
    Usable addressBase (contiguousMask 32 h) ((listedInterfaces hosts').map (·.getIPAddress)) ↔
      ∀ ie ∈ listedInterfaces hosts,
        ie.id.toNat ≠ (2 ^ 32 - addressBase.toNat % 2 ^ h) % 2 ^ 32 ∧
          ie.id.toNat ≠ 2 ^ h - 1 - addressBase.toNat % 2 ^ h := by
  have hdistinct := hids.sublist ((listed_sublist hosts).map _)
  rw [listed_addresses hshare hsetup,
    usable_map_add_iff hh hdistinct (listed_inside hshare hsetup), List.forall_mem_map]

end

/-! ## Hosts of 10.0.0.0/24 -/

/-- A multicast interface whose data is still to be filled in. -/
def freshInterface (interfaceName : String) (loopback : Bool) (id : BitVec 32) : Ipv4Interface where
  interfaceName := interfaceName
  fullPath := "Net.car." ++ interfaceName
  id := id
  loopback := loopback
  multicast := true
  broadcast := false
  ipv4Data := some ⟨0, 0, 0, []⟩

/-- A car with a loopback and a wired interface, of which the names in `interfaces` are listed. -/
def addressedCar (interfaces : String) (id : BitVec 32) : Ipv4Host where
  id := 7
  configurator := ⟨interfaces, "10.0.0.0", "255.255.255.0", "224.0.0.9"⟩
  hasRoutingTable := true
  interfaceTable := ⟨[freshInterface "lo0" true (id + 1), freshInterface "eth0" false id],
    by simp [freshInterface]⟩

theorem addressedCar_share (interfaces : List (String × BitVec 32)) :
    ShareSubnet (Ipv4Address.ofBytes 10 0 0 0) (contiguousMask 32 8)
      (interfaces.map fun i => addressedCar i.1 i.2) := by
  refine List.forall_mem_map.mpr fun i _ => ⟨?_, ?_⟩
  · exact (by decide +kernel : Ipv4Address.ofText "10.0.0.0" =
      .ok (Ipv4Address.ofBytes 10 0 0 0))
  · exact (by decide +kernel : Ipv4Address.ofText "255.255.255.0" = .ok (contiguousMask 32 8))

/-- Two cars with ids from the middle of the range. -/
theorem addresses_usable_cars :
    ∃ hosts', [addressedCar "lo0 eth0" 20, addressedCar "eth0" 30].mapM setupNetworkLayer =
        .ok hosts' ∧
      Usable (Ipv4Address.ofBytes 10 0 0 0) (contiguousMask 32 8)
        ((listedInterfaces hosts').map (·.getIPAddress)) := by
  obtain ⟨hosts', hsetup⟩ : ∃ hosts', [addressedCar "lo0 eth0" 20,
      addressedCar "eth0" 30].mapM setupNetworkLayer = .ok hosts' :=
    exists_of_isOk (by decide +kernel)
  have hshare := addressedCar_share [("lo0 eth0", 20), ("eth0", 30)]
  exact ⟨hosts', hsetup, (addresses_usable_iff (by decide) hshare (by decide +kernel) hsetup).mpr
    (by decide +kernel)⟩

/-- The car whose interface is the module with id 255 gets the directed broadcast address. -/
theorem broadcast_address_given_out :
    ∃ hosts', [addressedCar "eth0" 255].mapM setupNetworkLayer = .ok hosts' ∧
      (listedInterfaces hosts').map (·.getIPAddress) =
        [broadcastAddress (Ipv4Address.ofBytes 10 0 0 0) (contiguousMask 32 8)] ∧
      ¬ Usable (Ipv4Address.ofBytes 10 0 0 0) (contiguousMask 32 8)
        ((listedInterfaces hosts').map (·.getIPAddress)) := by
  obtain ⟨hosts', hsetup, haddress⟩ : ∃ hosts', [addressedCar "eth0" 255].mapM setupNetworkLayer =
      .ok hosts' ∧ decide ((listedInterfaces hosts').map (·.getIPAddress) =
        [broadcastAddress (Ipv4Address.ofBytes 10 0 0 0) (contiguousMask 32 8)]) = true :=
    exists_of_any (by decide +kernel)
  have haddress := of_decide_eq_true haddress
  refine ⟨hosts', hsetup, haddress, fun husable => ?_⟩
  rw [haddress] at husable
  exact husable.broadcast _ List.mem_cons_self rfl

end CooperativeTsn
