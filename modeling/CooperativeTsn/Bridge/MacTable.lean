import CooperativeTsn.Infra.Aging
import CooperativeTsn.Infra.SimTime
import CooperativeTsn.Config.Value

/-!
# `MacForwardingTable`

The forwarding table of a bridge. An entry is written by the configuration and by registrations
(`setUnicastAddressForwardingInterface`), or learned from traffic. How it was written is encoded in
its insertion time: -1 s for a new entry, the largest time for one that was there before, the
current time for a learned one.

Addresses that are not multicast and multicast addresses are of two types, `Mac` and `Group`, which
is what the assertions of the source ask for.

* `forwardingTable_learn` — learning keeps every entry that it finds, except for its own
* `forwardingTable_parse` — a table that is read from rules has their entries and no others
-/

namespace CooperativeTsn

open Infra.Aging Infra.SimTime Infra.Runs

/-- `SimTime::getMaxTime()` -/
def maxTime : Int := 2 ^ 63 - 1

/-- The insertion time of a new entry, `-1` -/
def newEntryTime : Int := -sec

/-- `AddressEntry`: the value is `interfaceId`, the time is `insertionTime`. -/
abbrev AddressEntry := Entry Int

/-- An entry of the parameter `forwardingTable`, with its addresses resolved. -/
structure ForwardingRule (Mac Group : Type) where
  vlan : Option Nat
  address : Mac ⊕ Group
  interface : String
deriving DecidableEq

structure MacForwardingTable (Mac Group : Type) where
  agingTime : Int
  agingTime_pos : 0 < agingTime
  lastPurge : Int
  /-- by VLAN and address -/
  forwardingTable : Table (Nat × Mac) Int
  multicastForwardingTable : Nat × Group → Option (List Int)
  /-- `ifTable->findInterfaceByName`, as an interface id -/
  findInterfaceByName : String → Option Int

namespace MacForwardingTable

variable {Mac Group : Type}

/-! ## Operations -/

def getUnicastAddressForwardingInterface (now : Int) (address : Mac) (vid : Nat)
    (table : MacForwardingTable Mac Group) : Int :=
  match table.forwardingTable (vid, address) with
  | none => -1
  | some entry => if entry.time ≤ now - table.agingTime then -1 else entry.value

def getMulticastAddressForwardingInterfaces (address : Group) (vid : Nat)
    (table : MacForwardingTable Mac Group) : List Int :=
  (table.multicastForwardingTable (vid, address)).getD []

def removeAgedEntriesIfNeeded (now : Int) (table : MacForwardingTable Mac Group) :
    MacForwardingTable Mac Group :=
  { table with
    forwardingTable :=
      if now ≥ table.lastPurge + sec then purge (now - table.agingTime) table.forwardingTable
      else table.forwardingTable
    lastPurge := now }

def clearTable (table : MacForwardingTable Mac Group) : MacForwardingTable Mac Group :=
  { table with forwardingTable := fun _ => none, multicastForwardingTable := fun _ => none }

section

variable [DecidableEq Group]

def addMulticastAddressForwardingInterface (interfaceId : Int) (address : Group) (vid : Nat)
    (table : MacForwardingTable Mac Group) : Except SimError (MacForwardingTable Mac Group) :=
  match table.multicastForwardingTable (vid, address) with
  | none => .ok { table with
      multicastForwardingTable :=
        Function.update table.multicastForwardingTable (vid, address) (some [interfaceId]) }
  | some interfaceIds =>
    if interfaceId ∈ interfaceIds then .error (.runtimeError "Already contains interface")
    else .ok { table with
      multicastForwardingTable :=
        Function.update table.multicastForwardingTable (vid, address)
          (some (interfaceIds ++ [interfaceId])) }

end

section

variable [DecidableEq Mac]

/-- The entry that takes the place of another one. -/
def replaceEntry (interfaceId : Int) : Option AddressEntry → AddressEntry
  | none => ⟨interfaceId, newEntryTime⟩
  | some _ => ⟨interfaceId, maxTime⟩

def setUnicastAddressForwardingInterface (interfaceId : Int) (address : Mac) (vid : Nat)
    (table : MacForwardingTable Mac Group) : MacForwardingTable Mac Group :=
  { table with
    forwardingTable := Function.update table.forwardingTable (vid, address)
      (some (replaceEntry interfaceId (table.forwardingTable (vid, address)))) }

/-- The part of `learnUnicastAddressForwardingInterface` behind the purge. -/
def learnEntry (now interfaceId : Int) (address : Mac) (vid : Nat)
    (table : MacForwardingTable Mac Group) : MacForwardingTable Mac Group :=
  match table.forwardingTable (vid, address) with
  | none => { table with
      forwardingTable :=
        Function.update table.forwardingTable (vid, address) (some ⟨interfaceId, now⟩) }
  | some entry =>
    if entry.time ≠ maxTime then { table with
      forwardingTable :=
        Function.update table.forwardingTable (vid, address) (some ⟨interfaceId, now⟩) }
    else table

def learnUnicastAddressForwardingInterface (now interfaceId : Int) (address : Mac) (vid : Nat)
    (table : MacForwardingTable Mac Group) : MacForwardingTable Mac Group :=
  (table.removeAgedEntriesIfNeeded now).learnEntry now interfaceId address vid

variable [DecidableEq Group]

/-- The body of the loop over the rules. -/
def addRule (rule : ForwardingRule Mac Group) (table : MacForwardingTable Mac Group) :
    Except SimError (MacForwardingTable Mac Group) := do
  let vlan := rule.vlan.getD 0
  let interfaceId ← require (.runtimeError ("Cannot find network interface " ++ rule.interface))
    (table.findInterfaceByName rule.interface)
  match rule.address with
  | .inr group => table.addMulticastAddressForwardingInterface interfaceId group vlan
  | .inl address => do
    ensure (table.forwardingTable (vlan, address) = none)
      (.runtimeError "Table already contains unicast MAC address for vlan")
    pure (table.setUnicastAddressForwardingInterface interfaceId address vlan)

def parseForwardingTableParameter :
    List (ForwardingRule Mac Group) → MacForwardingTable Mac Group →
      Except SimError (MacForwardingTable Mac Group)
  | [], table => pure table
  | rule :: rules, table => do
    let table ← table.addRule rule
    parseForwardingTableParameter rules table

/-- `handleParameterChange("forwardingTable")` -/
def handleParameterChange (forwardingTable : List (ForwardingRule Mac Group))
    (table : MacForwardingTable Mac Group) : Except SimError (MacForwardingTable Mac Group) :=
  table.clearTable.parseForwardingTableParameter forwardingTable

end

/-! ## Lookups -/

/-- The time up to which entries are aged. -/
def horizon (now : Int) (table : MacForwardingTable Mac Group) : Int := now - table.agingTime

section

variable {table : MacForwardingTable Mac Group} {now port : Int} {address : Mac} {vid : Nat}

theorem getUnicast_eq_find : table.getUnicastAddressForwardingInterface now address vid =
    (find (table.horizon now) table.forwardingTable (vid, address)).getD (-1) := by
  rw [getUnicastAddressForwardingInterface, find, horizon]
  cases table.forwardingTable (vid, address) with
  | none => rfl
  | some entry =>
    by_cases h : entry.time ≤ now - table.agingTime
    · have halive : ¬ entry.Alive (now - table.agingTime) := Int.not_lt.mpr h
      simp [h, Option.filter, halive]
    · have halive : entry.Alive (now - table.agingTime) := Int.not_le.mp h
      simp [h, Option.filter, halive]

/-- A port is found iff there is an entry for it that is not aged. -/
theorem getUnicast_eq_iff (hport : port ≠ -1) :
    table.getUnicastAddressForwardingInterface now address vid = port ↔
      find (table.horizon now) table.forwardingTable (vid, address) = some port := by
  rw [getUnicast_eq_find]
  cases find (table.horizon now) table.forwardingTable (vid, address) with
  | none => simpa using hport.symm
  | some v => simp

/-- An entry with the largest time does not age. -/
theorem alive_of_maxTime {entry : AddressEntry} (htime : entry.time = maxTime)
    (hnow : now ≤ maxTime) : entry.Alive (table.horizon now) := by
  have := table.agingTime_pos
  rw [Entry.Alive, horizon, htime]
  omega

end

/-! ## Frames -/

section

variable {table table' : MacForwardingTable Mac Group} {now interfaceId : Int} {address : Mac}
  {vid : Nat}

/-- All of the table but its entries. -/
structure SameSettings (table table' : MacForwardingTable Mac Group) : Prop where
  agingTime : table'.agingTime = table.agingTime
  findInterfaceByName : table'.findInterfaceByName = table.findInterfaceByName

theorem SameSettings.refl (table : MacForwardingTable Mac Group) : SameSettings table table :=
  ⟨rfl, rfl⟩

theorem SameSettings.trans {table'' : MacForwardingTable Mac Group}
    (h : SameSettings table table') (h' : SameSettings table' table'') :
    SameSettings table table'' :=
  ⟨h'.agingTime.trans h.agingTime, h'.findInterfaceByName.trans h.findInterfaceByName⟩

theorem SameSettings.horizon (h : SameSettings table table') (now : Int) :
    table'.horizon now = table.horizon now := by
  rw [MacForwardingTable.horizon, MacForwardingTable.horizon, h.agingTime]

theorem addMulticast_ok [DecidableEq Group] {group : Group}
    (h : table.addMulticastAddressForwardingInterface interfaceId group vid = .ok table') :
    SameSettings table table' ∧ table'.forwardingTable = table.forwardingTable := by
  rw [addMulticastAddressForwardingInterface] at h
  split at h
  · cases h
    exact ⟨⟨rfl, rfl⟩, rfl⟩
  · split at h
    · cases h
    · cases h
      exact ⟨⟨rfl, rfl⟩, rfl⟩

variable [DecidableEq Mac]

theorem forwardingTable_set :
    (table.setUnicastAddressForwardingInterface interfaceId address vid).forwardingTable =
      Function.update table.forwardingTable (vid, address)
        (some (replaceEntry interfaceId (table.forwardingTable (vid, address)))) := rfl

theorem sameSettings_set :
    SameSettings table (table.setUnicastAddressForwardingInterface interfaceId address vid) :=
  ⟨rfl, rfl⟩

theorem sameSettings_learn :
    SameSettings table (table.learnUnicastAddressForwardingInterface now interfaceId address vid) := by
  rw [learnUnicastAddressForwardingInterface, learnEntry]
  split
  · exact ⟨rfl, rfl⟩
  · split <;> exact ⟨rfl, rfl⟩

/-- Learning keeps every entry that is found, except for the one that it is about. -/
theorem forwardingTable_learn {key : Nat × Mac} {entry : AddressEntry}
    (hentry : table.forwardingTable key = some entry) (halive : entry.Alive (table.horizon now)) :
    (table.learnUnicastAddressForwardingInterface now interfaceId address vid).forwardingTable key =
      some (if key = (vid, address) ∧ entry.time ≠ maxTime then ⟨interfaceId, now⟩ else entry) := by
  have hpurged : (table.removeAgedEntriesIfNeeded now).forwardingTable key = some entry := by
    simp only [removeAgedEntriesIfNeeded]
    split
    · exact purge_eq_some.mpr ⟨hentry, halive⟩
    · exact hentry
  rw [learnUnicastAddressForwardingInterface]
  by_cases hkey : key = (vid, address)
  · subst hkey
    by_cases htime : entry.time = maxTime
    · simp [learnEntry, hpurged, htime]
    · simp [learnEntry, hpurged, htime]
  · rw [if_neg fun h => hkey h.1, ← hpurged, learnEntry]
    split
    · exact Function.update_of_ne hkey ..
    · split
      · exact Function.update_of_ne hkey ..
      · rfl

/-! ## Tables from rules -/

variable [DecidableEq Group]

/-- The port that the rules give an address. -/
def configuredPort (table : MacForwardingTable Mac Group) (rules : List (ForwardingRule Mac Group))
    (vid : Nat) (address : Mac) : Option Int :=
  rules.findSome? fun rule =>
    if rule.address = .inl address ∧ rule.vlan.getD 0 = vid then
      table.findInterfaceByName rule.interface
    else none

/-- A table that is read from rules has their entries, behind those that were there before. -/
theorem forwardingTable_parse : ∀ {rules : List (ForwardingRule Mac Group)}
    {table table' : MacForwardingTable Mac Group},
    table.parseForwardingTableParameter rules = .ok table' →
    SameSettings table table' ∧ ∀ vid address, table'.forwardingTable (vid, address) =
      (table.forwardingTable (vid, address)).or
        ((table.configuredPort rules vid address).map fun interfaceId =>
          ⟨interfaceId, newEntryTime⟩)
  | [], table, table', h => by
    rw [parseForwardingTableParameter, pure_eq_ok] at h
    subst h
    exact ⟨.refl _, fun vid address => by simp [configuredPort]⟩
  | rule :: rules, table, table', h => by
    simp only [parseForwardingTableParameter, addRule, bind_eq_ok, require_eq_ok] at h
    obtain ⟨table₁, ⟨interfaceId, hinterface, hrule⟩, hrest⟩ := h
    obtain ⟨hsame, hentries⟩ := forwardingTable_parse hrest
    -- the port of a later rule does not depend on what this one has written
    have hports : table₁.findInterfaceByName = table.findInterfaceByName →
        ∀ vid address, table₁.configuredPort rules vid address =
          table.configuredPort rules vid address := by
      intro h vid address
      rw [configuredPort, configuredPort, h]
    split at hrule
    · next group hgroup =>
      obtain ⟨hsame₁, htable⟩ := addMulticast_ok hrule
      refine ⟨hsame₁.trans hsame, fun vid address => ?_⟩
      rw [hentries, htable, hports hsame₁.findInterfaceByName]
      simp [configuredPort, hgroup]
    · next address hunicast =>
      simp only [bind_eq_ok, ensure_eq_ok, pure_eq_ok] at hrule
      obtain ⟨-, hnone, rfl⟩ := hrule
      refine ⟨sameSettings_set.trans hsame, fun vid address' => ?_⟩
      rw [hentries, hports rfl]
      -- the first rule of a key decides: a second one for it is refused
      by_cases hkey : (vid, address') = (rule.vlan.getD 0, address)
      · obtain ⟨rfl, rfl⟩ := Prod.mk.inj hkey
        simp [setUnicastAddressForwardingInterface, configuredPort, hunicast, hnone, hinterface,
          replaceEntry]
      · have hother : ¬ (rule.address = .inl address' ∧ rule.vlan.getD 0 = vid) := by
          rintro ⟨h, rfl⟩
          rw [hunicast, Sum.inl.injEq] at h
          exact hkey (by rw [h])
        simp only [setUnicastAddressForwardingInterface, configuredPort, List.findSome?_cons,
          if_neg hother, Function.update_of_ne hkey]

theorem handleParameterChange_ok {rules : List (ForwardingRule Mac Group)}
    (h : table.handleParameterChange rules = .ok table') :
    SameSettings table table' ∧ ∀ vid address, table'.forwardingTable (vid, address) =
      (table.configuredPort rules vid address).map fun interfaceId => ⟨interfaceId, newEntryTime⟩ := by
  obtain ⟨hsame, hentries⟩ := forwardingTable_parse h
  exact ⟨⟨hsame.agingTime, hsame.findInterfaceByName⟩, hentries⟩

end

end MacForwardingTable

end CooperativeTsn
