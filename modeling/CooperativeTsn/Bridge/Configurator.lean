import CooperativeTsn.Bridge.MacTable
import CooperativeTsn.Infra.Updates

/-!
# `MacForwardingTableConfigurator`

The configurator of a car writes the forwarding tables of its bridges from the rules that it
collected. Every change of a multicast group adds rules and writes all tables again, from empty
ones.

* `extendConfiguration_ok` — which bridges have rules when a group has a new member
* `configureMacForwardingTables_ok` — a table that has rules has their entries and no others
-/

namespace CooperativeTsn

open Infra.Aging Infra.Runs Infra.Updates

structure NetworkInterface (Mac : Type) where
  isLoopback : Bool
  macAddress : Mac
deriving DecidableEq

/--
The modules that the configurators look at: network cards that register, cars with their
configurators, and the hosts in the cars. A forwarding table goes by the host that it is in.
-/
structure Layout (Nic Car Host Mac Group : Type) where
  /-- `findInterfaceTableOf` the network card -/
  interfaceTable : Nic → Option (List (NetworkInterface Mac))
  /-- the car whose `MacForwardingTableConfigurator` is found next to the network card -/
  configurator : Nic → Option Car
  /-- the nodes of the topology of the car's configurator -/
  topology : Car → List Host
  topology_nodup : ∀ car, (topology car).Nodup
  hasInterfaceTable : Host → Bool
  hasIpv4RoutingTable : Host → Bool
  hasIpv6RoutingTable : Host → Bool
  hasMacTable : Host → Bool
  /-- the interface at which the shortest path from the source to the interface of the destination
  starts, if there is a path -/
  firstInterface : Car → (destination : Host) → (interface : String) → (source : Host) →
    Option String
  /-- the parameter `multicastAddress`, resolved and mapped -/
  multicastAddress : Option Group

variable {Nic Car Host Mac Group : Type}

namespace MacForwardingTableConfigurator

/-- The rules for each bridge. -/
abbrev Configurations (Host Mac Group : Type) := Host → Option (List (ForwardingRule Mac Group))

/-- `NetworkConfiguratorBase::isBridgeNode` -/
def isBridgeNode (layout : Layout Nic Car Host Mac Group) (host : Host) : Bool :=
  !layout.hasIpv4RoutingTable host || !layout.hasInterfaceTable host

section

variable [DecidableEq Host] [DecidableEq Mac] [DecidableEq Group]

/-- The rule is added unless it is there already. -/
def addForwardingRule (rule : ForwardingRule Mac Group)
    (rules : Option (List (ForwardingRule Mac Group))) : List (ForwardingRule Mac Group) :=
  match rules with
  | none => [rule]
  | some rules =>
    if rules.any fun r => r.address = rule.address ∧ r.interface = rule.interface then rules
    else rules ++ [rule]

/-- The body of the loop over the sources, as a function of the rules of the source. -/
def extendSource (layout : Layout Nic Car Host Mac Group) (car : Car) (destination : Host)
    (interface : String) (address : Mac ⊕ Group) (source : Host)
    (rules : Option (List (ForwardingRule Mac Group))) :
    Except SimError (Option (List (ForwardingRule Mac Group))) :=
  if source ≠ destination ∧ isBridgeNode layout source then
    match layout.firstInterface car destination interface source with
    | none => pure rules
    | some name => do
      ensure (layout.hasMacTable source = true) .nullPointer
      pure (some (addForwardingRule ⟨none, address, name⟩ rules))
  else pure rules

def extendConfiguration (layout : Layout Nic Car Host Mac Group) (car : Car) (destination : Host)
    (interface : String) (address : Mac ⊕ Group) (configurations : Configurations Host Mac Group) :
    Except SimError (Configurations Host Mac Group) :=
  updateEach (extendSource layout car destination interface address) (layout.topology car)
    configurations

/-- The assignment of the parameter `forwardingTable` of a table that has rules. -/
def configureTable (configurations : Configurations Host Mac Group) (host : Host)
    (table : MacForwardingTable Mac Group) : Except SimError (MacForwardingTable Mac Group) :=
  match configurations host with
  | none => pure table
  | some rules => table.handleParameterChange rules

/-- Only nodes of the topology have rules. -/
def configureMacForwardingTables (layout : Layout Nic Car Host Mac Group) (car : Car)
    (configurations : Configurations Host Mac Group)
    (tables : Host → MacForwardingTable Mac Group) :
    Except SimError (Host → MacForwardingTable Mac Group) :=
  updateEach (configureTable configurations) (layout.topology car) tables

/-- `receiveSignal(ipv4MulticastChangeSignal)`, for an interface of the node -/
def receiveSignal (layout : Layout Nic Car Host Mac Group) (car : Car) (node : Host)
    (interface : String) (group : Group) (configurations : Configurations Host Mac Group)
    (tables : Host → MacForwardingTable Mac Group) :
    Except SimError (Configurations Host Mac Group × (Host → MacForwardingTable Mac Group)) := do
  ensure (node ∈ layout.topology car) .nullPointer
  let configurations ←
    extendConfiguration layout car node interface (.inr group) configurations
  let tables ← configureMacForwardingTables layout car configurations tables
  pure (configurations, tables)

end

/-! ## Rules -/

section

variable [DecidableEq Host] [DecidableEq Mac] [DecidableEq Group]
  {layout : Layout Nic Car Host Mac Group} {car : Car} {node : Host} {interface : String}
  {group : Group} {configurations configurations' : Configurations Host Mac Group}
  {tables tables' : Host → MacForwardingTable Mac Group}

/-- The new member of a group is reached from the host. -/
def Reaches (layout : Layout Nic Car Host Mac Group) (car : Car) (node : Host) (interface : String)
    (host : Host) : Prop :=
  host ≠ node ∧ isBridgeNode layout host = true ∧
    (layout.firstInterface car node interface host).isSome = true

/-- A rule for a group says nothing about other addresses. -/
theorem configuredPort_addForwardingRule {table : MacForwardingTable Mac Group} {name : String}
    {rules : Option (List (ForwardingRule Mac Group))} {vid : Nat} {address : Mac} :
    table.configuredPort (addForwardingRule ⟨none, .inr group, name⟩ rules) vid address =
      table.configuredPort (rules.getD []) vid address := by
  cases rules with
  | none => simp [addForwardingRule, MacForwardingTable.configuredPort]
  | some rules =>
    simp only [addForwardingRule, Option.getD_some]
    split
    · rfl
    · simp [MacForwardingTable.configuredPort, List.findSome?_append]

/-- A new member of a group adds rules for the group, and for the bridges that reach it. -/
theorem extendConfiguration_ok
    (h : extendConfiguration layout car node interface (.inr group) configurations =
      .ok configurations') {host : Host} (hhost : host ∈ layout.topology car) :
    ((configurations' host).isSome ↔
        (configurations host).isSome ∨ Reaches layout car node interface host) ∧
      ∀ (table : MacForwardingTable Mac Group) vid address,
        table.configuredPort ((configurations' host).getD []) vid address =
          table.configuredPort ((configurations host).getD []) vid address := by
  have hsource := updateEach_mem (layout.topology_nodup car) hhost h
  -- rules for a group never make a port for an address
  rw [extendSource] at hsource
  split at hsource
  · next hbridge =>
    split at hsource
    · next hnone =>
      rw [pure_eq_ok] at hsource
      rw [← hsource]
      simp [Reaches, hnone]
    · next name hname =>
      simp only [bind_eq_ok, pure_eq_ok] at hsource
      obtain ⟨-, -, hrules⟩ := hsource
      rw [← hrules]
      refine ⟨by simp [Reaches, hname, hbridge.1, hbridge.2], fun table vid address => ?_⟩
      exact configuredPort_addForwardingRule
  · next hbridge =>
    rw [pure_eq_ok] at hsource
    rw [← hsource]
    refine ⟨⟨.inl, fun h => h.resolve_right fun hreach => hbridge ⟨hreach.1, hreach.2.1⟩⟩, ?_⟩
    exact fun _ _ _ => rfl

/-! ## Tables -/

/-- **A table that has rules has their entries and no others.** -/
theorem configureMacForwardingTables_ok
    (h : configureMacForwardingTables layout car configurations tables = .ok tables') {host : Host}
    (hhost : host ∈ layout.topology car) (hrules : (configurations host).isSome = true) :
    (tables host).SameSettings (tables' host) ∧
      ∀ vid address, (tables' host).forwardingTable (vid, address) =
        ((tables host).configuredPort ((configurations host).getD []) vid address).map
          fun interfaceId => ⟨interfaceId, newEntryTime⟩ := by
  have htable := updateEach_mem (layout.topology_nodup car) hhost h
  obtain ⟨rules, hrules⟩ := Option.isSome_iff_exists.mp hrules
  simp only [configureTable, hrules] at htable
  rw [hrules, Option.getD_some]
  exact MacForwardingTable.handleParameterChange_ok htable

/-- All other tables stay. -/
theorem configureMacForwardingTables_frame
    (h : configureMacForwardingTables layout car configurations tables = .ok tables') {host : Host}
    (hhost : host ∉ layout.topology car ∨ configurations host = none) :
    tables' host = tables host := by
  by_cases hmem : host ∈ layout.topology car
  · have htable := updateEach_mem (layout.topology_nodup car) hmem h
    simp only [configureTable, hhost.resolve_left (fun hnot => hnot hmem), pure_eq_ok] at htable
    exact htable.symm
  · exact updateEach_frame hmem h

end

end MacForwardingTableConfigurator

end CooperativeTsn
