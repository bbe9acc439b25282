import CooperativeTsn.Flow.Input
import Mathlib.Algebra.GroupWithZero.Nat

/-!
# The request to the scheduler

`TSNschedGrpcGateScheduleConfigurator::convertInputToJson`. A flow does not know the entry that made
it, so the request computes the names of all entries again and takes the start time of the last
entry that has the name of the flow. `addFlows` gives a number to every flow of an entry without a
name, the request gives one to the entry.

* `collectFlows_names` — the names that `addFlows` gives
* `findStartTime_eq` — the entry that the request takes the start time from
* `start_times_own_iff` — every flow has the start time of its own entry iff the two agree
-/

namespace CooperativeTsn

open Infra.Runs ValueMap

variable {Module : Type}

/-! ## The input -/

/-- `GateScheduleConfiguratorBase::Input` -/
structure Input (Module : Type) where
  devices : List (Node Module)
  switches : List (Node Module)
  flows : List (Flow Module)

def createGateSchedulingInput [DecidableEq Module] (tree : ModuleTree Module) (ops : ValueOps)
    (topology : Topology Module) (order : PcpSort Module) (configuration : List Value) :
    Except SimError (Input Module) := do
  let flows ← addFlows tree ops topology order configuration
  pure ⟨topology.devices, topology.switches, flows⟩

/-! ## The start time of a flow -/

/-- `SimTime startTime = -1` -/
def noStartTime : Int := -1000000000000

/-- The start time in an entry, whatever its unit. -/
def entryStartTime (entry : ValueMap) : Except SimError Int :=
  entry.getOptional "startTime" noStartTime fun value => do pure (toSimTime (← value.doubleValue))

/-- The assignment under `if (name == flow->name)`. -/
def assignStartTime (named : Bool) (entry : ValueMap) (startTime : Int) : Except SimError Int :=
  if named then entryStartTime entry else pure startTime

/-- The loop over the entries. It numbers the entries without a name. -/
def findStartTime (name : String) : List Value → Nat → Int → Except SimError Int
  | [], _, startTime => pure startTime
  | value :: configuration, flowIndex, startTime => do
    let entry ← value.mapValue
    let (entryName, flowIndex) ← flowName entry flowIndex
    let startTime ← assignStartTime (entryName = name) entry startTime
    findStartTime name configuration flowIndex startTime

/-! ## The request -/

section

variable (tree : ModuleTree Module) (ops : ValueOps)

def jsonDevice (device : Node Module) : Value :=
  .map (record [("name", .string (tree.getFullName device.module))])

def jsonPort (gateCycleDuration : Int) (startNode : Node Module) (port : Port Module) : Value :=
  .map (record [
    ("name", .string (tree.getFullName startNode.module ++ "-" ++ tree.getFullName port.module)),
    ("connectsTo", .string (tree.getFullName port.endNode)),
    ("timeToTravel", .double (port.propagationTime * 1000000) ""),
    ("timeToTravelUnit", .string "us"),
    ("portSpeed", .double (port.datarate / 1000000) ""),
    ("portSpeedSizeUnit", .string "bit"),
    ("portSpeedTimeUnit", .string "us"),
    ("scheduleType", .string "Hypercycle"),
    ("cycleStart", .int 0 ""),
    ("cycleStartUnit", .string "us"),
    ("maximumSlotDuration", .double (gateCycleDuration / 1000000) ""),
    ("maximumSlotDurationUnit", .string "us")])

def jsonSwitch (gateCycleDuration : Int) (node : Node Module) : Value :=
  .map (record [
    ("name", .string (tree.getFullName node.module)),
    ("ports", .array (node.ports.map (jsonPort tree gateCycleDuration node)))])

def jsonHop (networkNode nextNetworkNode : Module) : Value :=
  .map (record [
    ("currentNodeName", .string (tree.getFullName networkNode)),
    ("nextNodeName", .string (tree.getFullName nextNetworkNode))])

/-- The loop runs to the size of the path minus one, which wraps around if the path is empty. -/
def jsonHops (fragments : List (PathFragment Module)) : Except SimError (List Value) := do
  ensure (∀ fragment ∈ fragments, fragment.networkNodes ≠ []) .nullPointer
  pure (fragments.flatMap fun fragment =>
    (fragment.networkNodes.zip fragment.networkNodes.tail).map fun hop => jsonHop tree hop.1 hop.2)

/-- The constraints on the time of a flow. -/
def timeFields (startTime : Int) : List (String × Value) :=
  if startTime > 0 then [
    ("hardConstraintTime", .int 100 ""),
    ("hardConstraintTimeUnit", .string "us"),
    ("firstSendingTime", .string (ops.simTimeStr startTime)),
    ("firstSendingTimeUnit", .string "s")]
  else [
    ("hardConstraintTime", .int 2000 ""),
    ("hardConstraintTimeUnit", .string "us")]

/-- The body of the loop over the flows. -/
def jsonFlow (configuration : List Value) (flow : Flow Module) : Except SimError ValueMap := do
  let startTime ← findStartTime flow.name configuration 0 noStartTime
  let hops ← jsonHops tree flow.pathFragments
  pure (record ([
    ("name", .string flow.name),
    ("type", .string "unicast"),
    ("sourceDevice", .string (tree.getFullName flow.startApplication.device)),
    ("fixedPriority", .string "true"),
    ("priorityValue", .int flow.gateIndex ""),
    ("packetPeriodicity", .double (flow.startApplication.packetInterval / 1000000) ""),
    ("packetPeriodicityUnit", .string "us"),
    ("packetSize", .int flow.startApplication.packetLength ""),
    ("packetSizeUnit", .string "bit")] ++
    timeFields ops startTime ++ [
    ("endDevices", .array [.string (tree.getFullName flow.endDevice)]),
    ("hops", .array hops)]))

def convertInputToJson (configuration : List Value) (gateCycleDuration : Int)
    (input : Input Module) : Except SimError ValueMap := do
  let flows ← input.flows.mapM (jsonFlow tree ops configuration)
  pure (record [
    ("devices", .array (input.devices.map (jsonDevice tree))),
    ("switches", .array (input.switches.map (jsonSwitch tree gateCycleDuration))),
    ("flows", .array (flows.map .map))])

end

/-! ## Names -/

/-- An entry without a name. -/
def isUnnamed : Value → Bool
  | .map entry => !containsKey entry "name"
  | _ => false

/-- The name of an entry, where `n` is the number for an entry without one. -/
def nameOf (value : Value) (n : Nat) : Option String :=
  match value with
  | .map entry => (flowName entry n).toOption.map Prod.fst
  | _ => none

/-- The numbers that the first `k` entries use up, where an entry without a name uses `weight`. -/
def numbersBefore (weight : Value → Nat) (configuration : List Value) (k : Nat) : Nat :=
  ((configuration.take k).map fun value => if isUnnamed value then weight value else 0).sum

/-- The name of the entry `k`, when numbers start at `n`. -/
def nameAt (weight : Value → Nat) (configuration : List Value) (n k : Nat) : Option String :=
  configuration[k]?.bind fun value => nameOf value (n + numbersBefore weight configuration k)

/-- The number of pairs of nodes that match the entry. -/
def pairCount (tree : ModuleTree Module) (topology : Topology Module) (value : Value) : Nat :=
  match value with
  | .map entry =>
    (nodePairs topology).countP fun r => (matchesPair tree entry r.1 r.2).toOption = some true
  | _ => 0

/-- The name that `addFlows` gives to the flow for the pair `p` of the entry `k`. -/
def generatedName (tree : ModuleTree Module) (topology : Topology Module)
    (configuration : List Value) (k p : Nat) : Option String :=
  nameAt (pairCount tree topology) configuration p k

/-- The name that the request computes for the entry `k`. -/
def requestedName (configuration : List Value) (k : Nat) : Option String :=
  nameAt (fun _ => 1) configuration 0 k

section

variable {weight : Value → Nat} {value : Value} {configuration : List Value} {n k : Nat}

theorem nameAt_zero : nameAt weight (value :: configuration) n 0 = nameOf value n := by
  simp [nameAt, numbersBefore]

theorem nameAt_succ : nameAt weight (value :: configuration) n (k + 1) =
    nameAt weight configuration (n + if isUnnamed value then weight value else 0) k := by
  simp only [nameAt, numbersBefore, List.getElem?_cons_succ, List.take_succ_cons, List.map_cons,
    List.sum_cons, Nat.add_assoc]

/-- A name that is given does not depend on the numbers. -/
theorem nameOf_named (h : isUnnamed value = false) (n m : Nat) : nameOf value n = nameOf value m := by
  cases value with
  | map entry =>
    have hkey : containsKey entry "name" = true := by simpa [isUnnamed] using h
    simp only [nameOf, flowName, if_pos hkey]
    cases getString entry "name" <;> rfl
  | _ => rfl

/-- What the computation of a name says about it. -/
theorem flowName_eq_ok {entry : ValueMap} {name : String} {n' : Nat}
    (h : flowName entry n = .ok (name, n')) :
    nameOf (.map entry) n = some name ∧ n' = n + if isUnnamed (.map entry) then 1 else 0 := by
  refine ⟨by rw [nameOf, h]; rfl, ?_⟩
  rw [flowName] at h
  split at h
  · next hkey =>
    simp only [bind_eq_ok, pure_eq_ok, Prod.mk.injEq] at h
    obtain ⟨_, -, -, rfl⟩ := h
    simp [isUnnamed, hkey]
  · next hkey =>
    rw [pure_eq_ok, Prod.mk.injEq] at h
    rw [← h.2, isUnnamed]
    simp [hkey]

end

/-! ## The names of the flows -/

section

variable [DecidableEq Module] {tree : ModuleTree Module} {ops : ValueOps}
  {topology : Topology Module}

theorem makeFlow_name {entry : ValueMap} {a b : Node Module} {flow : Flow Module} {n n' : Nat}
    (h : makeFlow tree ops topology entry a b n = .ok (flow, n')) :
    flowName entry n = .ok (flow.name, n') := by
  simp only [makeFlow, bind_eq_ok, pure_eq_ok, Prod.mk.injEq] at h
  obtain ⟨_, -, _, -, _, -, _, -, _, -, _, -, _, -, _, -, _, -, _, -, _, -, ⟨name, n''⟩, hname, _, -,
    _, -, rfl, rfl⟩ := h
  exact hname

/-- The flows of an entry, one for each pair that matches, named in their order. -/
theorem flowsOfPairs_names {entry : ValueMap} :
    ∀ {pairs : List (Node Module × Node Module)} {n n' : Nat} {flows : List (Flow Module)},
      flowsOfPairs tree ops topology entry pairs n = .ok (flows, n') →
      flows.length =
          pairs.countP (fun r => (matchesPair tree entry r.1 r.2).toOption = some true) ∧
        n' = n + (if isUnnamed (.map entry) then flows.length else 0) ∧
        ∀ p flow, flows[p]? = some flow → nameOf (.map entry) (n + p) = some flow.name
  | [], n, n', flows, h => by
    rw [flowsOfPairs, pure_eq_ok, Prod.mk.injEq] at h
    obtain ⟨rfl, rfl⟩ := h
    simp
  | (a, b) :: pairs, n, n', flows, h => by
    simp only [flowsOfPairs, bind_eq_ok] at h
    obtain ⟨matched, hmatch, h⟩ := h
    rw [List.countP_cons, hmatch]
    cases matched with
    | false =>
      obtain ⟨hlength, hn, hnames⟩ := flowsOfPairs_names h
      exact ⟨by simp [Except.toOption, hlength], hn, hnames⟩
    | true =>
      simp only [if_true, bind_eq_ok, pure_eq_ok, Prod.mk.injEq] at h
      obtain ⟨⟨flow, n₁⟩, hflow, ⟨rest, n₂⟩, hrest, rfl, rfl⟩ := h
      obtain ⟨hname, hn₁⟩ := flowName_eq_ok (makeFlow_name hflow)
      obtain ⟨hlength, hn₂, hnames⟩ := flowsOfPairs_names hrest
      dsimp only at hn₁ hn₂
      refine ⟨by simp [Except.toOption, hlength], ?_, ?_⟩
      -- only a flow without a name of its own takes a number
      · rw [hn₂, hn₁]
        cases isUnnamed (.map entry) with
        | false => simp
        | true =>
          simp only [if_true, List.length_cons]
          omega
      · intro p other hp
        cases p with
        | zero =>
          rw [List.getElem?_cons_zero, Option.some.injEq] at hp
          rw [← hp, Nat.add_zero]
          exact hname
        | succ p =>
          rw [← hnames p other (by simpa using hp)]
          cases hu : isUnnamed (.map entry) with
          | false => exact nameOf_named hu _ _
          | true =>
            rw [hn₁, hu]
            exact congrArg _ (by simp only [if_true]; omega)

/-- **The names that `addFlows` gives**, with the number of flows of each entry. -/
theorem collectFlows_names : ∀ {configuration : List Value} {n : Nat}
    {perEntry : List (List (Flow Module))},
    collectFlows tree ops topology configuration n = .ok perEntry →
    ∀ k : Nat, ∀ value, configuration[k]? = some value → ∃ flows, perEntry[k]? = some flows ∧
      flows.length = pairCount tree topology value ∧
      ∀ p flow, flows[p]? = some flow →
        nameAt (pairCount tree topology) configuration (n + p) k = some flow.name
  | [], n, perEntry, h => by simp
  | value :: configuration, n, perEntry, h => by
    simp only [collectFlows, bind_eq_ok, pure_eq_ok] at h
    obtain ⟨entry, hentry, ⟨flows, n'⟩, hflows, rest, hrest, rfl⟩ := h
    obtain ⟨hlength, hn', hnames⟩ := flowsOfPairs_names hflows
    dsimp only at hn' hrest
    have hvalue : value = .map entry := by
      cases value <;> simp_all [Value.mapValue]
    subst hvalue
    intro k value hk
    cases k with
    | zero =>
      rw [List.getElem?_cons_zero, Option.some.injEq] at hk
      subst hk
      refine ⟨flows, rfl, hlength, fun p flow hp => ?_⟩
      rw [nameAt_zero]
      exact hnames p flow hp
    | succ k =>
      obtain ⟨flows', hflows', hlength', hnames'⟩ := collectFlows_names hrest k value hk
      refine ⟨flows', hflows', hlength', fun p flow hp => ?_⟩
      have hcount : flows.length = pairCount tree topology (.map entry) := hlength
      rw [nameAt_succ, ← hnames' p flow hp, hn', ← hcount, Nat.add_right_comm]

end

/-! ## The entry that a start time comes from -/

/-- An entry as the documentation of the parameter describes it. -/
structure ValidEntry (value : Value) : Prop where
  map : ∃ entry, value = .map entry
  name : ∀ entry, value = .map entry → containsKey entry "name" = true →
    ∃ name, getString entry "name" = .ok name
  startTime : ∀ entry, value = .map entry → ∃ t, entryStartTime entry = .ok t

theorem ValidEntry.of_isOk {entry : ValueMap} (hname : (flowName entry 0).isOk = true)
    (hstart : (entryStartTime entry).isOk = true) : ValidEntry (.map entry) := by
  refine ⟨⟨entry, rfl⟩, ?_, ?_⟩
  · rintro _ ⟨rfl⟩ hkey
    obtain ⟨_, h⟩ := exists_of_isOk hname
    rw [flowName, if_pos hkey] at h
    simp only [bind_eq_ok] at h
    obtain ⟨name, h, -⟩ := h
    exact ⟨name, h⟩
  · rintro _ ⟨rfl⟩
    exact exists_of_isOk hstart

/-- The last entry with the name, where numbers start at `n`. -/
def LastNamed (configuration : List Value) (n : Nat) (name : String) (k : Nat) : Prop :=
  nameAt (fun _ => 1) configuration n k = some name ∧
    ∀ j, k < j → nameAt (fun _ => 1) configuration n j ≠ some name

theorem LastNamed.unique {configuration : List Value} {n : Nat} {name : String} {j k : Nat}
    (hj : LastNamed configuration n name j) (hk : LastNamed configuration n name k) : j = k := by
  rcases Nat.lt_trichotomy j k with h | h | h
  · exact absurd hk.1 (hj.2 k h)
  · exact h
  · exact absurd hj.1 (hk.2 j h)

theorem flowName_of_valid {entry : ValueMap} (h : ValidEntry (.map entry)) (n : Nat) :
    ∃ name n', flowName entry n = .ok (name, n') := by
  rw [flowName]
  split
  · next hkey =>
    obtain ⟨name, hname⟩ := h.name entry rfl hkey
    exact ⟨name, n, by rw [hname]; rfl⟩
  · exact ⟨_, _, rfl⟩

/-- **The request takes the start time from the last entry with the name.** -/
theorem findStartTime_eq (name : String) : ∀ {configuration : List Value} (n : Nat) (t : Int),
    (∀ value ∈ configuration, ValidEntry value) →
    ∃ t', findStartTime name configuration n t = .ok t' ∧
      ((∃ k entry, LastNamed configuration n name k ∧ configuration[k]? = some (.map entry) ∧
          entryStartTime entry = .ok t') ∨
        (∀ k, nameAt (fun _ => 1) configuration n k ≠ some name) ∧ t' = t)
  | [], n, t, _ => ⟨t, rfl, Or.inr ⟨by simp [nameAt], rfl⟩⟩
  | value :: configuration, n, t, hvalid => by
    have hhead := hvalid _ List.mem_cons_self
    obtain ⟨entry, rfl⟩ := hhead.map
    obtain ⟨entryName, n', hname⟩ := flowName_of_valid hhead n
    obtain ⟨hentryName, hn'⟩ := flowName_eq_ok hname
    obtain ⟨t₀, ht₀⟩ := hhead.startTime entry rfl
    obtain ⟨t₁, ht₁⟩ : ∃ t₁, assignStartTime (entryName = name) entry t = .ok t₁ := by
      rw [assignStartTime]
      split
      · exact ⟨t₀, ht₀⟩
      · exact ⟨t, rfl⟩
    obtain ⟨t', ht', hcases⟩ :=
      findStartTime_eq name n' t₁ fun v hv => hvalid v (List.mem_cons_of_mem _ hv)
    -- the other entries are numbered behind this one
    have hsucc : ∀ j, nameAt (fun _ => 1) (.map entry :: configuration) n (j + 1) =
        nameAt (fun _ => 1) configuration n' j := by
      intro j
      rw [nameAt_succ, hn']
    refine ⟨t', ?_, ?_⟩
    · simp only [findStartTime, bind_eq_ok, Value.mapValue]
      exact ⟨entry, rfl, (entryName, n'), hname, t₁, ht₁, ht'⟩
    rcases hcases with ⟨k, other, ⟨hk, hlast⟩, hother, hstart⟩ | ⟨hnone, rfl⟩
    · refine Or.inl ⟨k + 1, other, ⟨by rw [hsucc, hk], fun j hj => ?_⟩, hother, hstart⟩
      obtain ⟨j, rfl⟩ : ∃ j', j = j' + 1 := ⟨j - 1, by omega⟩
      rw [hsucc]
      exact hlast j (by omega)
    -- no later entry has the name, so this one decides, if it has it
    · by_cases heq : entryName = name
      · refine Or.inl ⟨0, entry, ⟨by rw [nameAt_zero, hentryName, heq], fun j hj => ?_⟩, rfl, ?_⟩
        · obtain ⟨j, rfl⟩ : ∃ j', j = j' + 1 := ⟨j - 1, by omega⟩
          rw [hsucc]
          exact hnone j
        · simpa [assignStartTime, heq] using ht₁
      · refine Or.inr ⟨fun j => ?_, ?_⟩
        · cases j with
          | zero =>
            rw [nameAt_zero, hentryName, ne_eq, Option.some.injEq]
            exact heq
          | succ j =>
            rw [hsucc]
            exact hnone j
        · exact (pure_eq_ok.mp (by simpa [assignStartTime, heq] using ht₁)).symm

/-! ## Start times -/

/-- The start time of an entry, if it is positive. -/
def positiveStartTime (entry : ValueMap) : Option Int :=
  (entryStartTime entry).toOption.filter (0 < ·)

/-- The request takes the start time of flows with the name from the entry `k`. -/
def Supplies (configuration : List Value) (name : String) (k : Nat) : Prop :=
  requestedName configuration k = some name ∧
    ∀ j, k < j → requestedName configuration j ≠ some name

/-- What the request sends is the start time of the entry `k`, and no other entry supplied it. -/
structure OwnStartTime (ops : ValueOps) (configuration : List Value) (k : Nat) (entry : ValueMap)
    (name : String) (fields : ValueMap) : Prop where
  value : fields.lookup "firstSendingTime" =
    (positiveStartTime entry).map fun t => .string (ops.simTimeStr t)
  origin : fields.lookup "firstSendingTime" ≠ none → ∀ j, Supplies configuration name j → j = k

/-- The entry supplies the name itself, or neither it nor the one that does has a start time. -/
def Agrees (configuration : List Value) (k : Nat) (entry : ValueMap) (name : String) : Prop :=
  Supplies configuration name k ∨
    positiveStartTime entry = none ∧ ∀ j other, Supplies configuration name j →
      configuration[j]? = some (.map other) → positiveStartTime other = none

/-- Every path of the flow has a node. -/
def HasPath (flow : Flow Module) : Prop :=
  ∀ fragment ∈ flow.pathFragments, fragment.networkNodes ≠ []

instance (flow : Flow Module) : Decidable (HasPath flow) :=
  inferInstanceAs (Decidable (∀ _ ∈ _, _))

section

variable {tree : ModuleTree Module} {ops : ValueOps} {configuration : List Value}
  {flow : Flow Module} {fields : ValueMap}

theorem timeFields_lookup (t : Int) :
    (timeFields ops t).reverse.lookup "firstSendingTime" =
      if t > 0 then some (.string (ops.simTimeStr t)) else none := by
  rw [timeFields]
  split
  · simp [List.lookup_cons]
  · simp [List.lookup_cons]

/-- The start time that a flow is sent with. -/
theorem jsonFlow_eq_ok (h : jsonFlow tree ops configuration flow = .ok fields) :
    HasPath flow ∧ ∃ t, findStartTime flow.name configuration 0 noStartTime = .ok t ∧
      fields.lookup "firstSendingTime" =
        if t > 0 then some (.string (ops.simTimeStr t)) else none := by
  simp only [jsonFlow, jsonHops, bind_eq_ok, pure_eq_ok, ensure_eq_ok] at h
  obtain ⟨t, ht, hops, ⟨-, hpath, -⟩, rfl⟩ := h
  refine ⟨hpath, t, ht, ?_⟩
  rw [lookup_record, ← timeFields_lookup]
  simp [List.lookup_append, List.lookup_cons]

theorem jsonFlow_of_valid (hvalid : ∀ value ∈ configuration, ValidEntry value)
    (hpath : HasPath flow) : ∃ fields, jsonFlow tree ops configuration flow = .ok fields := by
  obtain ⟨t, ht, -⟩ := findStartTime_eq flow.name 0 noStartTime hvalid
  simp only [jsonFlow, jsonHops, bind_eq_ok, pure_eq_ok, ensure_eq_ok]
  exact ⟨_, t, ht, _, ⟨(), hpath, rfl⟩, rfl⟩

theorem supplies_iff {name : String} {k : Nat} :
    Supplies configuration name k ↔ LastNamed configuration 0 name k := Iff.rfl

theorem positiveStartTime_of_ok {entry : ValueMap} {t : Int} (h : entryStartTime entry = .ok t) :
    positiveStartTime entry = if t > 0 then some t else none := by
  rw [positiveStartTime, h]
  by_cases ht : 0 < t
  · simp [Except.toOption, Option.filter, ht]
  · simp [Except.toOption, Option.filter, ht]

/-- **A flow is sent with the start time of its entry iff the names agree.** -/
theorem ownStartTime_iff (hvalid : ∀ value ∈ configuration, ValidEntry value)
    (hfields : jsonFlow tree ops configuration flow = .ok fields) {k : Nat} {entry : ValueMap}
    (hk : configuration[k]? = some (.map entry)) :
    OwnStartTime ops configuration k entry flow.name fields ↔
      Agrees configuration k entry flow.name := by
  obtain ⟨-, t, ht, hlookup⟩ := jsonFlow_eq_ok hfields
  obtain ⟨t', ht', hcases⟩ := findStartTime_eq flow.name 0 noStartTime hvalid
  rw [ht, Except.ok.injEq] at ht'
  subst ht'
  -- either some last entry has the name of the flow, or none has it
  rcases hcases with ⟨last, other, hlast, hother, hstart⟩ | ⟨hnone, rfl⟩
  · have hpositive := positiveStartTime_of_ok hstart
    have hsent : fields.lookup "firstSendingTime" =
        (positiveStartTime other).map fun t => .string (ops.simTimeStr t) := by
      rw [hlookup, hpositive]
      split <;> rfl
    constructor
    · rintro ⟨hvalue, horigin⟩
      by_cases hsome : fields.lookup "firstSendingTime" = none
      · refine Or.inr ⟨by simpa [hvalue] using hsome, fun j other' hj hj' => ?_⟩
        rw [supplies_iff.mp hj |>.unique hlast, hother, Option.some.injEq, Value.map.injEq] at hj'
        rw [← hj']
        simpa [hsent] using hsome
      · rw [← horigin hsome last hlast]
        exact Or.inl hlast
    · rintro (hsupplies | ⟨hentry, hothers⟩)
      · obtain rfl := (supplies_iff.mp hsupplies).unique hlast
        rw [hk, Option.some.injEq, Value.map.injEq] at hother
        rw [← hother] at hsent
        exact ⟨hsent, fun _ j hj => (supplies_iff.mp hj).unique hlast⟩
      · have hnot := hothers last other hlast hother
        rw [hnot] at hsent
        exact ⟨by rw [hsent, hentry], fun hne => absurd hsent hne⟩
  · have hsent : fields.lookup "firstSendingTime" = none := hlookup
    have hno : ∀ j, ¬ Supplies configuration flow.name j := fun j hj => hnone j hj.1
    constructor
    · rintro ⟨hvalue, -⟩
      exact Or.inr ⟨by simpa [hsent, eq_comm] using hvalue, fun j _ hj => absurd hj (hno j)⟩
    · rintro (hsupplies | ⟨hentry, -⟩)
      · exact absurd hsupplies (hno k)
      · exact ⟨by rw [hsent, hentry]; rfl, fun hne => absurd hsent hne⟩

end

/-! ## All flows -/

section

variable {tree : ModuleTree Module} {ops : ValueOps} {topology : Topology Module}
  {order : PcpSort Module} {configuration : List Value} {input : Input Module}

/-- The request is the list of its flows. -/
theorem convertInputToJson_eq_ok {gateCycleDuration : Int} {json : ValueMap}
    (h : convertInputToJson tree ops configuration gateCycleDuration input = .ok json) :
    ∃ flows, input.flows.mapM (jsonFlow tree ops configuration) = .ok flows ∧
      json.lookup "flows" = some (.array (flows.map .map)) := by
  simp only [convertInputToJson, bind_eq_ok, pure_eq_ok] at h
  obtain ⟨flows, hflows, rfl⟩ := h
  exact ⟨flows, hflows, by simp [lookup_record]⟩

theorem exists_convertInputToJson (gateCycleDuration : Int) :
    (∃ json, convertInputToJson tree ops configuration gateCycleDuration input = .ok json) ↔
      ∃ flows, input.flows.mapM (jsonFlow tree ops configuration) = .ok flows := by
  simp only [convertInputToJson, bind_eq_ok, pure_eq_ok]
  constructor
  · rintro ⟨_, flows, hflows, -⟩
    exact ⟨flows, hflows⟩
  · rintro ⟨flows, hflows⟩
    exact ⟨_, flows, hflows, rfl⟩

variable [DecidableEq Module]

/-- `addFlows` makes the flow from the entry `k`. -/
def MadeFrom (tree : ModuleTree Module) (ops : ValueOps) (topology : Topology Module)
    (configuration : List Value) (k : Nat) (flow : Flow Module) : Prop :=
  ∃ perEntry flows, collectFlows tree ops topology configuration 0 = .ok perEntry ∧
    perEntry[k]? = some flows ∧ flow ∈ flows

/-- Every flow of the request has the start time of the entry that it is made from. -/
def StartTimesOwn (tree : ModuleTree Module) (ops : ValueOps) (topology : Topology Module)
    (configuration : List Value) (input : Input Module) (json : ValueMap) : Prop :=
  ∃ jsonFlows, json.lookup "flows" = some (.array jsonFlows) ∧
    ∀ k entry flow, configuration[k]? = some (.map entry) →
      MadeFrom tree ops topology configuration k flow →
      ∀ i : Nat, input.flows[i]? = some flow → ∃ fields, jsonFlows[i]? = some (.map fields) ∧
        OwnStartTime ops configuration k entry flow.name fields

/-- Both sides compute names that agree, for every pair of nodes that matches an entry. -/
def NamesAgree (tree : ModuleTree Module) (topology : Topology Module)
    (configuration : List Value) : Prop :=
  ∀ k entry p name, configuration[k]? = some (.map entry) →
    p < pairCount tree topology (.map entry) →
    generatedName tree topology configuration k p = some name → Agrees configuration k entry name

theorem createGateSchedulingInput_eq_ok
    (h : createGateSchedulingInput tree ops topology order configuration = .ok input) :
    ∃ perEntry, collectFlows tree ops topology configuration 0 = .ok perEntry ∧
      input.flows.Perm perEntry.flatten := by
  simp only [createGateSchedulingInput, bind_eq_ok, pure_eq_ok] at h
  obtain ⟨flows, hflows, rfl⟩ := h
  obtain ⟨perEntry, hcollect, rfl⟩ := addFlows_perm.mp hflows
  exact ⟨perEntry, hcollect, order.sort_perm _⟩

/-- The flow for a pair of an entry, with its place in the input. -/
theorem exists_flow
    (hinput : createGateSchedulingInput tree ops topology order configuration = .ok input)
    {k p : Nat} {entry : ValueMap} {name : String} (hk : configuration[k]? = some (.map entry))
    (hp : p < pairCount tree topology (.map entry))
    (hname : generatedName tree topology configuration k p = some name) :
    ∃ flow, ∃ i : Nat, MadeFrom tree ops topology configuration k flow ∧ input.flows[i]? = some flow ∧
      flow.name = name := by
  obtain ⟨perEntry, hcollect, hperm⟩ := createGateSchedulingInput_eq_ok hinput
  obtain ⟨flows, hflows, hlength, hnames⟩ := collectFlows_names hcollect k _ hk
  replace hp : p < flows.length := hlength ▸ hp
  have hget : flows[p]? = some flows[p] := List.getElem?_eq_getElem _
  have hmem : flows[p] ∈ flows := List.getElem_mem _
  have hflow := hnames p _ hget
  rw [Nat.zero_add] at hflow
  obtain ⟨i, hi⟩ := List.mem_iff_getElem?.mp
    (hperm.mem_iff.mpr (List.mem_flatten.mpr ⟨flows, List.mem_of_getElem? hflows, hmem⟩))
  refine ⟨_, i, ⟨perEntry, flows, hcollect, hflows, hmem⟩, hi, ?_⟩
  rw [generatedName, hflow, Option.some.injEq] at hname
  exact hname

theorem MadeFrom.name {k : Nat} {flow : Flow Module} {entry : ValueMap}
    (h : MadeFrom tree ops topology configuration k flow)
    (hk : configuration[k]? = some (.map entry)) :
    ∃ p, p < pairCount tree topology (.map entry) ∧
      generatedName tree topology configuration k p = some flow.name := by
  obtain ⟨perEntry, flows, hcollect, hflows, hmem⟩ := h
  obtain ⟨flows', hflows', hlength, hnames⟩ := collectFlows_names hcollect k _ hk
  rw [hflows, Option.some.injEq] at hflows'
  subst hflows'
  obtain ⟨p, hp, rfl⟩ := List.mem_iff_getElem.mp hmem
  refine ⟨p, hlength ▸ hp, ?_⟩
  have := hnames p _ (List.getElem?_eq_getElem hp)
  rwa [Nat.zero_add] at this

theorem StartTimesOwn.namesAgree {gateCycleDuration : Int} {json : ValueMap}
    (hvalid : ∀ value ∈ configuration, ValidEntry value)
    (hinput : createGateSchedulingInput tree ops topology order configuration = .ok input)
    (hjson : convertInputToJson tree ops configuration gateCycleDuration input = .ok json)
    (h : StartTimesOwn tree ops topology configuration input json) :
    NamesAgree tree topology configuration := by
  intro k entry p name hk hp hname
  obtain ⟨flows, hflows, hlookup⟩ := convertInputToJson_eq_ok hjson
  obtain ⟨jsonFlows, hjsonFlows, hown⟩ := h
  rw [hlookup, Option.some.injEq, Value.array.injEq] at hjsonFlows
  subst hjsonFlows
  obtain ⟨flow, i, hmade, hi, rfl⟩ := exists_flow hinput hk hp hname
  obtain ⟨fields, hfields, hfieldsOwn⟩ := hown k entry flow hk hmade i hi
  obtain ⟨fields', hfields', hflow⟩ := mapM_getElem? hflows hi
  rw [List.getElem?_map, hfields', Option.map_some, Option.some.injEq, Value.map.injEq] at hfields
  subst hfields
  exact (ownStartTime_iff hvalid hflow hk).mp hfieldsOwn

/-- **Every flow is sent with the start time of its own entry iff the names agree.** -/
theorem start_times_own_iff (gateCycleDuration : Int)
    (hvalid : ∀ value ∈ configuration, ValidEntry value)
    (hinput : createGateSchedulingInput tree ops topology order configuration = .ok input) :
    (∃ json, convertInputToJson tree ops configuration gateCycleDuration input = .ok json ∧
        StartTimesOwn tree ops topology configuration input json) ↔
      (∀ flow ∈ input.flows, HasPath flow) ∧ NamesAgree tree topology configuration := by
  constructor
  · rintro ⟨json, hjson, hown⟩
    refine ⟨fun flow hflow => ?_, hown.namesAgree hvalid hinput hjson⟩
    obtain ⟨flows, hflows, -⟩ := convertInputToJson_eq_ok hjson
    obtain ⟨fields, hfields⟩ := exists_mapM_ok.mp ⟨flows, hflows⟩ flow hflow
    exact (jsonFlow_eq_ok hfields).1
  · rintro ⟨hpath, hagree⟩
    obtain ⟨json, hjson⟩ := (exists_convertInputToJson _).mpr (exists_mapM_ok.mpr fun flow hflow =>
      jsonFlow_of_valid hvalid (hpath flow hflow))
    obtain ⟨flows, hflows, hlookup⟩ := convertInputToJson_eq_ok hjson
    refine ⟨json, hjson, _, hlookup, fun k entry flow hk hmade i hi => ?_⟩
    obtain ⟨p, hp, hname⟩ := hmade.name hk
    obtain ⟨fields, hfields, hflow⟩ := mapM_getElem? hflows hi
    refine ⟨fields, by rw [List.getElem?_map, hfields, Option.map_some], ?_⟩
    exact (ownStartTime_iff hvalid hflow hk).mpr (hagree k entry p flow.name hk hp hname)

end

/-! ## The devices of a car -/

/-- An entry for the flows from the network card of the car to its devices. -/
def devicesEntry (more : List (String × Value)) : ValueMap :=
  record ([("source", .string "tsnNic"), ("destination", .string "tsnDevice"), ("pcp", .int 4 ""),
    ("gateIndex", .int 4 ""), ("packetLength", .int 100 "B"), ("packetInterval", .int 10 "ms"),
    ("application", .string "app[0]")] ++ more)

def startTimeField : String × Value := ("startTime", .double (1 / 2) "")

/-- The input that the flows of the car are in. -/
theorem exists_carInput (configuration : List Value)
    (h : (collectFlows carNetwork.tree basicOps carTopology configuration 0).toOption.any
      (fun perEntry => decide (∀ flow ∈ perEntry.flatten, HasPath flow)) = true) :
    ∃ input, createGateSchedulingInput carNetwork.tree basicOps carTopology stableSort
      configuration = .ok input ∧ ∀ flow ∈ input.flows, HasPath flow := by
  obtain ⟨perEntry, hcollect, hpath⟩ := exists_of_any h
  refine ⟨⟨carTopology.devices, carTopology.switches, stableSort.sort perEntry.flatten⟩, ?_, ?_⟩
  · simp only [createGateSchedulingInput, bind_eq_ok, pure_eq_ok]
    exact ⟨_, addFlows_perm.mpr ⟨perEntry, hcollect, rfl⟩, rfl⟩
  · intro flow hflow
    exact of_decide_eq_true hpath flow ((stableSort.sort_perm _).mem_iff.mp hflow)

/-- A name and a start time between two entries that have neither. -/
def namedConfiguration : List Value :=
  [.map (devicesEntry []), .map (devicesEntry [("name", .string "a"), startTimeField]),
    .map (devicesEntry [])]

theorem namedConfiguration_agrees :
    NamesAgree carNetwork.tree carTopology namedConfiguration := by
  have hlength : ∀ {k : Nat} {value : Value}, namedConfiguration[k]? = some value → k < 3 :=
    fun hk => (List.getElem?_eq_some_iff.mp hk).1
  have hcount : ∀ value ∈ namedConfiguration, pairCount carNetwork.tree carTopology value = 2 := by
    decide +kernel
  -- only the entry in the middle has a start time, and only its flows have its name
  have hstart : ∀ k entry, namedConfiguration[k]? = some (.map entry) → k ≠ 1 →
      positiveStartTime entry = none := by
    intro k entry hk hne
    have hlt := hlength hk
    obtain rfl | rfl : k = 0 ∨ k = 2 := by omega
    · cases hk
      decide +kernel
    · cases hk
      decide +kernel
  have hnames : ∀ k < 3, ∀ p < 2,
      (generatedName carNetwork.tree carTopology namedConfiguration k p = some "a" ↔ k = 1) := by
    decide +kernel
  have hrequested : requestedName namedConfiguration 1 = some "a" := by decide +kernel
  intro k entry p name hk hp hname
  rw [hcount _ (List.mem_of_getElem? hk)] at hp
  have hiff := hnames k (hlength hk) p hp
  rw [hname, Option.some_inj] at hiff
  by_cases hone : k = 1
  · subst hone
    obtain rfl := hiff.mpr rfl
    refine Or.inl ⟨hrequested, fun j hj => ?_⟩
    rcases Nat.eq_or_lt_of_le hj with rfl | hj
    · decide +kernel
    · rw [requestedName, nameAt, List.getElem?_eq_none hj]
      exact nofun
  · refine Or.inr ⟨hstart k entry hk hone, fun j other hj hother => hstart j other hother ?_⟩
    rintro rfl
    exact hone (hiff.mp (Option.some_inj.mp (hj.1.symm.trans hrequested)))

theorem start_times_own_named :
    ∃ input json, createGateSchedulingInput carNetwork.tree basicOps carTopology stableSort
        namedConfiguration = .ok input ∧
      convertInputToJson carNetwork.tree basicOps namedConfiguration 1000000000 input =
          .ok json ∧
      StartTimesOwn carNetwork.tree basicOps carTopology namedConfiguration input json := by
  have hvalid : ∀ value ∈ namedConfiguration, ValidEntry value := by
    refine List.forall_mem_cons.mpr ⟨.of_isOk ?_ ?_, List.forall_mem_cons.mpr ⟨.of_isOk ?_ ?_,
      List.forall_mem_singleton.mpr (.of_isOk ?_ ?_)⟩⟩ <;> decide +kernel
  obtain ⟨input, hinput, hpath⟩ := exists_carInput namedConfiguration (by decide +kernel)
  obtain ⟨json, hjson, hown⟩ :=
    (start_times_own_iff 1000000000 hvalid hinput).mpr ⟨hpath, namedConfiguration_agrees⟩
  exact ⟨input, json, hinput, hjson, hown⟩

/-- The second flow of the first entry is sent with the start time of the second entry. -/
theorem second_flow_takes_next_start_time :
    ∃ input json, createGateSchedulingInput carNetwork.tree basicOps carTopology stableSort
        [.map (devicesEntry []), .map (devicesEntry [startTimeField])] = .ok input ∧
      convertInputToJson carNetwork.tree basicOps
        [.map (devicesEntry []), .map (devicesEntry [startTimeField])] 1000000000 input =
          .ok json ∧
      ¬ StartTimesOwn carNetwork.tree basicOps carTopology
        [.map (devicesEntry []), .map (devicesEntry [startTimeField])] input json := by
  have hvalid : ∀ value ∈ [Value.map (devicesEntry []), .map (devicesEntry [startTimeField])],
      ValidEntry value := by
    refine List.forall_mem_cons.mpr ⟨.of_isOk ?_ ?_,
      List.forall_mem_singleton.mpr (.of_isOk ?_ ?_)⟩ <;> decide +kernel
  obtain ⟨input, hinput, hpath⟩ := exists_carInput
    [.map (devicesEntry []), .map (devicesEntry [startTimeField])]
    (by decide +kernel)
  obtain ⟨json, hjson⟩ := (exists_convertInputToJson 1000000000).mpr
    (exists_mapM_ok.mpr fun flow hflow => jsonFlow_of_valid hvalid (hpath flow hflow))
  refine ⟨input, json, hinput, hjson, fun hown => ?_⟩
  rcases hown.namesAgree hvalid hinput hjson 0 _ 1 "flow1" rfl (by decide +kernel)
    (by decide +kernel) with hsupplies | ⟨-, hothers⟩
  · exact absurd hsupplies.1 (by decide +kernel)
  · have hsupplies : Supplies [.map (devicesEntry []), .map (devicesEntry [startTimeField])]
        "flow1" 1 := by
      refine ⟨by decide +kernel, fun j hj => ?_⟩
      rw [requestedName, nameAt, List.getElem?_eq_none (by simpa [Nat.succ_le_iff] using hj)]
      simp
    exact absurd (hothers 1 _ hsupplies rfl) (by decide +kernel)

end CooperativeTsn
