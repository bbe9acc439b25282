import CooperativeTsn.Flow.Input
import CooperativeTsn.Stream.Construct

/-!
# Streams through the configuration text

A stream is printed by `operator<<` and read back by `addFlows`. The text names the ends of the
stream by their bare names, without index and path, and the reader takes these as patterns for the
paths of all nodes.

* `printedFields_readable` — what the reader finds in a printed stream
* `matchesPair_printed` — the pairs that match are those whose paths contain the names
* `endpoints_survive_iff` — every stream comes back as one flow between its ends iff no other node's
  path contains their names
-/

namespace CooperativeTsn

open Infra.Runs PatternMatcher

variable {Module : Type}

/-! ## Printing -/

/-- A field that is printed only if it is positive. -/
def limitField (ops : ValueOps) (key : String) (limit : Rat) : ValueMap :=
  if limit > 0 then [(key, .double (ops.printedDouble limit) "ms")] else []

/-- The fragments are printed as one list of names. -/
def fragmentsField (tree : ModuleTree Module) (fragments : List Module) : ValueMap :=
  if fragments = [] then []
  else [("pathFragments", .array (fragments.map fun m => .string (tree.getName m)))]

/-- Bits, in bytes if they are whole. -/
def bitsValue (bits : Int) : Value :=
  if bits.tmod 8 = 0 then .int (bits.tdiv 8) "B" else .int bits "b"

/-- The fields of a printed stream. -/
def printedFields (tree : ModuleTree Module) (ops : ValueOps) (s : TsnStream Module)
    (application source destination : Module) (fragments : List Module) : ValueMap :=
  [("application", .string (tree.getFullName application)),
    ("destination", .string (tree.getName destination)), ("gateIndex", .int s.gateIndex "")] ++
  limitField ops "maxJitter" s.maxJitter ++ limitField ops "maxLatency" s.maxLatency ++
  [("name", .string s.streamName),
    ("packetInterval", .double (ops.printedDouble s.packetInterval) "ms"),
    ("packetLength", bitsValue s.packetSize)] ++
  fragmentsField tree fragments ++
  [("pcp", .int s.pcp ""), ("source", .string (tree.getName source)),
    ("startTime", .double (s.startTime / 1000000000000) "s")]

/-- A quote or a backslash in a name breaks the text. -/
def Printable (name : String) : Prop := ∀ c ∈ name.toList, c ≠ '"' ∧ c ≠ '\\'

instance (name : String) : Decidable (Printable name) := inferInstanceAs (Decidable (∀ _ ∈ _, _))

theorem printable_of_all {name : String}
    (h : (name.toList.all fun c => c != '"' && c != '\\') = true) : Printable name := by
  intro c hc
  have hboth := List.all_eq_true.mp h c hc
  simpa using hboth

/-- `operator<<`, as the object that the text denotes. -/
def printStream (tree : ModuleTree Module) (ops : ValueOps) (s : TsnStream Module) :
    Except SimError ValueMap := do
  ensure (Printable s.streamName) (.runtimeError "syntax error")
  let application ← require .nullPointer s.applicationModule
  let source ← require .nullPointer s.sourceModule
  let destination ← require .nullPointer s.destinationModule
  let fragments ← require .nullPointer (s.pathFragments.mapM id)
  pure (printedFields tree ops s application source destination fragments)

theorem printStream_of_modules {tree : ModuleTree Module} {ops : ValueOps} {s : TsnStream Module}
    {application source destination : Module} (hname : Printable s.streamName)
    (happlication : s.applicationModule = some application) (hsource : s.sourceModule = some source)
    (hdestination : s.destinationModule = some destination) (hfragments : s.pathFragments = []) :
    printStream tree ops s =
      .ok (printedFields tree ops s application source destination []) := by
  simp only [printStream, bind_eq_ok, require_eq_ok, ensure_eq_ok, pure_eq_ok]
  exact ⟨(), hname, application, happlication, source, hsource, destination, hdestination, [],
    by rw [hfragments]; rfl, rfl⟩

/-- The streams that are printed: an interval of zero means that one packet came so far. -/
def emittedStreams (streams : List (TsnStream Module)) : List (TsnStream Module) :=
  streams.filter fun s => s.packetInterval ≠ 0

def printStreams (tree : ModuleTree Module) (ops : ValueOps) :
    List (TsnStream Module) → Except SimError (List Value)
  | [] => pure []
  | s :: streams => do
    let entry ← printStream tree ops s
    let entries ← printStreams tree ops streams
    pure (.map entry :: entries)

def getSchedulerConfiguration (tree : ModuleTree Module) (ops : ValueOps)
    (streams : List (TsnStream Module)) : Except SimError (List Value) :=
  printStreams tree ops (emittedStreams streams)

/-! ## Reading a printed stream -/

/-- What `addFlows` reads from an entry, with the texts that decide the ends of a flow. -/
structure Readable (ops : ValueOps) (entry : ValueMap) (application source destination name : String) :
    Prop where
  pcp : ∃ x, entry.getInt "pcp" = .ok x
  gateIndex : ∃ x, entry.getInt "gateIndex" = .ok x
  packetLength : ∃ x, entry.getInUnit ops "packetLength" "b" = .ok x
  headerSize : ∃ x,
    entry.getOptional "cutthroughSwitchingHeaderSize" 0 (·.doubleValueInUnit ops "b") = .ok x
  packetInterval : ∃ x, entry.getInUnit ops "packetInterval" "s" = .ok x
  maxLatency : ∃ x, entry.getOptional "maxLatency" (-1) (·.doubleValueInUnit ops "s") = .ok x
  maxJitter : ∃ x, entry.getOptional "maxJitter" 0 (·.doubleValueInUnit ops "s") = .ok x
  application : entry.getString "application" = .ok application
  source : entry.getString "source" = .ok source
  destination : entry.getString "destination" = .ok destination
  named : entry.containsKey "name" = true
  name : entry.getString "name" = .ok name

theorem limitField_lookup_of_ne {ops : ValueOps} {key k : String} {limit : Rat} (h : k ≠ key) :
    (limitField ops key limit).lookup k = none := by
  rw [limitField]
  split
  · simp [List.lookup_cons, beq_eq_false_iff_ne.mpr h]
  · rfl

theorem limitField_lookup {ops : ValueOps} {key : String} {limit : Rat} :
    (limitField ops key limit).lookup key =
      if limit > 0 then some (.double (ops.printedDouble limit) "ms") else none := by
  rw [limitField]
  split
  · simp
  · rfl

theorem fragmentsField_lookup_of_ne {tree : ModuleTree Module} {k : String} {fragments : List Module}
    (h : k ≠ "pathFragments") : (fragmentsField tree fragments).lookup k = none := by
  rw [fragmentsField]
  split
  · rfl
  · simp [List.lookup_cons, beq_eq_false_iff_ne.mpr h]

theorem fragmentsField_lookup {tree : ModuleTree Module} {fragments : List Module} :
    (fragmentsField tree fragments).lookup "pathFragments" =
      if fragments = [] then none
      else some (.array (fragments.map fun m => .string (tree.getName m))) := by
  rw [fragmentsField]
  split
  · rfl
  · simp

/-- Numbers of bits are printed exactly. -/
theorem bitsValue_inUnit (ops : ValueOps) (bits : Int) :
    (bitsValue bits).doubleValueInUnit ops "b" = .ok (bits : Rat) := by
  rw [bitsValue]
  split
  · next h =>
    have hbits : (8 : Rat) * (bits.tdiv 8 : Int) = bits := by
      exact_mod_cast Int.mul_tdiv_cancel_of_tmod_eq_zero h
    simp only [Value.doubleValueInUnit, ops.convertUnit_bytes, hbits]
    rfl
  · simp only [Value.doubleValueInUnit, ops.convertUnit_self]
    rfl

/-- A limit that is not positive is not printed. -/
theorem getOptional_limit {ops : ValueOps} {fields : ValueMap} {key : String} {limit : Rat}
    (h : fields.lookup key =
      if limit > 0 then some (.double (ops.printedDouble limit) "ms") else none) (default : Rat) :
    fields.getOptional key default (·.doubleValueInUnit ops "s") =
      .ok (if limit > 0 then ops.printedDouble limit / 1000 else default) := by
  rw [ValueMap.getOptional, h]
  by_cases hpos : limit > 0
  · rw [if_pos hpos, if_pos hpos]
    simp only [Value.doubleValueInUnit, ops.convertUnit_ms]
    rfl
  · rw [if_neg hpos, if_neg hpos]

section

variable (tree : ModuleTree Module) (ops : ValueOps) (s : TsnStream Module)
  (application source destination : Module) (fragments : List Module)

theorem printedFields_lookup :
    let fields := printedFields tree ops s application source destination fragments
    fields.lookup "application" = some (.string (tree.getFullName application)) ∧
    fields.lookup "destination" = some (.string (tree.getName destination)) ∧
    fields.lookup "gateIndex" = some (.int s.gateIndex "") ∧
    fields.lookup "name" = some (.string s.streamName) ∧
    fields.lookup "packetInterval" =
      some (.double (ops.printedDouble s.packetInterval) "ms") ∧
    fields.lookup "packetLength" = some (bitsValue s.packetSize) ∧
    fields.lookup "pcp" = some (.int s.pcp "") ∧
    fields.lookup "source" = some (.string (tree.getName source)) ∧
    fields.lookup "cutthroughSwitchingHeaderSize" = none := by
  refine ⟨?_, ?_, ?_, ?_, ?_, ?_, ?_, ?_, ?_⟩ <;>
    simp [printedFields, List.lookup_append, List.lookup_cons, limitField_lookup_of_ne,
      fragmentsField_lookup_of_ne]

theorem printedFields_lookup_maxJitter :
    (printedFields tree ops s application source destination fragments).lookup "maxJitter" =
      if s.maxJitter > 0 then some (.double (ops.printedDouble s.maxJitter) "ms") else none := by
  simp [printedFields, List.lookup_append, List.lookup_cons, limitField_lookup_of_ne,
    limitField_lookup, fragmentsField_lookup_of_ne]

theorem printedFields_lookup_maxLatency :
    (printedFields tree ops s application source destination fragments).lookup "maxLatency" =
      if s.maxLatency > 0 then some (.double (ops.printedDouble s.maxLatency) "ms") else none := by
  simp [printedFields, List.lookup_append, List.lookup_cons, limitField_lookup_of_ne,
    limitField_lookup, fragmentsField_lookup_of_ne]

theorem printedFields_lookup_pathFragments :
    (printedFields tree ops s application source destination fragments).lookup "pathFragments" =
      if fragments = [] then none
      else some (.array (fragments.map fun m => .string (tree.getName m))) := by
  simp [printedFields, List.lookup_append, List.lookup_cons, limitField_lookup_of_ne,
    fragmentsField_lookup]

theorem printedFields_lookup_startTime :
    (printedFields tree ops s application source destination fragments).lookup "startTime" =
      some (.double (s.startTime / 1000000000000) "s") := by
  simp [printedFields, List.lookup_append, List.lookup_cons, limitField_lookup_of_ne,
    fragmentsField_lookup_of_ne]

/-- Whatever the numbers are, the reader gets through. -/
theorem printedFields_readable :
    Readable ops (printedFields tree ops s application source destination fragments)
      (tree.getFullName application) (tree.getName source) (tree.getName destination)
      s.streamName := by
  obtain ⟨happ, hdest, hgate, hname, hinterval, hlength, hpcp, hsource, hheader⟩ :=
    printedFields_lookup tree ops s application source destination fragments
  refine ⟨⟨s.pcp, ValueMap.getInt_of_lookup hpcp⟩, ⟨s.gateIndex, ValueMap.getInt_of_lookup hgate⟩,
    ⟨s.packetSize, ?_⟩, ⟨0, ?_⟩, ⟨ops.printedDouble s.packetInterval / 1000, ?_⟩, ?_, ?_,
    ValueMap.getString_of_lookup happ, ValueMap.getString_of_lookup hsource,
    ValueMap.getString_of_lookup hdest, ?_, ValueMap.getString_of_lookup hname⟩
  · rw [ValueMap.getInUnit_of_lookup hlength, bitsValue_inUnit]
  · rw [ValueMap.getOptional, hheader]
  · rw [ValueMap.getInUnit_of_lookup hinterval]
    simp only [Value.doubleValueInUnit, ops.convertUnit_ms]
    rfl
  · exact ⟨_, getOptional_limit (printedFields_lookup_maxLatency ..) _⟩
  · exact ⟨_, getOptional_limit (printedFields_lookup_maxJitter ..) _⟩
  · rw [ValueMap.containsKey, hname]
    rfl

end

/-! ## The flow of a pair -/

section

variable {tree : ModuleTree Module} {ops : ValueOps}
  {topology : Topology Module} {entry : ValueMap} {application source destination name : String}
  {a b : Node Module} {n n' : Nat}

/-- The shortest path between the nodes exists, with a port towards each next node. -/
def Connected [DecidableEq Module] (tree : ModuleTree Module) (topology : Topology Module)
    (a b : Node Module) : Prop :=
  ∃ fragments paths, shortestFragment tree topology a.module b.module = .ok fragments ∧
    readPaths tree topology fragments = .ok paths

theorem flowName_of_readable (hr : Readable ops entry application source destination name) :
    flowName entry n = .ok (name, n) := by
  rw [flowName, if_pos hr.named, hr.name]
  rfl

theorem makeFlow_ok [DecidableEq Module]
    (hr : Readable ops entry application source destination name)
    {flow : Flow Module} (h : makeFlow tree ops topology entry a b n = .ok (flow, n'))
    (ha : a ∈ topology.nodes) (hb : b ∈ topology.nodes) :
    n' = n ∧ a ∈ topology.devices ∧ b ∈ topology.devices ∧
      flow.startApplication.device = a.module ∧ flow.endDevice = b.module ∧
      tree.getModuleByPath a.module ("." ++ application) = some flow.startApplication.module ∧
      ∃ fragments paths, flowFragments tree topology entry a.module b.module = .ok fragments ∧
        readPaths tree topology fragments = .ok paths := by
  simp only [makeFlow, bind_eq_ok, pure_eq_ok, require_eq_ok, Topology.getDevice_eq_ok, hr.application,
    flowName_of_readable hr, Except.ok.injEq, exists_eq_left', Prod.mk.injEq] at h
  obtain ⟨_, -, _, -, _, -, _, -, _, -, _, -, _, -, da, ⟨hda, hdam⟩, db, ⟨hdb, hdbm⟩, m, hm, fragments,
    hfragments, paths, hpaths, rfl, rfl⟩ := h
  obtain rfl := topology.node_ext (Topology.mem_nodes_of_mem_devices hda) ha hdam
  obtain rfl := topology.node_ext (Topology.mem_nodes_of_mem_devices hdb) hb hdbm
  exact ⟨rfl, hda, hdb, rfl, rfl, hm, fragments, paths, hfragments, hpaths⟩

theorem makeFlow_of_readable [DecidableEq Module]
    (hr : Readable ops entry application source destination name)
    (ha : a ∈ topology.devices) (hb : b ∈ topology.devices) {m : Module}
    (hm : tree.getModuleByPath a.module ("." ++ application) = some m) {fragments : List Value}
    {paths : List (PathFragment Module)}
    (hfragments : flowFragments tree topology entry a.module b.module = .ok fragments)
    (hpaths : readPaths tree topology fragments = .ok paths) (n : Nat) :
    ∃ flow, makeFlow tree ops topology entry a b n = .ok (flow, n) ∧
      flow.startApplication.device = a.module ∧ flow.endDevice = b.module ∧
      flow.startApplication.module = m := by
  obtain ⟨pcp, hpcp⟩ := hr.pcp
  obtain ⟨gateIndex, hgate⟩ := hr.gateIndex
  obtain ⟨length, hlength⟩ := hr.packetLength
  obtain ⟨header, hheader⟩ := hr.headerSize
  obtain ⟨interval, hinterval⟩ := hr.packetInterval
  obtain ⟨latency, hlatency⟩ := hr.maxLatency
  obtain ⟨jitter, hjitter⟩ := hr.maxJitter
  have hda := Topology.getDevice_eq_ok.mpr ⟨ha, rfl⟩
  have hdb := Topology.getDevice_eq_ok.mpr ⟨hb, rfl⟩
  rw [makeFlow, hpcp, hgate, hlength, hheader, hinterval, hlatency, hjitter, hda, hdb,
    hr.application, hfragments]
  simp only [bind, Except.bind, hm, require, flowName_of_readable hr, hpaths]
  exact ⟨_, rfl, rfl, rfl, rfl⟩

/-! ## The pairs that match a printed stream -/

/-- The path of the node contains the name, whatever the case. -/
def Mentions (tree : ModuleTree Module) (name : String) (node : Node Module) : Prop :=
  lower name.toList <:+: lower (tree.getFullPath node.module).toList

instance (name : String) (node : Node Module) : Decidable (Mentions tree name node) :=
  inferInstanceAs (Decidable (_ <:+: _))

theorem mentions_self (node : Node Module) :
    Mentions tree (tree.getName node.module) node := by
  obtain ⟨pre, post, h⟩ := tree.getName_isInfix node.module
  exact ⟨lower pre, lower post, by rw [← h]; simp [lower]⟩

theorem matchesPair_printed {src dst : Module}
    (hr : Readable ops entry application (tree.getName src) (tree.getName dst) name) :
    matchesPair tree entry a b =
      .ok (decide (Mentions tree (tree.getName src) a ∧ Mentions tree (tree.getName dst) b)) := by
  simp only [matchesPair, hr.source, hr.destination, bind, Except.bind,
    setPattern_name (tree.getName_chars _)]
  show Except.ok _ = _
  rw [Except.ok.injEq, Bool.eq_iff_iff, Bool.and_eq_true, matches_name, matches_name,
    decide_eq_true_eq]
  rfl

/-! ## One stream -/

/-- The flow starts and ends where the stream does. -/
def RightFlow (s : TsnStream Module) (flow : Flow Module) : Prop :=
  some flow.startApplication.device = s.sourceModule ∧ some flow.endDevice = s.destinationModule ∧
    some flow.startApplication.module = s.applicationModule

/--
The stream leads from the application, on the node `a`, to the node `b`. Both are devices, they are
connected, and no other node's path contains the name of one of them.
-/
structure Leads [DecidableEq Module] (tree : ModuleTree Module) (topology : Topology Module) (s : TsnStream Module)
    (application : Module) (a b : Node Module) : Prop where
  applicationModule : s.applicationModule = some application
  sourceModule : s.sourceModule = some a.module
  destinationModule : s.destinationModule = some b.module
  pathFragments : s.pathFragments = []
  printable : Printable s.streamName
  parent : tree.getParentModule application = some a.module
  startDevice : a ∈ topology.devices
  endDevice : b ∈ topology.devices
  source_alone : ∀ node ∈ topology.nodes, Mentions tree (tree.getName a.module) node → node = a
  destination_alone : ∀ node ∈ topology.nodes, Mentions tree (tree.getName b.module) node → node = b
  connected : Connected tree topology a b

/-- The ends of the stream can be told apart from all other nodes. -/
def Unambiguous [DecidableEq Module] (tree : ModuleTree Module) (topology : Topology Module)
    (s : TsnStream Module) : Prop :=
  ∃ application a b, Leads tree topology s application a b

/-- A single pair matches iff each name is mentioned by one node. -/
theorem filter_nodePairs_eq {p q : Node Module → Prop} [DecidablePred p] [DecidablePred q]
    (ha : a ∈ topology.nodes) (hb : b ∈ topology.nodes) (hpa : p a) (hqb : q b) :
    (nodePairs topology).filter (fun r => decide (p r.1 ∧ q r.2)) = [(a, b)] ↔
      (∀ node ∈ topology.nodes, p node → node = a) ∧ ∀ node ∈ topology.nodes, q node → node = b := by
  have hmem : ∀ c d, (c, d) ∈ (nodePairs topology).filter (fun r => decide (p r.1 ∧ q r.2)) ↔
      (c ∈ topology.nodes ∧ d ∈ topology.nodes) ∧ p c ∧ q d := by
    intro c d
    rw [List.mem_filter, mem_nodePairs, decide_eq_true_eq]
  constructor
  · intro h
    rw [h] at hmem
    -- another node for one of the names makes another pair
    refine ⟨fun node hn hp => ?_, fun node hn hq => ?_⟩
    · have := (hmem node b).mpr ⟨⟨hn, hb⟩, hp, hqb⟩
      exact (Prod.mk.inj (List.mem_singleton.mp this)).1
    · have := (hmem a node).mpr ⟨⟨ha, hn⟩, hpa, hq⟩
      exact (Prod.mk.inj (List.mem_singleton.mp this)).2
  · rintro ⟨hp, hq⟩
    refine List.perm_singleton.mp ?_
    -- no pair comes twice, so a list with the same members is the same list
    rw [List.perm_ext_iff_of_nodup (nodePairs_nodup.filter _) (List.nodup_singleton _)]
    rintro ⟨c, d⟩
    rw [hmem, List.mem_singleton, Prod.mk.injEq]
    constructor
    · rintro ⟨⟨hc, hd⟩, hpc, hqd⟩
      exact ⟨hp c hc hpc, hq d hd hqd⟩
    · rintro ⟨rfl, rfl⟩
      exact ⟨⟨ha, hb⟩, hpa, hqb⟩

/-- Printed fragments are not what the reader expects: a list of names, not of lists. -/
theorem fragments_of_printed [DecidableEq Module] {s : TsnStream Module} {app src dst : Module} {fragments : List Module}
    {values : List Value} {paths : List (PathFragment Module)}
    (h : flowFragments tree topology (printedFields tree ops s app src dst fragments) a.module
      b.module = .ok values) (hpaths : readPaths tree topology values = .ok paths) :
    fragments = [] ∧ Connected tree topology a b := by
  have hlookup := printedFields_lookup_pathFragments tree ops s app src dst fragments
  rw [flowFragments, ValueMap.containsKey, hlookup] at h
  cases fragments with
  | nil => exact ⟨rfl, values, paths, h, hpaths⟩
  | cons m fragments =>
    rw [if_neg (List.cons_ne_nil m fragments)] at hlookup h
    simp only [Option.isSome_some, if_true, ValueMap.get, hlookup, require, bind, Except.bind,
      Value.arrayValue, Except.ok.injEq] at h
    subst h
    cases hpaths

variable [DecidableEq Module]

/-- What a printed stream that makes one flow says about it. -/
theorem flowsOfPairs_printed {s : TsnStream Module} {app src dst : Module} {fragments : List Module}
    {flow : Flow Module}
    (h : flowsOfPairs tree ops topology (printedFields tree ops s app src dst fragments)
      (nodePairs topology) n = .ok ([flow], n')) :
    n' = n ∧ ∃ a b, (nodePairs topology).filter (fun r => decide
        (Mentions tree (tree.getName src) r.1 ∧ Mentions tree (tree.getName dst) r.2)) = [(a, b)] ∧
      makeFlow tree ops topology (printedFields tree ops s app src dst fragments) a b n =
        .ok (flow, n) := by
  have hr := printedFields_readable tree ops s app src dst fragments
  rw [flowsOfPairs_eq fun r _ => matchesPair_printed hr, makeFlows_eq_singleton] at h
  obtain ⟨a, b, hfilter, hflow⟩ := h
  have hmem : (a, b) ∈ nodePairs topology :=
    List.mem_of_mem_filter (hfilter ▸ List.mem_singleton_self (a, b))
  obtain ⟨ha, hb⟩ := mem_nodePairs.mp hmem
  obtain ⟨rfl, -⟩ := makeFlow_ok hr hflow ha hb
  exact ⟨rfl, a, b, hfilter, hflow⟩

/-- **A stream comes back as its one flow iff its ends are unambiguous.** -/
theorem stream_survives_iff (ops : ValueOps) (s : TsnStream Module) (n : Nat) :
    (∃ entry flow, printStream tree ops s = .ok entry ∧
      flowsOfPairs tree ops topology entry (nodePairs topology) n = .ok ([flow], n) ∧
      RightFlow s flow) ↔ Unambiguous tree topology s := by
  constructor
  · rintro ⟨entry, flow, hprint, hflows, hright⟩
    simp only [printStream, bind_eq_ok, require_eq_ok, ensure_eq_ok, pure_eq_ok] at hprint
    obtain ⟨-, hname, app, happ, src, hsrc, dst, hdst, fragments, hfragments, rfl⟩ := hprint
    obtain ⟨-, a, b, hfilter, hflow⟩ := flowsOfPairs_printed hflows
    have hmem : (a, b) ∈ (nodePairs topology).filter (fun r => decide
        (Mentions tree (tree.getName src) r.1 ∧ Mentions tree (tree.getName dst) r.2)) :=
      hfilter ▸ List.mem_singleton_self (a, b)
    rw [List.mem_filter, mem_nodePairs, decide_eq_true_eq] at hmem
    obtain ⟨⟨ha, hb⟩, hsa, hdb⟩ := hmem
    obtain ⟨-, hda, hdb', hdevice, hend, happ', values, paths, hvalues, hpaths⟩ :=
      makeFlow_ok (printedFields_readable tree ops s app src dst fragments) hflow ha hb
    -- the nodes of the flow are the modules of the stream, so its names are those of the nodes
    obtain ⟨hright1, hright2, hright3⟩ := hright
    rw [hdevice, hsrc, Option.some.injEq] at hright1
    rw [hend, hdst, Option.some.injEq] at hright2
    rw [happ, Option.some.injEq] at hright3
    subst hright1 hright2 hright3
    obtain ⟨rfl, hconnected⟩ := fragments_of_printed hvalues hpaths
    obtain ⟨hsource, hdestination⟩ := (filter_nodePairs_eq ha hb hsa hdb).mp hfilter
    refine ⟨_, a, b, happ, hsrc, hdst, ?_, hname, (tree.getModuleByPath_child _ _).mp happ', hda,
      hdb', hsource, hdestination, hconnected⟩
    cases hp : s.pathFragments with
    | nil => rfl
    | cons m ms =>
      rw [hp, List.mapM_cons] at hfragments
      simp only [bind, Option.bind_eq_some_iff, pure, Option.some.injEq, reduceCtorEq, and_false,
        exists_false] at hfragments
  · rintro ⟨app, a, b, happ, hsrc, hdst, hfragments, hname, hparent, ha, hb, hsource, hdestination,
      values, paths, hvalues, hpaths⟩
    have hr := printedFields_readable tree ops s app a.module b.module []
    have hvalues' : flowFragments tree topology (printedFields tree ops s app a.module b.module [])
        a.module b.module = .ok values := by
      rw [flowFragments, ValueMap.containsKey, printedFields_lookup_pathFragments]
      exact hvalues
    obtain ⟨flow, hflow, hdevice, hend, hm⟩ := makeFlow_of_readable hr ha hb
      ((tree.getModuleByPath_child _ _).mpr hparent) hvalues' hpaths n
    -- only this pair of nodes passes, and a flow can be made for it
    refine ⟨printedFields tree ops s app a.module b.module [], flow,
      printStream_of_modules hname happ hsrc hdst hfragments, ?_, ?_⟩
    · rw [flowsOfPairs_eq fun r _ => matchesPair_printed hr, makeFlows_eq_singleton]
      exact ⟨a, b, (filter_nodePairs_eq (Topology.mem_nodes_of_mem_devices ha)
        (Topology.mem_nodes_of_mem_devices hb) (mentions_self a) (mentions_self b)).mpr
        ⟨hsource, hdestination⟩, hflow⟩
    · exact ⟨by rw [hdevice, hsrc], by rw [hend, hdst], by rw [hm, happ]⟩

/-! ## All streams -/

/-- The flows of the printed streams, one list for each. -/
theorem printed_flows_iff (ops : ValueOps) (n : Nat) : ∀ (streams : List (TsnStream Module)),
    (∃ configuration perEntry, printStreams tree ops streams = .ok configuration ∧
      collectFlows tree ops topology configuration n = .ok perEntry ∧
      List.Forall₂ (fun s flows => ∃ flow, flows = [flow] ∧ RightFlow s flow) streams perEntry) ↔
    ∀ s ∈ streams, Unambiguous tree topology s
  | [] => by
    simp only [printStreams, pure_eq_ok, List.not_mem_nil, false_imp_iff, implies_true, iff_true]
    exact ⟨[], [], rfl, rfl, .nil⟩
  | s :: streams => by
    rw [List.forall_mem_cons, ← stream_survives_iff ops s n,
      ← printed_flows_iff ops n streams]
    constructor
    · rintro ⟨configuration, perEntry, hprint, hcollect, hall⟩
      simp only [printStreams, bind_eq_ok, pure_eq_ok] at hprint
      obtain ⟨entry, hentry, entries, hentries, rfl⟩ := hprint
      simp only [collectFlows, Value.mapValue, bind_eq_ok, pure_eq_ok, Except.ok.injEq,
        exists_eq_left'] at hcollect
      obtain ⟨⟨flows, n'⟩, hflows, rest, hrest, rfl⟩ := hcollect
      rw [List.forall₂_cons] at hall
      obtain ⟨⟨flow, rfl, hright⟩, hall⟩ := hall
      have hindex : n' = n := by
        have hprinted := hentry
        simp only [printStream, bind_eq_ok, require_eq_ok, ensure_eq_ok, pure_eq_ok] at hprinted
        obtain ⟨-, -, app, -, src, -, dst, -, fragments, -, rfl⟩ := hprinted
        exact (flowsOfPairs_printed hflows).1
      subst hindex
      exact ⟨⟨entry, flow, hentry, hflows, hright⟩, entries, rest, hentries, hrest, hall⟩
    · rintro ⟨⟨entry, flow, hentry, hflows, hright⟩, entries, rest, hentries, hrest, hall⟩
      refine ⟨.map entry :: entries, [flow] :: rest, ?_, ?_, .cons ⟨flow, rfl, hright⟩ hall⟩
      · simp only [printStreams, bind_eq_ok, pure_eq_ok]
        exact ⟨entry, hentry, entries, hentries, rfl⟩
      · simp only [collectFlows, Value.mapValue, bind_eq_ok, pure_eq_ok, Except.ok.injEq,
          exists_eq_left']
        exact ⟨_, hflows, rest, hrest, rfl⟩

/--
The configuration can be read back, and every stream of it makes exactly one flow, which leads from
the application and the source module of the stream to its destination module.
-/
def EndpointsSurvive (tree : ModuleTree Module) (ops : ValueOps) (topology : Topology Module)
    (order : PcpSort Module) (streams : List (TsnStream Module)) : Prop :=
  ∃ configuration perEntry flows, getSchedulerConfiguration tree ops streams = .ok configuration ∧
    collectFlows tree ops topology configuration 0 = .ok perEntry ∧
    addFlows tree ops topology order configuration = .ok flows ∧ flows.Perm perEntry.flatten ∧
    List.Forall₂ (fun s flows => ∃ flow, flows = [flow] ∧ RightFlow s flow)
      (emittedStreams streams) perEntry

theorem EndpointsSurvive.unambiguous {order : PcpSort Module} {streams : List (TsnStream Module)}
    (h : EndpointsSurvive tree ops topology order streams) :
    ∀ s ∈ emittedStreams streams, Unambiguous tree topology s := by
  obtain ⟨configuration, perEntry, _, hprint, hcollect, -, -, hall⟩ := h
  exact (printed_flows_iff ops 0 _).mp ⟨configuration, perEntry, hprint, hcollect, hall⟩

/-- **The ends of all streams survive iff they are unambiguous.** -/
theorem endpoints_survive_iff (order : PcpSort Module) (streams : List (TsnStream Module)) :
    EndpointsSurvive tree ops topology order streams ↔
      ∀ s ∈ emittedStreams streams, Unambiguous tree topology s := by
  constructor
  · exact EndpointsSurvive.unambiguous
  · rw [← printed_flows_iff ops 0]
    rintro ⟨configuration, perEntry, hprint, hcollect, hall⟩
    exact ⟨configuration, perEntry, order.sort perEntry.flatten, hprint, hcollect,
      addFlows_perm.mpr ⟨perEntry, hcollect, rfl⟩, order.sort_perm _, hall⟩

end

/-- A stream from the network card of the car to its first device. -/
def deviceLine : ValueMap :=
  [("source", .string "tsnNic"), ("destination", .string "tsnDevice[0]"), ("pcp", .int 4 ""),
    ("gateIndex", .int 4 ""), ("packetLength", .int 100 "B"), ("packetInterval", .int 10 "ms"),
    ("application", .string "app[0]")]

def deviceStream : TsnStream (Fin 14) where
  streamName := "tsnNic-PCP4-tsnDevice"
  pcp := 4
  gateIndex := 4
  applicationModule := some 3
  sourceModule := some 2
  externalSourceModule := none
  destinationModule := some 4
  packetSize := 800
  packetInterval := 10
  maxLatency := 0
  maxJitter := 0
  pathFragments := []
  lastTimePacketArrived := List.replicate TsnStream.queueSize 0
  startTime := 0
  numberPackets := 0
  originalPacketSize := 800

/-- The name of a device without its index stands for all devices of the car. -/
theorem indexed_destination_ambiguous :
    TsnStream.ofConfigLine carNetwork.tree basicOps deviceLine 1 none = .ok deviceStream ∧
      ¬ EndpointsSurvive carNetwork.tree basicOps carTopology stableSort [deviceStream] := by
  refine ⟨by decide +kernel, fun h => ?_⟩
  obtain ⟨_, _, b, hb⟩ := h.unambiguous deviceStream (by decide +kernel)
  have hname : carNetwork.tree.getName b.module = "tsnDevice" := by
    rw [← Option.some.inj hb.destinationModule]
    rfl
  have halone := hb.destination_alone
  rw [hname] at halone
  have h4 := halone _ (List.mem_cons_of_mem _ List.mem_cons_self) (by decide +kernel)
  have h5 := halone _ (List.mem_cons_of_mem _ (List.mem_cons_of_mem _ List.mem_cons_self))
    (by decide +kernel)
  exact absurd (congrArg Node.module (h4.trans h5.symm)) (by decide)

end CooperativeTsn
