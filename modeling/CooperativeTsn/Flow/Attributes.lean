import CooperativeTsn.Flow.Paths
import CooperativeTsn.Infra.Rounding

/-!
# Attributes of a stream through the configuration text

An entry of the configuration is read twice, by `addFlows` and by the constructor of a stream. The
stream is printed, and the text is read by both again. The readers take the name from different
keys, limits that are not positive are not printed, and numbers are printed with six digits.

* `makeFlow_reads` — the attributes of a flow, as its entry gives them
* `sameAttributes_iff` — when a flow of the printed entry has the attributes of a flow of the entry
* `exists_flows_printed` — when the printed entry makes flows
* `prints_again_iff` — when the stream of the printed entry prints as the same text
* `attributes_survive_iff` — when all attributes survive
-/

namespace CooperativeTsn

open Infra.Runs Infra.Rounding TsnStream

variable {Module : Type}

/-! ## What a flow reads -/

/-- The attributes of a flow, as its entry gives them. -/
structure FlowReads (ops : ValueOps) (entry : ValueMap) (flow : Flow Module) : Prop where
  name : entry.containsKey "name" = true → entry.getString "name" = .ok flow.name
  pcp : entry.getInt "pcp" = .ok flow.startApplication.pcp
  gateIndex : entry.getInt "gateIndex" = .ok flow.gateIndex
  packetLength : ∃ x, entry.getInUnit ops "packetLength" "b" = .ok x ∧
    flow.startApplication.packetLength = truncateBits x
  packetInterval : ∃ x, entry.getInUnit ops "packetInterval" "s" = .ok x ∧
    flow.startApplication.packetInterval = toSimTime x
  maxLatency : ∃ x, entry.getOptional "maxLatency" (-1) (·.doubleValueInUnit ops "s") = .ok x ∧
    flow.startApplication.maxLatency = toSimTime x
  maxJitter : ∃ x, entry.getOptional "maxJitter" 0 (·.doubleValueInUnit ops "s") = .ok x ∧
    flow.startApplication.maxJitter = toSimTime x

section

variable [DecidableEq Module] {tree : ModuleTree Module} {ops : ValueOps}
  {topology : Topology Module} {entry : ValueMap} {flow : Flow Module}

theorem makeFlow_reads {a b : Node Module} {n n' : Nat}
    (h : makeFlow tree ops topology entry a b n = .ok (flow, n')) : FlowReads ops entry flow := by
  simp only [makeFlow, bind_eq_ok, pure_eq_ok, Prod.mk.injEq] at h
  obtain ⟨pcp, hpcp, gateIndex, hgate, length, hlength, _, -, interval, hinterval, latency,
    hlatency, jitter, hjitter, _, -, _, -, _, -, _, -, ⟨name, _⟩, hname, _, -, _, -, rfl, -⟩ := h
  refine ⟨fun hkey => ?_, hpcp, hgate, ⟨length, hlength, rfl⟩, ⟨interval, hinterval, rfl⟩,
    ⟨latency, hlatency, rfl⟩, ⟨jitter, hjitter, rfl⟩⟩
  rw [flowName, if_pos hkey] at hname
  simp only [bind_eq_ok, pure_eq_ok, Prod.mk.injEq] at hname
  obtain ⟨_, hname, rfl, -⟩ := hname
  exact hname

theorem flowsOfPairs_reads {pairs : List (Node Module × Node Module)} {flows : List (Flow Module)}
    {n n' : Nat} (h : flowsOfPairs tree ops topology entry pairs n = .ok (flows, n'))
    (hflow : flow ∈ flows) : FlowReads ops entry flow := by
  obtain ⟨a, b, k, k', -, -, hmade⟩ := exists_makeFlow_of_mem h hflow
  exact makeFlow_reads hmade

end

/-- The attributes agree; a flow without a name of its own may have any. -/
structure SameAttributes (entry : ValueMap) (flow flow' : Flow Module) : Prop where
  name : entry.containsKey "name" = true → flow'.name = flow.name
  pcp : flow'.startApplication.pcp = flow.startApplication.pcp
  gateIndex : flow'.gateIndex = flow.gateIndex
  packetLength : flow'.startApplication.packetLength = flow.startApplication.packetLength
  packetInterval : flow'.startApplication.packetInterval = flow.startApplication.packetInterval
  maxLatency : flow'.startApplication.maxLatency = flow.startApplication.maxLatency
  maxJitter : flow'.startApplication.maxJitter = flow.startApplication.maxJitter

/-! ## What is printed -/

/-- What `addFlows` reads for a limit, in seconds: one that is not positive is not printed. -/
def printedLimit (default limit : Rat) : Rat :=
  if limit > 0 then toDigits 10 6 limit / 1000 else default

theorem truncateBits_intCast (bits : Int) : truncateBits bits = bits := by
  rw [truncateBits, Rat.num_intCast, Rat.den_intCast, Int.ofNat_one, Int.tdiv_one]

/-- The attributes of a flow of a printed stream. -/
structure PrintedReads (s : TsnStream Module) (flow : Flow Module) : Prop where
  name : flow.name = s.streamName
  pcp : flow.startApplication.pcp = s.pcp
  gateIndex : flow.gateIndex = s.gateIndex
  packetLength : flow.startApplication.packetLength = s.packetSize
  packetInterval :
    flow.startApplication.packetInterval = toSimTime (toDigits 10 6 s.packetInterval / 1000)
  maxLatency : flow.startApplication.maxLatency = toSimTime (printedLimit (-1) s.maxLatency)
  maxJitter : flow.startApplication.maxJitter = toSimTime (printedLimit 0 s.maxJitter)

section

variable {tree : ModuleTree Module} {ops : ValueOps} {s : TsnStream Module}
  {app src dst : Module} {fragments : List Module}

theorem optional_printed (hdigits : ∀ x, ops.printedDouble x = toDigits 10 6 x) {fields : ValueMap}
    {key : String} {default limit x : Rat}
    (hlookup : fields.lookup key =
      if limit > 0 then some (.double (ops.printedDouble limit) "ms") else none)
    (hx : fields.getOptional key default (·.doubleValueInUnit ops "s") = .ok x) :
    x = printedLimit default limit := by
  rw [getOptional_limit hlookup, hdigits] at hx
  exact (Except.ok.inj hx).symm

theorem FlowReads.printed (hdigits : ∀ x, ops.printedDouble x = toDigits 10 6 x) {flow : Flow Module}
    (h : FlowReads ops (printedFields tree ops s app src dst fragments) flow) :
    PrintedReads s flow := by
  obtain ⟨-, -, hgate, hname, hinterval, hlength, hpcp, -, -⟩ :=
    printedFields_lookup tree ops s app src dst fragments
  have hkey : (printedFields tree ops s app src dst fragments).containsKey "name" = true := by
    rw [ValueMap.containsKey, hname]
    rfl
  obtain ⟨length, hlength', hflowLength⟩ := h.packetLength
  obtain ⟨interval, hinterval', hflowInterval⟩ := h.packetInterval
  obtain ⟨latency, hlatency, hflowLatency⟩ := h.maxLatency
  obtain ⟨jitter, hjitter, hflowJitter⟩ := h.maxJitter
  rw [ValueMap.getInUnit_of_lookup hlength, bitsValue_inUnit, Except.ok.injEq] at hlength'
  have hseconds : toDigits 10 6 s.packetInterval / 1000 = interval := by
    rw [ValueMap.getInUnit_of_lookup hinterval, hdigits] at hinterval'
    simp only [Value.doubleValueInUnit, ops.convertUnit_ms] at hinterval'
    exact Except.ok.inj hinterval'
  refine ⟨?_, ?_, ?_, ?_, ?_, ?_, ?_⟩
  · exact (Except.ok.inj ((ValueMap.getString_of_lookup hname).symm.trans (h.name hkey))).symm
  · exact (Except.ok.inj ((ValueMap.getInt_of_lookup hpcp).symm.trans h.pcp)).symm
  · exact (Except.ok.inj ((ValueMap.getInt_of_lookup hgate).symm.trans h.gateIndex)).symm
  · rw [hflowLength, ← hlength', truncateBits_intCast]
  · rw [hflowInterval, hseconds]
  · rw [hflowLatency, optional_printed hdigits
      (printedFields_lookup_maxLatency tree ops s app src dst fragments) hlatency]
  · rw [hflowJitter, optional_printed hdigits
      (printedFields_lookup_maxJitter tree ops s app src dst fragments) hjitter]

end

/-! ## When the attributes agree -/

section

variable {ops : ValueOps} {entry : ValueMap}

/-- The interval, printed in milliseconds with six digits, is the one that `addFlows` has read. -/
def IntervalSurvives (ops : ValueOps) (entry : ValueMap) : Prop :=
  ∀ x y, entry.getInUnit ops "packetInterval" "ms" = .ok x →
    entry.getInUnit ops "packetInterval" "s" = .ok y →
      toSimTime (toDigits 10 6 x / 1000) = toSimTime y

/-- The limit that is printed, if any, is the one that `addFlows` has read. -/
def LimitSurvives (ops : ValueOps) (entry : ValueMap) (key : String) (default : Rat) : Prop :=
  ∀ x y, entry.getOptional key 0 (·.doubleValueInUnit ops "ms") = .ok x →
    entry.getOptional key default (·.doubleValueInUnit ops "s") = .ok y →
      toSimTime (printedLimit default x) = toSimTime y

theorem intervalSurvives_iff {x y : Rat}
    (hx : entry.getInUnit ops "packetInterval" "ms" = .ok x)
    (hy : entry.getInUnit ops "packetInterval" "s" = .ok y) :
    IntervalSurvives ops entry ↔ toSimTime (toDigits 10 6 x / 1000) = toSimTime y := by
  constructor
  · exact fun h => h x y hx hy
  · intro h x' y' hx' hy'
    rwa [← Except.ok.inj (hx.symm.trans hx'), ← Except.ok.inj (hy.symm.trans hy')]

theorem limitSurvives_iff {key : String} {default x y : Rat}
    (hx : entry.getOptional key 0 (·.doubleValueInUnit ops "ms") = .ok x)
    (hy : entry.getOptional key default (·.doubleValueInUnit ops "s") = .ok y) :
    LimitSurvives ops entry key default ↔ toSimTime (printedLimit default x) = toSimTime y := by
  constructor
  · exact fun h => h x y hx hy
  · intro h x' y' hx' hy'
    rwa [← Except.ok.inj (hx.symm.trans hx'), ← Except.ok.inj (hy.symm.trans hy')]

/-- An interval of at most six digits survives. -/
theorem intervalSurvives_of_decimal {x : Rat}
    (hx : entry.getInUnit ops "packetInterval" "ms" = .ok x)
    (hy : entry.getInUnit ops "packetInterval" "s" = .ok (x / 1000)) (h : HasDigits 10 6 x) :
    IntervalSurvives ops entry := by
  rw [intervalSurvives_iff hx hy, (toDigits_eq_self_iff (by decide)).mpr h]

section

variable {key : String} {default x : Rat}

/-- So does a positive limit. -/
theorem limitSurvives_of_decimal
    (hx : entry.getOptional key 0 (·.doubleValueInUnit ops "ms") = .ok x)
    (hy : entry.getOptional key default (·.doubleValueInUnit ops "s") = .ok (x / 1000))
    (hpos : x > 0) (h : HasDigits 10 6 x) : LimitSurvives ops entry key default := by
  rw [limitSurvives_iff hx hy, printedLimit, if_pos hpos,
    (toDigits_eq_self_iff (by decide)).mpr h]

/-- A missing limit comes back as a missing limit. -/
theorem limitSurvives_of_missing (h : entry.lookup key = none) :
    LimitSurvives ops entry key default := by
  have hx : entry.getOptional key (0 : Rat) (·.doubleValueInUnit ops "ms") = .ok 0 := by
    rw [ValueMap.getOptional, h]
  have hy : entry.getOptional key default (·.doubleValueInUnit ops "s") = .ok default := by
    rw [ValueMap.getOptional, h]
  rw [limitSurvives_iff hx hy, printedLimit, if_neg (lt_irrefl _)]

/-- A limit that is not positive comes back as the default. -/
theorem limitSurvives_iff_of_nonpos {y : Rat}
    (hx : entry.getOptional key 0 (·.doubleValueInUnit ops "ms") = .ok x)
    (hy : entry.getOptional key default (·.doubleValueInUnit ops "s") = .ok y) (hneg : x ≤ 0) :
    LimitSurvives ops entry key default ↔ toSimTime default = toSimTime y := by
  rw [limitSurvives_iff hx hy, printedLimit, if_neg (not_lt.mpr hneg)]

end

variable {tree : ModuleTree Module} {externalSourceModule : Option Module} {s : TsnStream Module}
  {flow flow' : Flow Module}

/-- **When the attributes agree**: only the name and the times can differ. -/
theorem sameAttributes_iff {parent : Module}
    (hbuilt : ofConfigLine tree ops entry parent externalSourceModule = .ok s)
    (hflow : FlowReads ops entry flow) (hflow' : PrintedReads s flow') :
    SameAttributes entry flow flow' ↔
      (entry.containsKey "name" = true → entry.getString "name" = .ok s.streamName) ∧
        IntervalSurvives ops entry ∧ LimitSurvives ops entry "maxLatency" (-1) ∧
          LimitSurvives ops entry "maxJitter" 0 := by
  have hbasic := ofConfigLine_ok hbuilt
  have hfields := ofConfigLine_fields hbuilt
  obtain ⟨length, hlength, hflowLength⟩ := hflow.packetLength
  obtain ⟨interval, hinterval, hflowInterval⟩ := hflow.packetInterval
  obtain ⟨latency, hlatency, hflowLatency⟩ := hflow.maxLatency
  obtain ⟨jitter, hjitter, hflowJitter⟩ := hflow.maxJitter
  obtain ⟨length', hlength', hsize, -⟩ := hfields.packetSize
  have hname : (entry.containsKey "name" = true → flow'.name = flow.name) ↔
      (entry.containsKey "name" = true → entry.getString "name" = .ok s.streamName) := by
    refine imp_congr_right fun hkey => ?_
    rw [hflow.name hkey, hflow'.name, Except.ok.injEq, eq_comm]
  rw [intervalSurvives_iff hfields.packetInterval hinterval,
    limitSurvives_iff hfields.maxLatency hlatency, limitSurvives_iff hfields.maxJitter hjitter,
    ← hname, ← hflowInterval, ← hflowLatency, ← hflowJitter, ← hflow'.packetInterval,
    ← hflow'.maxLatency, ← hflow'.maxJitter]
  constructor
  · exact fun h => ⟨h.name, h.packetInterval, h.maxLatency, h.maxJitter⟩
  · rintro ⟨hsameName, hsameInterval, hsameLatency, hsameJitter⟩
    refine ⟨hsameName, ?_, ?_, ?_, hsameInterval, hsameLatency, hsameJitter⟩
    · rw [hflow'.pcp]
      exact Except.ok.inj (hbasic.pcp.symm.trans hflow.pcp)
    · rw [hflow'.gateIndex]
      exact Except.ok.inj (hfields.gateIndex.symm.trans hflow.gateIndex)
    · rw [hflow'.packetLength, hsize, hflowLength,
        Except.ok.inj (hlength'.symm.trans hlength)]

end

/-! ## The flows of the printed entry -/

/-- A flow can be made between the nodes, from the application on the first of them. -/
structure Flowable [DecidableEq Module] (tree : ModuleTree Module) (topology : Topology Module)
    (application : String) (a b : Node Module) : Prop where
  startDevice : a ∈ topology.devices
  endDevice : b ∈ topology.devices
  application : ∃ m, tree.getModuleByPath a.module ("." ++ application) = some m
  connected : Connected tree topology a b

/-- Nodes whose paths contain the printed names. -/
def MentionedPair (tree : ModuleTree Module) (topology : Topology Module) (src dst : Module)
    (a b : Node Module) : Prop :=
  (a ∈ topology.nodes ∧ b ∈ topology.nodes) ∧
    Mentions tree (tree.getName src) a ∧ Mentions tree (tree.getName dst) b

section

variable [DecidableEq Module] {tree : ModuleTree Module} {ops : ValueOps}
  {topology : Topology Module} {s : TsnStream Module} {app src dst : Module}

omit [DecidableEq Module] in
theorem matchesPair_printed_iff {a b : Node Module} :
    matchesPair tree (printedFields tree ops s app src dst []) a b = .ok true ↔
      Mentions tree (tree.getName src) a ∧ Mentions tree (tree.getName dst) b := by
  rw [matchesPair_printed (printedFields_readable tree ops s app src dst []), Except.ok.injEq,
    decide_eq_true_eq]

theorem makeFlow_printed_iff {a b : Node Module} (ha : a ∈ topology.nodes)
    (hb : b ∈ topology.nodes) (n : Nat) :
    (∃ flow, makeFlow tree ops topology (printedFields tree ops s app src dst []) a b n =
      .ok (flow, n)) ↔ Flowable tree topology (tree.getFullName app) a b := by
  have hr := printedFields_readable tree ops s app src dst []
  constructor
  · rintro ⟨flow, hflow⟩
    obtain ⟨-, hda, hdb, -, -, happ, values, paths, hvalues, hpaths⟩ := makeFlow_ok hr hflow ha hb
    exact ⟨hda, hdb, ⟨_, happ⟩, (fragments_of_printed hvalues hpaths).2⟩
  · rintro ⟨hda, hdb, ⟨m, hm⟩, values, paths, hvalues, hpaths⟩
    have hvalues' : flowFragments tree topology (printedFields tree ops s app src dst [])
        a.module b.module = .ok values := by
      rw [flowFragments, ValueMap.containsKey, printedFields_lookup_pathFragments]
      exact hvalues
    obtain ⟨flow, hflow, -⟩ := makeFlow_of_readable hr hda hdb hm hvalues' hpaths n
    exact ⟨flow, hflow⟩

/-- **When the printed entry makes flows.** -/
theorem exists_flows_printed (n : Nat) :
    (∃ flows n', flowsOfPairs tree ops topology (printedFields tree ops s app src dst [])
        (nodePairs topology) n = .ok (flows, n') ∧ flows ≠ []) ↔
      (∃ a b, MentionedPair tree topology src dst a b) ∧
        ∀ a b, MentionedPair tree topology src dst a b →
          Flowable tree topology (tree.getFullName app) a b := by
  have hr := printedFields_readable tree ops s app src dst []
  constructor
  · rintro ⟨flows, n', hflows, hne⟩
    obtain ⟨flow, hflow⟩ := List.exists_mem_of_ne_nil flows hne
    obtain ⟨a, b, _, _, hpair, hmatch, -⟩ := exists_makeFlow_of_mem hflows hflow
    refine ⟨⟨a, b, mem_nodePairs.mp hpair, matchesPair_printed_iff.mp hmatch⟩, ?_⟩
    rintro c d ⟨hnodes, hmentions⟩
    obtain ⟨flow, -, k, k', hmade⟩ := exists_flow_of_matchesPair
      (matchesPair_printed_iff.mpr hmentions) hflows (mem_nodePairs.mpr hnodes)
    obtain rfl := (makeFlow_ok hr hmade hnodes.1 hnodes.2).1
    exact (makeFlow_printed_iff hnodes.1 hnodes.2 _).mp ⟨flow, hmade⟩
  · rintro ⟨⟨a, b, hnodes, hmentions⟩, hall⟩
    -- a flow with a name takes no number, so every pair can be looked at on its own
    have hmade : ∀ p ∈ (nodePairs topology).filter (fun r => decide
        (Mentions tree (tree.getName src) r.1 ∧ Mentions tree (tree.getName dst) r.2)),
        ∃ flow, makeFlow tree ops topology (printedFields tree ops s app src dst []) p.1 p.2 n =
          .ok (flow, n) := by
      intro p hp
      obtain ⟨hpair, hp⟩ := List.mem_filter.mp hp
      have hnodes := mem_nodePairs.mp hpair
      exact (makeFlow_printed_iff hnodes.1 hnodes.2 n).mpr
        (hall p.1 p.2 ⟨hnodes, of_decide_eq_true hp⟩)
    -- at least one pair matches, so there is a flow
    obtain ⟨flows, hflows, hlength⟩ := exists_makeFlows n hmade
    rw [flowsOfPairs_eq fun r _ => matchesPair_printed hr]
    refine ⟨flows, n, hflows, List.ne_nil_of_length_pos ?_⟩
    rw [hlength]
    exact List.length_pos_of_mem (List.mem_filter.mpr
      ⟨mem_nodePairs.mpr hnodes, decide_eq_true hmentions⟩)

end

/-! ## The stream of the printed entry -/

/-- The printed names lead to modules below the parent that print as the same names. -/
structure LeadsBack (tree : ModuleTree Module) (parent src dst app src' dst' app' : Module) :
    Prop where
  source : tree.findModuleByPath (tree.getFullPath parent ++ "." ++ tree.getName src) = some src'
  source_name : tree.getName src' = tree.getName src
  destination :
    tree.findModuleByPath (tree.getFullPath parent ++ "." ++ tree.getName dst) = some dst'
  destination_name : tree.getName dst' = tree.getName dst
  application : findApplication tree parent src' (tree.getFullName app) = .ok (some app')
  application_name : tree.getFullName app' = tree.getFullName app

section

variable {tree : ModuleTree Module} {ops : ValueOps} {parent src dst app src' dst' app' : Module}
  {externalSourceModule : Option Module} {s : TsnStream Module} {pcp : Int}

theorem LeadsBack.defaultStreamName (h : LeadsBack tree parent src dst app src' dst' app') :
    defaultStreamName tree externalSourceModule src' pcp dst' =
      defaultStreamName tree externalSourceModule src pcp dst := by
  unfold TsnStream.defaultStreamName
  rw [h.source_name, h.destination_name]

/-- A limit of a printed stream, in milliseconds. -/
def keptLimit (limit : Rat) : Rat := if limit > 0 then toDigits 10 6 limit else 0

theorem optional_kept (hdigits : ∀ x, ops.printedDouble x = toDigits 10 6 x) {fields : ValueMap}
    {key : String} {limit : Rat}
    (hlookup : fields.lookup key =
      if limit > 0 then some (.double (ops.printedDouble limit) "ms") else none) :
    fields.getOptional key 0 (·.doubleValueInUnit ops "ms") = .ok (keptLimit limit) := by
  rw [ValueMap.getOptional, hlookup, keptLimit, ← hdigits]
  by_cases hpos : limit > 0
  · rw [if_pos hpos, if_pos hpos]
    simp only [Value.doubleValueInUnit, ops.convertUnit_self]
    rfl
  · rw [if_neg hpos, if_neg hpos]

theorem limitField_kept (hdigits : ∀ x, ops.printedDouble x = toDigits 10 6 x) (key : String)
    (limit : Rat) : limitField ops key (keptLimit limit) = limitField ops key limit := by
  rw [limitField, limitField, keptLimit]
  by_cases hpos : limit > 0
  · rw [if_pos hpos, if_pos (toDigits_pos (by decide) hpos), if_pos hpos, hdigits, hdigits,
      toDigits_toDigits (by decide)]
  · rw [if_neg hpos, if_neg (lt_irrefl _), if_neg hpos]

theorem printedFields_lookup_streamName :
    (printedFields tree ops s app src dst []).lookup "streamName" = none := by
  simp [printedFields, List.lookup_append, List.lookup_cons, limitField_lookup_of_ne,
    fragmentsField_lookup_of_ne]

/-- What the stream of the printed entry keeps. -/
structure Rebuilt (s s' : TsnStream Module) (src' dst' app' : Module) : Prop where
  streamName : s'.streamName = s.streamName
  pcp : s'.pcp = s.pcp
  gateIndex : s'.gateIndex = s.gateIndex
  applicationModule : s'.applicationModule = some app'
  sourceModule : s'.sourceModule = some src'
  destinationModule : s'.destinationModule = some dst'
  packetSize : s'.packetSize = s.packetSize
  packetInterval : s'.packetInterval = toDigits 10 6 s.packetInterval
  maxLatency : s'.maxLatency = keptLimit s.maxLatency
  maxJitter : s'.maxJitter = keptLimit s.maxJitter
  pathFragments : s'.pathFragments = []
  startTime : s'.startTime = 0

/-- The same text again. -/
theorem Rebuilt.printStream (hdigits : ∀ x, ops.printedDouble x = toDigits 10 6 x)
    {s' : TsnStream Module} (h : Rebuilt s s' src' dst' app')
    (hback : LeadsBack tree parent src dst app src' dst' app') (hname : Printable s.streamName)
    (hstart : s.startTime = 0) :
    printStream tree ops s' = .ok (printedFields tree ops s app src dst []) := by
  rw [printStream_of_modules (h.streamName ▸ hname) h.applicationModule h.sourceModule
    h.destinationModule h.pathFragments, Except.ok.injEq]
  simp only [printedFields, h.streamName, h.pcp, h.gateIndex, h.packetSize, h.packetInterval,
    h.maxLatency, h.maxJitter, h.startTime, hstart, hback.source_name, hback.destination_name,
    hback.application_name, limitField_kept hdigits, hdigits, toDigits_toDigits (by decide : 0 < 6)]

/-- The numbers of a stream that the constructor checks. -/
structure InRange (s : TsnStream Module) : Prop where
  pcp : 0 ≤ s.pcp ∧ s.pcp ≤ 7
  gateIndex : 0 ≤ s.gateIndex
  packetSize : 0 < s.packetSize

/-- The constructor accepts the printed entry. -/
theorem ofConfigLine_printed (hdigits : ∀ x, ops.printedDouble x = toDigits 10 6 x)
    (hrange : InRange s) (hback : LeadsBack tree parent src dst app src' dst' app')
    (hdefault : defaultStreamName tree externalSourceModule src s.pcp dst = .ok s.streamName) :
    ∃ s', ofConfigLine tree ops (printedFields tree ops s app src dst []) parent
      externalSourceModule = .ok s' ∧ Rebuilt s s' src' dst' app' := by
  obtain ⟨happ, hdest, hgate, -, hinterval, hlength, hpcp, hsource, -⟩ :=
    printedFields_lookup tree ops s app src dst []
  have hinterval' : (printedFields tree ops s app src dst []).getInUnit ops "packetInterval" "ms" =
      .ok (toDigits 10 6 s.packetInterval) := by
    rw [ValueMap.getInUnit_of_lookup hinterval, hdigits]
    simp only [Value.doubleValueInUnit, ops.convertUnit_self]
    rfl
  have hlength' : (printedFields tree ops s app src dst []).getInUnit ops "packetLength" "b" =
      .ok (s.packetSize : Rat) := by
    rw [ValueMap.getInUnit_of_lookup hlength, bitsValue_inUnit]
  have hname : orDefault "" (TsnStream.defaultStreamName tree externalSourceModule src' s.pcp
      dst') = .ok s.streamName := by
    rw [orDefault, if_pos rfl, hback.defaultStreamName, hdefault]
  have hsize : 0 < truncateBits (s.packetSize : Rat) := by
    rw [truncateBits_intCast]
    exact hrange.packetSize
  have hlatency := optional_kept hdigits
    (printedFields_lookup_maxLatency tree ops s app src dst [])
  have hjitter := optional_kept hdigits
    (printedFields_lookup_maxJitter tree ops s app src dst [])
  simp only [ofConfigLine, bind_eq_ok, require_eq_ok, ensure_eq_ok, pure_eq_ok,
    tree.getModuleByPath_absolute]
  refine ⟨_, ⟨_, ValueMap.getString_of_lookup hsource, src', hback.source, _,
    ValueMap.getString_of_lookup hdest, dst', hback.destination, s.pcp,
    ValueMap.getInt_of_lookup hpcp, (), hrange.pcp, s.gateIndex, ValueMap.getInt_of_lookup hgate,
    (), hrange.gateIndex, _, hlength', (), hsize, _, hinterval', "", ?_, some app', ?_, _,
    hlatency, _, hjitter, [], ?_, s.streamName, hname, rfl⟩,
    ⟨rfl, rfl, rfl, rfl, rfl, rfl, truncateBits_intCast _, rfl, rfl, rfl, rfl, rfl⟩⟩
  · rw [ValueMap.getOptional, printedFields_lookup_streamName]
  · rw [ValueMap.getOptional, happ]
    exact hback.application
  · rw [ValueMap.getOptional, printedFields_lookup_pathFragments]
    rfl

/-- A stream of the printed entry that prints as the same text leads back. -/
theorem leadsBack_of_printed {s' : TsnStream Module}
    (hs' : ofConfigLine tree ops (printedFields tree ops s app src dst []) parent
      externalSourceModule = .ok s')
    (hprint : printStream tree ops s' = .ok (printedFields tree ops s app src dst [])) :
    ∃ src' dst' app', LeadsBack tree parent src dst app src' dst' app' ∧
      defaultStreamName tree externalSourceModule src s.pcp dst = .ok s.streamName := by
  obtain ⟨happ, hdest, -, hname, -, -, hpcp, hsource, -⟩ :=
    printedFields_lookup tree ops s app src dst []
  have hbasic := ofConfigLine_ok hs'
  obtain ⟨source, src', htext, hsrc', hfoundSource⟩ := hbasic.source
  obtain ⟨destination, dst', htext', hdst', hfoundDest⟩ := hbasic.destination
  obtain rfl := Except.ok.inj ((ValueMap.getString_of_lookup hsource).symm.trans htext)
  obtain rfl := Except.ok.inj ((ValueMap.getString_of_lookup hdest).symm.trans htext')
  have hpcp' := Except.ok.inj ((ValueMap.getInt_of_lookup hpcp).symm.trans hbasic.pcp)
  obtain ⟨sourceModule, hsm, hfoundApp⟩ := (ofConfigLine_rest hs').applicationModule
  rw [hsrc', Option.some.injEq] at hsm
  rw [ValueMap.getOptional, happ, ← hsm] at hfoundApp
  obtain ⟨name, sourceModule', destinationModule', hread, hsm', hdm', hdefault⟩ :=
    (ofConfigLine_fields hs').streamName
  rw [ValueMap.getOptional, printedFields_lookup_streamName, Except.ok.injEq] at hread
  rw [hsrc', Option.some.injEq] at hsm'
  rw [hdst', Option.some.injEq] at hdm'
  subst hread hsm' hdm'
  rw [orDefault, if_pos rfl, ← hpcp'] at hdefault
  -- the two texts agree field by field
  simp only [printStream, bind_eq_ok, require_eq_ok, ensure_eq_ok, pure_eq_ok] at hprint
  obtain ⟨-, -, app', happ', src'', hsrc'', dst'', hdst'', fragments, -, heq⟩ := hprint
  rw [hsrc', Option.some.injEq] at hsrc''
  rw [hdst', Option.some.injEq] at hdst''
  subst hsrc'' hdst''
  obtain ⟨hsameApp, hsameDest, -, hsameName, -, -, -, hsameSource, -⟩ :=
    printedFields_lookup tree ops s' app' src' dst' fragments
  rw [heq] at hsameApp hsameDest hsameName hsameSource
  have hback : LeadsBack tree parent src dst app src' dst' app' := by
    refine ⟨hfoundSource, ?_, hfoundDest, ?_, ?_, ?_⟩
    · simpa using hsameSource.symm.trans hsource
    · simpa using hsameDest.symm.trans hdest
    · rw [← happ']
      exact hfoundApp
    · simpa using hsameApp.symm.trans happ
  refine ⟨src', dst', app', hback, ?_⟩
  have hsame : s'.streamName = s.streamName := by
    simpa using hsameName.symm.trans hname
  rw [← hback.defaultStreamName, hdefault, hsame]

/-- **When the stream of the printed entry prints as the same text.** -/
theorem prints_again_iff (hdigits : ∀ x, ops.printedDouble x = toDigits 10 6 x) (hrange : InRange s)
    (hname : Printable s.streamName) (hstart : s.startTime = 0) :
    (∃ s', ofConfigLine tree ops (printedFields tree ops s app src dst []) parent
        externalSourceModule = .ok s' ∧
      printStream tree ops s' = .ok (printedFields tree ops s app src dst [])) ↔
      (∃ src' dst' app', LeadsBack tree parent src dst app src' dst' app') ∧
        defaultStreamName tree externalSourceModule src s.pcp dst = .ok s.streamName := by
  constructor
  · rintro ⟨s', hs', hprint⟩
    obtain ⟨src', dst', app', hback, hdefault⟩ := leadsBack_of_printed hs' hprint
    exact ⟨⟨src', dst', app', hback⟩, hdefault⟩
  · rintro ⟨⟨src', dst', app', hback⟩, hdefault⟩
    obtain ⟨s', hs', hrebuilt⟩ := ofConfigLine_printed hdigits hrange hback hdefault
    exact ⟨s', hs', hrebuilt.printStream hdigits hback hname hstart⟩

end

/-! ## The name that a stream is given -/

section

variable {tree : ModuleTree Module}

theorem printable_append {a b : String} (ha : Printable a) (hb : Printable b) :
    Printable (a ++ b) := by
  intro c hc
  rw [String.toList_append, List.mem_append] at hc
  exact hc.elim (ha c) (hb c)

theorem printable_getName (m : Module) : Printable (tree.getName m) := by
  intro c hc
  have hchar := tree.getName_chars m c hc
  constructor <;> rintro rfl <;> simp [Char.isAlphanum] at hchar

theorem printable_nat (n : Nat) : Printable (toString n) := by
  intro c hc
  have hdigit : c.isDigit = true := by
    have hmem : c ∈ Nat.toDigits 10 n := by simpa using hc
    exact Nat.isDigit_of_mem_toDigits (by decide) (by decide) hmem
  constructor <;> rintro rfl <;> simp [Char.isDigit] at hdigit

theorem printable_getFullName (m : Module) : Printable (tree.getFullName m) := by
  rw [ModuleTree.getFullName]
  cases tree.getIndex m with
  | none => exact printable_getName m
  | some i =>
    exact printable_append (printable_append (printable_append (printable_getName m)
      (printable_of_all (by decide))) (printable_nat i)) (printable_of_all (by decide))

/-- The name that a stream is given by default can be printed. -/
theorem printable_defaultStreamName {externalSourceModule : Option Module} {src dst : Module}
    {pcp : Int} (hpcp : 0 ≤ pcp) {name : String}
    (h : defaultStreamName tree externalSourceModule src pcp dst = .ok name) : Printable name := by
  obtain ⟨n, rfl⟩ := Int.eq_ofNat_of_zero_le hpcp
  have hstem : Printable (tree.getName src ++ "-PCP" ++ toString (n : Int) ++ "-" ++
      tree.getName dst) :=
    printable_append (printable_append (printable_append (printable_append (printable_getName src)
      (printable_of_all (by decide))) (printable_nat n)) (printable_of_all (by decide)))
      (printable_getName dst)
  cases externalSourceModule with
  | none =>
    cases h
    exact hstem
  | some external =>
    simp only [defaultStreamName, bind_eq_ok, pure_eq_ok, require_eq_ok] at h
    obtain ⟨parent, -, rfl⟩ := h
    exact printable_append (printable_append (printable_append (printable_append
      (printable_getFullName parent) (printable_of_all (by decide)))
      (printable_getFullName external)) (printable_of_all (by decide))) hstem

end

/-! ## All attributes -/

section

variable [DecidableEq Module] (tree : ModuleTree Module) (ops : ValueOps)
  (topology : Topology Module) (entry : ValueMap) (parent : Module)
  (externalSourceModule : Option Module)

/--
The printed entry makes flows with the attributes of the flows of the entry, and the stream of the
printed entry prints as the same text.
-/
def AttributesSurvive (s : TsnStream Module) (flows : List (Flow Module)) (n : Nat) : Prop :=
  ∃ printed, printStream tree ops s = .ok printed ∧
    (∃ flows' n', flowsOfPairs tree ops topology printed (nodePairs topology) n =
        .ok (flows', n') ∧ flows' ≠ [] ∧
      ∀ flow ∈ flows, ∀ flow' ∈ flows', SameAttributes entry flow flow') ∧
    ∃ s', ofConfigLine tree ops printed parent externalSourceModule = .ok s' ∧
      printStream tree ops s' = .ok printed

/-- The stream has the name it is given by default, and so have the flows that have a name. -/
def NameSurvives (src dst : Module) : Prop :=
  ∃ pcp name, entry.getInt "pcp" = .ok pcp ∧
    defaultStreamName tree externalSourceModule src pcp dst = .ok name ∧
    (entry.getOptional "streamName" "" (fun v => pure (ops.str v)) = .ok "" ∨
      entry.getOptional "streamName" "" (fun v => pure (ops.str v)) = .ok name) ∧
    (entry.containsKey "name" = true → entry.getString "name" = .ok name)

/-- The entry, for a stream from `src` to `dst` that the application `app` sends. -/
structure Survivable (src dst app : Module) : Prop where
  source : ∃ text, entry.getString "source" = .ok text ∧
    tree.findModuleByPath (tree.getFullPath parent ++ "." ++ text) = some src
  destination : ∃ text, entry.getString "destination" = .ok text ∧
    tree.findModuleByPath (tree.getFullPath parent ++ "." ++ text) = some dst
  application : ∃ text, entry.getString "application" = .ok text ∧
    findApplication tree parent src text = .ok (some app)
  mentioned : ∃ a b, MentionedPair tree topology src dst a b
  flowable : ∀ a b, MentionedPair tree topology src dst a b →
    Flowable tree topology (tree.getFullName app) a b
  leadsBack : ∃ src' dst' app', LeadsBack tree parent src dst app src' dst' app'
  name : NameSurvives tree ops entry externalSourceModule src dst
  packetInterval : IntervalSurvives ops entry
  maxLatency : LimitSurvives ops entry "maxLatency" (-1)
  maxJitter : LimitSurvives ops entry "maxJitter" 0

variable {tree ops topology entry parent externalSourceModule} {s : TsnStream Module}
  {src dst app : Module} {flows : List (Flow Module)} {n n' : Nat}

omit [DecidableEq Module] in
/-- What the constructor has checked. -/
theorem inRange_of_built
    (hbuilt : ofConfigLine tree ops entry parent externalSourceModule = .ok s) : InRange s where
  pcp := (ofConfigLine_ok hbuilt).pcp_le
  gateIndex := (ofConfigLine_rest hbuilt).gateIndex_nonneg
  packetSize := by
    obtain ⟨_, -, -, hpos⟩ := (ofConfigLine_fields hbuilt).packetSize
    exact hpos

/-- An entry that both readers accept has no paths. -/
theorem pathFragments_of_built
    (hbuilt : ofConfigLine tree ops entry parent externalSourceModule = .ok s)
    (hflows : flowsOfPairs tree ops topology entry (nodePairs topology) n = .ok (flows, n'))
    (hne : flows ≠ []) : s.pathFragments = [] := by
  obtain ⟨flow, hflow⟩ := List.exists_mem_of_ne_nil flows hne
  obtain ⟨a, b, _, _, -, -, hmade⟩ := exists_makeFlow_of_mem hflows hflow
  obtain ⟨fragments, hfragments, hpaths⟩ := makeFlow_paths hmade
  exact (pathFragments_of_both (construct_debug.trans hbuilt) hfragments hpaths).1

/-- What the stream and its entry have to say, once the modules are known. -/
theorem attributesSurvive_iff_of_modules (hdigits : ∀ x, ops.printedDouble x = toDigits 10 6 x)
    (hbuilt : ofConfigLine tree ops entry parent externalSourceModule = .ok s)
    (hflows : flowsOfPairs tree ops topology entry (nodePairs topology) n = .ok (flows, n'))
    (hne : flows ≠ []) (hsrc : s.sourceModule = some src) (hdst : s.destinationModule = some dst)
    (happ : s.applicationModule = some app) :
    AttributesSurvive tree ops topology entry parent externalSourceModule s flows n ↔
      ((∃ a b, MentionedPair tree topology src dst a b) ∧
        ∀ a b, MentionedPair tree topology src dst a b →
          Flowable tree topology (tree.getFullName app) a b) ∧
      ((entry.containsKey "name" = true → entry.getString "name" = .ok s.streamName) ∧
        IntervalSurvives ops entry ∧ LimitSurvives ops entry "maxLatency" (-1) ∧
          LimitSurvives ops entry "maxJitter" 0) ∧
      (∃ src' dst' app', LeadsBack tree parent src dst app src' dst' app') ∧
        defaultStreamName tree externalSourceModule src s.pcp dst = .ok s.streamName := by
  have hfragments := pathFragments_of_built hbuilt hflows hne
  have hrange := inRange_of_built hbuilt
  have hstart := (ofConfigLine_rest hbuilt).startTime
  constructor
  · rintro ⟨printed, hprint, ⟨flows', n'', hflows', hne', hsame⟩, hagain⟩
    have hname : Printable s.streamName := by
      simp only [printStream, bind_eq_ok, ensure_eq_ok] at hprint
      exact hprint.choose_spec.1
    obtain rfl := Except.ok.inj
      ((printStream_of_modules hname happ hsrc hdst hfragments).symm.trans hprint)
    obtain ⟨flow, hflow⟩ := List.exists_mem_of_ne_nil flows hne
    obtain ⟨flow', hflow'⟩ := List.exists_mem_of_ne_nil flows' hne'
    exact ⟨(exists_flows_printed n).mp ⟨flows', n'', hflows', hne'⟩,
      (sameAttributes_iff hbuilt (flowsOfPairs_reads hflows hflow)
        ((flowsOfPairs_reads hflows' hflow').printed hdigits)).mp (hsame flow hflow flow' hflow'),
      (prints_again_iff hdigits hrange hname hstart).mp hagain⟩
  · rintro ⟨hmade, hattributes, hback, hdefault⟩
    have hname := printable_defaultStreamName hrange.pcp.1 hdefault
    obtain ⟨flows', n'', hflows', hne'⟩ := (exists_flows_printed n).mpr hmade
    exact ⟨_, printStream_of_modules hname happ hsrc hdst hfragments,
      ⟨flows', n'', hflows', hne', fun flow hflow flow' hflow' =>
        (sameAttributes_iff hbuilt (flowsOfPairs_reads hflows hflow)
          ((flowsOfPairs_reads hflows' hflow').printed hdigits)).mpr hattributes⟩,
      (prints_again_iff hdigits hrange hname hstart).mpr ⟨hback, hdefault⟩⟩

omit [DecidableEq Module] in
/-- The entry names the modules of its stream. -/
theorem modules_of_built (hbuilt : ofConfigLine tree ops entry parent externalSourceModule = .ok s)
    (hsrc : s.sourceModule = some src) (hdst : s.destinationModule = some dst)
    (happ : s.applicationModule = some app) :
    (∃ text, entry.getString "source" = .ok text ∧
        tree.findModuleByPath (tree.getFullPath parent ++ "." ++ text) = some src) ∧
      (∃ text, entry.getString "destination" = .ok text ∧
        tree.findModuleByPath (tree.getFullPath parent ++ "." ++ text) = some dst) ∧
      ∃ text, entry.getString "application" = .ok text ∧
        findApplication tree parent src text = .ok (some app) := by
  have hbasic := ofConfigLine_ok hbuilt
  obtain ⟨source, src', hsource, hsrc', hfound⟩ := hbasic.source
  obtain ⟨destination, dst', hdestination, hdst', hfound'⟩ := hbasic.destination
  obtain ⟨src'', hsrc'', happlication⟩ := (ofConfigLine_rest hbuilt).applicationModule
  rw [hsrc, Option.some.injEq] at hsrc' hsrc''
  rw [hdst, Option.some.injEq] at hdst'
  subst hsrc' hsrc'' hdst'
  refine ⟨⟨source, hsource, hfound⟩, ⟨destination, hdestination, hfound'⟩, ?_⟩
  rw [happ, ValueMap.getOptional] at happlication
  cases hkey : entry.lookup "application" with
  | none =>
    rw [hkey] at happlication
    cases happlication
  | some value =>
    rw [hkey] at happlication
    simp only [bind_eq_ok] at happlication
    obtain ⟨text, htext, hfound''⟩ := happlication
    obtain rfl := Value.stringValue_eq_ok.mp htext
    exact ⟨text, ValueMap.getString_of_lookup hkey, hfound''⟩

omit [DecidableEq Module] in
/-- The modules of the stream are those that its entry names. -/
theorem modules_eq_of_named
    (hbuilt : ofConfigLine tree ops entry parent externalSourceModule = .ok s)
    (hsource : ∃ text, entry.getString "source" = .ok text ∧
      tree.findModuleByPath (tree.getFullPath parent ++ "." ++ text) = some src)
    (hdestination : ∃ text, entry.getString "destination" = .ok text ∧
      tree.findModuleByPath (tree.getFullPath parent ++ "." ++ text) = some dst)
    (happlication : ∃ text, entry.getString "application" = .ok text ∧
      findApplication tree parent src text = .ok (some app)) :
    s.sourceModule = some src ∧ s.destinationModule = some dst ∧
      s.applicationModule = some app := by
  have hbasic := ofConfigLine_ok hbuilt
  obtain ⟨source, src', htext, hsrc, hfound⟩ := hbasic.source
  obtain ⟨destination, dst', htext', hdst, hfound'⟩ := hbasic.destination
  obtain ⟨_, hsource, hsrc'⟩ := hsource
  obtain ⟨_, hdestination, hdst'⟩ := hdestination
  obtain ⟨text, happlication, happ'⟩ := happlication
  obtain rfl := Except.ok.inj (htext.symm.trans hsource)
  obtain rfl := Except.ok.inj (htext'.symm.trans hdestination)
  obtain rfl := Option.some.inj (hfound.symm.trans hsrc')
  obtain rfl := Option.some.inj (hfound'.symm.trans hdst')
  obtain ⟨src'', hsrc'', happ⟩ := (ofConfigLine_rest hbuilt).applicationModule
  obtain rfl := Option.some.inj (hsrc.symm.trans hsrc'')
  refine ⟨hsrc, hdst, ?_⟩
  rw [ValueMap.getOptional, ValueMap.getString_eq_ok.mp happlication] at happ
  exact Except.ok.inj (happ.symm.trans happ')

omit [DecidableEq Module] in
/-- The stream of the entry has the name it is given by default. -/
theorem nameSurvives_iff (hbuilt : ofConfigLine tree ops entry parent externalSourceModule = .ok s)
    (hsrc : s.sourceModule = some src) (hdst : s.destinationModule = some dst) :
    NameSurvives tree ops entry externalSourceModule src dst ↔
      (entry.containsKey "name" = true → entry.getString "name" = .ok s.streamName) ∧
        defaultStreamName tree externalSourceModule src s.pcp dst = .ok s.streamName := by
  have hpcp := (ofConfigLine_ok hbuilt).pcp
  obtain ⟨given, src', dst', hgiven, hsrc', hdst', hname⟩ := (ofConfigLine_fields hbuilt).streamName
  obtain rfl := Option.some.inj (hsrc.symm.trans hsrc')
  obtain rfl := Option.some.inj (hdst.symm.trans hdst')
  constructor
  · rintro ⟨pcp, name, hpcp', hdefault, hread, hflows⟩
    obtain rfl := Except.ok.inj (hpcp.symm.trans hpcp')
    -- no name, an empty one or the default name: it is the default name that the stream has
    have hsame : s.streamName = name := by
      rcases hread with hread | hread
      · obtain rfl := Except.ok.inj (hgiven.symm.trans hread)
        rw [orDefault, if_pos rfl, hdefault, Except.ok.injEq] at hname
        exact hname.symm
      · obtain rfl := Except.ok.inj (hgiven.symm.trans hread)
        rw [orDefault, hdefault] at hname
        split at hname <;> exact (Except.ok.inj hname).symm
    rw [hsame]
    exact ⟨hflows, hdefault⟩
  · rintro ⟨hflows, hdefault⟩
    refine ⟨s.pcp, s.streamName, hpcp, hdefault, ?_, hflows⟩
    rw [orDefault] at hname
    split at hname
    · next hempty =>
      subst hempty
      exact .inl hgiven
    · rw [pure_eq_ok] at hname
      rw [← hname]
      exact .inr hgiven

omit [DecidableEq Module] in
/-- Only a stream with all its modules can be printed. -/
theorem exists_modules_of_printed {printed : ValueMap} (h : printStream tree ops s = .ok printed) :
    ∃ src dst app, s.sourceModule = some src ∧ s.destinationModule = some dst ∧
      s.applicationModule = some app := by
  simp only [printStream, bind_eq_ok, require_eq_ok, ensure_eq_ok, pure_eq_ok] at h
  obtain ⟨-, -, app, happ, src, hsrc, dst, hdst, -⟩ := h
  exact ⟨src, dst, app, hsrc, hdst, happ⟩

/-- **When all attributes survive.** -/
theorem attributes_survive_iff (hdigits : ∀ x, ops.printedDouble x = toDigits 10 6 x)
    (hbuilt : ofConfigLine tree ops entry parent externalSourceModule = .ok s)
    (hflows : flowsOfPairs tree ops topology entry (nodePairs topology) n = .ok (flows, n'))
    (hne : flows ≠ []) :
    AttributesSurvive tree ops topology entry parent externalSourceModule s flows n ↔
      ∃ src dst app,
        Survivable tree ops topology entry parent externalSourceModule src dst app := by
  constructor
  · intro h
    obtain ⟨src, dst, app, hsrc, hdst, happ⟩ := exists_modules_of_printed h.choose_spec.1
    obtain ⟨⟨hmentioned, hflowable⟩, ⟨hname, hinterval, hlatency, hjitter⟩, hback, hdefault⟩ :=
      (attributesSurvive_iff_of_modules hdigits hbuilt hflows hne hsrc hdst happ).mp h
    obtain ⟨hsource, hdestination, happlication⟩ := modules_of_built hbuilt hsrc hdst happ
    exact ⟨src, dst, app, hsource, hdestination, happlication, hmentioned, hflowable, hback,
      (nameSurvives_iff hbuilt hsrc hdst).mpr ⟨hname, hdefault⟩, hinterval, hlatency, hjitter⟩
  · rintro ⟨src, dst, app, h⟩
    obtain ⟨hsrc, hdst, happ⟩ := modules_eq_of_named hbuilt h.source h.destination h.application
    obtain ⟨hname, hdefault⟩ := (nameSurvives_iff hbuilt hsrc hdst).mp h.name
    exact (attributesSurvive_iff_of_modules hdigits hbuilt hflows hne hsrc hdst happ).mpr
      ⟨⟨h.mentioned, h.flowable⟩, ⟨hname, h.packetInterval, h.maxLatency, h.maxJitter⟩,
        h.leadsBack, hdefault⟩

end

/-! ## A device without an index -/

/-- Doubles are printed with six digits. -/
def digitOps : ValueOps := { basicOps with printedDouble := toDigits 10 6 }

/-- The network card and the device that it is wired to. -/
def deviceTopology : Topology (Fin 14) where
  nodes := [⟨2, true, true, [carPort 10 "eth0" 8 8]⟩, ⟨8, true, true, [carPort 8 "eth0" 2 10]⟩]
  nodup := by decide
  graph := NodeGraph.ofLinks [2, 8] [⟨2, 0, 8, 0⟩, ⟨8, 0, 2, 0⟩]
  attributes := NodeGraph.defaultAttributes

/-- A stream from the network card to the device. -/
def plainLine : ValueMap :=
  [("source", .string "tsnNic"), ("destination", .string "dev"), ("pcp", .int 4 ""),
    ("gateIndex", .int 4 ""), ("packetLength", .int 100 "B"), ("packetInterval", .int 10 "ms"),
    ("application", .string "app[0]"), ("maxLatency", .int 5 "ms")]

/-- The entry names the modules of its stream, and its numbers are short. -/
theorem survivable_plainLine :
    Survivable carNetwork.tree digitOps deviceTopology plainLine 1 none 2 8 3 := by
  -- which flows the printed entry makes does not depend on the numbers of the stream
  obtain ⟨⟨flows, n'⟩, hflows, hne⟩ : ∃ r, flowsOfPairs carNetwork.tree digitOps deviceTopology
      (printedFields carNetwork.tree digitOps deviceStream 3 2 8 []) (nodePairs deviceTopology) 0 =
        .ok r ∧ decide (r.1 ≠ []) = true := exists_of_any (by decide +kernel)
  obtain ⟨hmentioned, hflowable⟩ :=
    (exists_flows_printed 0).mp ⟨flows, n', hflows, of_decide_eq_true hne⟩
  have hdecimal : ∀ k : Int, |k| ≤ 10 → HasDigits 10 6 k := by
    intro k hk
    exact ⟨k, 0, hk.trans (by decide), by simp⟩
  refine ⟨⟨"tsnNic", rfl, by decide +kernel⟩, ⟨"dev", rfl, by decide +kernel⟩,
    ⟨"app[0]", rfl, by decide +kernel⟩, hmentioned, hflowable, ⟨2, 8, 3, ?_⟩,
    ⟨4, "tsnNic-PCP4-dev", rfl, by decide +kernel, .inl rfl, ?_⟩, ?_, ?_, ?_⟩
  · constructor <;> decide +kernel
  · intro hkey
    exact absurd hkey (by decide)
  · exact intervalSurvives_of_decimal rfl rfl (hdecimal 10 (by decide))
  · exact limitSurvives_of_decimal rfl rfl (by decide) (hdecimal 5 (by decide))
  · exact limitSurvives_of_missing rfl

/-- Without a name of its own, all attributes survive. -/
theorem attributes_survive_plainLine :
    ∃ s flows n', ofConfigLine carNetwork.tree digitOps plainLine 1 none = .ok s ∧
      flowsOfPairs carNetwork.tree digitOps deviceTopology plainLine (nodePairs deviceTopology) 0 =
        .ok (flows, n') ∧ flows ≠ [] ∧
      AttributesSurvive carNetwork.tree digitOps deviceTopology plainLine 1 none s flows 0 := by
  obtain ⟨s, hbuilt, -⟩ : ∃ s, ofConfigLine carNetwork.tree digitOps plainLine 1 none = .ok s ∧
      decide (s.pcp = 4) = true := exists_of_any (by decide +kernel)
  obtain ⟨⟨flows, n'⟩, hflows, hne⟩ : ∃ r, flowsOfPairs carNetwork.tree digitOps deviceTopology
      plainLine (nodePairs deviceTopology) 0 = .ok r ∧ decide (r.1 ≠ []) = true :=
    exists_of_any (by decide +kernel)
  exact ⟨s, flows, n', hbuilt, hflows, of_decide_eq_true hne,
    (attributes_survive_iff (fun _ => rfl) hbuilt hflows (of_decide_eq_true hne)).mpr
      ⟨2, 8, 3, survivable_plainLine⟩⟩

/-- The same entry with a name for its flow. -/
def namedLine : ValueMap := plainLine ++ [("name", .string "braking")]

/-- The stream has the name that it is given by default, and so has the flow that comes back. -/
theorem name_lost :
    ∃ s flows n', ofConfigLine carNetwork.tree digitOps namedLine 1 none = .ok s ∧
      flowsOfPairs carNetwork.tree digitOps deviceTopology namedLine (nodePairs deviceTopology) 0 =
        .ok (flows, n') ∧ flows ≠ [] ∧
      ¬ AttributesSurvive carNetwork.tree digitOps deviceTopology namedLine 1 none s flows 0 := by
  obtain ⟨s, hbuilt, hs⟩ : ∃ s, ofConfigLine carNetwork.tree digitOps namedLine 1 none = .ok s ∧
      decide (s.sourceModule = some 2 ∧ s.destinationModule = some 8 ∧
        s.applicationModule = some 3 ∧ s.streamName = "tsnNic-PCP4-dev") = true :=
    exists_of_any (by decide +kernel)
  obtain ⟨hsrc, hdst, happ, hname⟩ := of_decide_eq_true hs
  obtain ⟨⟨flows, n'⟩, hflows, hne⟩ : ∃ r, flowsOfPairs carNetwork.tree digitOps deviceTopology
      namedLine (nodePairs deviceTopology) 0 = .ok r ∧ decide (r.1 ≠ []) = true :=
    exists_of_any (by decide +kernel)
  refine ⟨s, flows, n', hbuilt, hflows, of_decide_eq_true hne, fun h => ?_⟩
  obtain ⟨-, ⟨hsame, -⟩, -⟩ := (attributesSurvive_iff_of_modules (fun _ => rfl) hbuilt hflows
    (of_decide_eq_true hne) hsrc hdst happ).mp h
  have hread := hsame (by decide)
  rw [hname] at hread
  exact absurd hread (by decide +kernel)

end CooperativeTsn
