import CooperativeTsn.Flow.Reply

/-!
# The exchange with the scheduler

A reply repeats the names of the request: the switches, the ports of each switch and the flows, in
the same order. Its results should go back to the very port and the very flow that were asked about.

* `request_listing` — the names of a request
* `exchange_exact_iff` — the results go back where they belong iff the names tell everything apart
-/

namespace CooperativeTsn

open Infra.Runs Infra.Assoc ValueMap

variable {Module : Type}

/-! ## Listings -/

/-- The objects of a request or a reply, with their names. -/
structure Listing where
  switches : List (String × List (String × ValueMap))
  flows : List (String × ValueMap)

def readSwitch (json : Value) : Except SimError (String × List (String × ValueMap)) := do
  let (name, fields) ← readNamed json
  let jsonPorts ← getArray fields "ports"
  let ports ← jsonPorts.mapM readNamed
  pure (name, ports)

def readListing (json : ValueMap) : Except SimError Listing := do
  let jsonSwitches ← getArray json "switches"
  let switches ← jsonSwitches.mapM readSwitch
  let jsonFlows ← getArray json "flows"
  let flows ← jsonFlows.mapM readNamed
  pure ⟨switches, flows⟩

/-- The names that a request asks with. -/
structure Names where
  switches : List (String × List String)
  flows : List String

def Listing.names (listing : Listing) : Names where
  switches := listing.switches.map fun switch_ => (switch_.1, switch_.2.map Prod.fst)
  flows := listing.flows.map Prod.fst

/-- The name of a port in the request. -/
def askedName (tree : ModuleTree Module) (switch_ : Node Module) (port : Port Module) : String :=
  tree.getFullName switch_.module ++ "-" ++ tree.getFullName port.module

def inputNames (tree : ModuleTree Module) (input : Input Module) : Names where
  switches := input.switches.map fun switch_ =>
    (tree.getFullName switch_.module, switch_.ports.map (askedName tree switch_))
  flows := input.flows.map Flow.name

/-- The reply lists what the request asks about, under the same names. -/
def Answers (request : ValueMap) (reply : Listing) : Prop :=
  ∃ asked, readListing request = .ok asked ∧ reply.names = asked.names

/-- The objects of the reply can be read. -/
structure ReadableReply (order : SlotSort) (reply : Listing) : Prop where
  ports : ∀ switch_ ∈ reply.switches, ∀ port ∈ switch_.2, ∀ gateIndex,
    ∃ schedule, readSchedule order port.2 gateIndex = .ok schedule
  flows : ∀ flow ∈ reply.flows, ∃ time, readFirstSendingTime flow.2 = .ok time

/-! ### Objects that are written with their names -/

section

variable {tree : ModuleTree Module} {input : Input Module}

/-- The fields of an object. -/
def fieldsOf : Value → ValueMap
  | .map fields => fields
  | _ => []

/-- The listing of switches and ports that are written under their names. -/
def written (tree : ModuleTree Module) (input : Input Module)
    (writePort : Node Module → Port Module → Value) (flows : List (String × ValueMap)) : Listing where
  switches := input.switches.map fun switch_ => (tree.getFullName switch_.module,
    switch_.ports.map fun port => (askedName tree switch_ port, fieldsOf (writePort switch_ port)))
  flows := flows

theorem written_names {writePort : Node Module → Port Module → Value}
    {flows : List (String × ValueMap)} (h : flows.map Prod.fst = input.flows.map Flow.name) :
    (written tree input writePort flows).names = inputNames tree input := by
  simp [written, Listing.names, inputNames, h]

theorem readListing_written {json : ValueMap} (write : Node Module → Value)
    (writePort : Node Module → Port Module → Value) {jsonFlows : List Value}
    {flows : List (String × ValueMap)}
    (hswitches : json.lookup "switches" = some (.array (input.switches.map write)))
    (hflows : json.lookup "flows" = some (.array jsonFlows))
    (hwrite : ∀ switch_, readNamed (write switch_) =
      .ok (tree.getFullName switch_.module, fieldsOf (write switch_)))
    (hports : ∀ switch_, (fieldsOf (write switch_)).lookup "ports" =
      some (.array (switch_.ports.map (writePort switch_))))
    (hwritePort : ∀ switch_ port, readNamed (writePort switch_ port) =
      .ok (askedName tree switch_ port, fieldsOf (writePort switch_ port)))
    (hread : jsonFlows.mapM readNamed = .ok flows) :
    readListing json = .ok (written tree input writePort flows) := by
  have hswitch : ∀ switch_, readSwitch (write switch_) = .ok (tree.getFullName switch_.module,
      switch_.ports.map fun port =>
        (askedName tree switch_ port, fieldsOf (writePort switch_ port))) := by
    intro switch_
    simp only [readSwitch, bind_eq_ok, pure_eq_ok]
    exact ⟨_, hwrite switch_, _, getArray_eq_ok.mpr (hports switch_), _,
      mapM_map_of_ok (hwritePort switch_) _, rfl⟩
  simp only [readListing, bind_eq_ok, pure_eq_ok]
  exact ⟨_, getArray_eq_ok.mpr hswitches, _, mapM_map_of_ok hswitch _, _,
    getArray_eq_ok.mpr hflows, flows, hread, rfl⟩

end

/-! ### The request -/

section

variable {tree : ModuleTree Module} {ops : ValueOps} {configuration : List Value}
  {input : Input Module} {gateCycleDuration : Int}

theorem readNamed_jsonFlow {flow : Flow Module} {fields : ValueMap}
    (h : jsonFlow tree ops configuration flow = .ok fields) :
    readNamed (.map fields) = .ok (flow.name, fields) := by
  simp only [jsonFlow, bind_eq_ok, pure_eq_ok] at h
  obtain ⟨t, -, hops, -, rfl⟩ := h
  refine readNamed_eq_ok.mpr ⟨rfl, ?_⟩
  rw [lookup_record, timeFields]
  split <;> simp [List.lookup_cons]

theorem readNamed_jsonFlows {flows : List (Flow Module)} {jsonFlows : List ValueMap}
    (h : flows.mapM (jsonFlow tree ops configuration) = .ok jsonFlows) :
    ∃ named, (jsonFlows.map Value.map).mapM readNamed = .ok named ∧
      named.map Prod.fst = flows.map Flow.name := by
  have hall := mapM_eq_ok.mp h
  clear h
  induction hall with
  | nil => exact ⟨[], rfl, rfl⟩
  | @cons flow fields _ _ hflow _ ih =>
    obtain ⟨named, hnamed, hnames⟩ := ih
    refine ⟨(flow.name, fields) :: named, ?_, by rw [List.map_cons, List.map_cons, hnames]⟩
    simp only [List.map_cons, List.mapM_cons, bind_eq_ok, pure_eq_ok]
    exact ⟨_, readNamed_jsonFlow hflow, named, hnamed, rfl⟩

/-- The names of a request are those of its input. -/
theorem request_listing {request : ValueMap}
    (h : convertInputToJson tree ops configuration gateCycleDuration input = .ok request) :
    ∃ asked, readListing request = .ok asked ∧ asked.names = inputNames tree input := by
  simp only [convertInputToJson, bind_eq_ok, pure_eq_ok] at h
  obtain ⟨jsonFlows, hflows, rfl⟩ := h
  obtain ⟨named, hnamed, hnames⟩ := readNamed_jsonFlows hflows
  refine ⟨written tree input (jsonPort tree gateCycleDuration) named,
    readListing_written (jsonSwitch tree gateCycleDuration) _ ?_ ?_ ?_ ?_ ?_ hnamed,
    written_names hnames⟩
  · rw [lookup_record]
    simp [List.lookup_cons]
  · rw [lookup_record]
    simp
  · intro switch_
    simp only [jsonSwitch, fieldsOf, readNamed_eq_ok, lookup_record, true_and]
    simp [List.lookup_cons]
  · intro switch_
    simp only [jsonSwitch, fieldsOf, lookup_record]
    simp
  · intro switch_ port
    simp only [jsonPort, fieldsOf, readNamed_eq_ok, lookup_record, true_and]
    simp [List.lookup_cons, askedName]

end

/-! ## Results -/

/-- The object of the port `j` of the switch `i`. -/
def Listing.port (reply : Listing) (i j : Nat) : Option ValueMap :=
  reply.switches[i]?.bind fun switch_ => switch_.2[j]?.map Prod.snd

def Listing.flow (reply : Listing) (k : Nat) : Option ValueMap := reply.flows[k]?.map Prod.snd

section

variable [DecidableEq Module]

/-- The results of the reply are stored for the port and the flow that they belong to. -/
structure ResultsOwn (order : SlotSort) (numGates : PortId Module → Int) (input : Input Module)
    (reply : Listing) (output : Output (PortId Module) Nat) : Prop where
  ports : ∀ (i j : Nat) switch_ jsonPort, input.switches[i]? = some switch_ →
    reply.port i j = some jsonPort → ∃ schedules,
      readSchedules order (numGates (switch_.module, j)) jsonPort = .ok schedules ∧
        output.schedulesOf (switch_.module, j) = some schedules
  flows : ∀ (k : Nat) flow jsonFlow, input.flows[k]? = some flow → reply.flow k = some jsonFlow →
    ∃ startTime, readStartTime input flow jsonFlow = .ok startTime ∧
      output.startTimeOf k = some startTime

/-- Every reply to the request is converted, and its results are stored where they belong. -/
def ExchangeExact (tree : ModuleTree Module) (order : SlotSort) (numGates : PortId Module → Int)
    (input : Input Module) (request : ValueMap) : Prop :=
  ∀ json reply, readListing json = .ok reply → Answers request reply → ReadableReply order reply →
    ∃ output, convertJsonToOutput tree order numGates input json = .ok output ∧
      ResultsOwn order numGates input reply output

/--
The names tell switches, ports and flows apart, and the start time of every flow can be moved to the
first packet: its device has a port with a data rate, and its packets come at an interval.
-/
structure TellsApart (tree : ModuleTree Module) (input : Input Module) : Prop where
  switches : ∀ (i j : Nat) (a b : Node Module), i < j → input.switches[i]? = some a → input.switches[j]? = some b →
    b.ports ≠ [] → tree.getFullName a.module ≠ tree.getFullName b.module
  ports : ∀ switch_ ∈ input.switches,
    (switch_.ports.map fun port => tree.getFullName port.module).Nodup
  flows : (input.flows.map Flow.name).Nodup
  startTimes : ∀ flow ∈ input.flows, transmissionTime input flow.startApplication ≠ none ∧
    0 < flow.startApplication.packetInterval

end

/-! ### Names that tell apart -/

section

variable {tree : ModuleTree Module} {order : SlotSort} {numGates : PortId Module → Int}
  {input : Input Module} {reply : Listing} {switch_ : Node Module} {json : Value}

theorem switch_of_names (hnames : reply.names = inputNames tree input) {i : Nat} {name : String}
    {ports : List (String × ValueMap)} (h : reply.switches[i]? = some (name, ports)) :
    ∃ switch_, input.switches[i]? = some switch_ ∧ name = tree.getFullName switch_.module ∧
      ports.map Prod.fst = switch_.ports.map (askedName tree switch_) := by
  have hget := congrArg (fun names => names.switches[i]?) hnames
  simp only [Listing.names, inputNames, List.getElem?_map, h, Option.map_some] at hget
  obtain ⟨switch_, hswitch, heq⟩ := Option.map_eq_some_iff.mp hget.symm
  obtain ⟨hname, hports⟩ := Prod.mk.inj heq
  exact ⟨switch_, hswitch, hname.symm, hports.symm⟩

theorem convertPort_own (hnodup : (switch_.ports.map fun port => tree.getFullName port.module).Nodup)
    {j : Nat} {port : Port Module} (hport : switch_.ports[j]? = some port) {jsonPort : ValueMap}
    (hread : readNamed json = .ok (askedName tree switch_ port, jsonPort))
    {schedules : List Schedule}
    (hschedules : readSchedules order (numGates (switch_.module, j)) jsonPort = .ok schedules) :
    convertPort tree order numGates switch_ json = .ok ((switch_.module, j), schedules) := by
  simp only [convertPort, bind_eq_ok, pure_eq_ok, findPort, require_eq_ok]
  refine ⟨_, hread, j, ?_, schedules, hschedules, rfl⟩
  rw [askedName, portName_eq]
  exact findIdx?_of_nodup (f := fun port : Port Module => tree.getFullName port.module) hnodup hport

theorem exists_readSchedules {jsonPort : ValueMap}
    (h : ∀ gateIndex, ∃ schedule, readSchedule order jsonPort gateIndex = .ok schedule) (n : Int) :
    ∃ schedules, readSchedules order n jsonPort = .ok schedules :=
  exists_mapM_ok.mpr fun gateIndex _ => h gateIndex

/-- The ports of a switch, when it is found by its name. -/
theorem convertSwitch_own {switches : List (Node Module)} {ports : List (String × ValueMap)}
    (hread : readSwitch json = .ok (tree.getFullName switch_.module, ports))
    (hnames : ports.map Prod.fst = switch_.ports.map (askedName tree switch_))
    (hnodup : (switch_.ports.map fun port => tree.getFullName port.module).Nodup)
    (hfind : findSwitch tree switches (tree.getFullName switch_.module) = .ok switch_)
    (hreadable : ∀ port ∈ ports, ∀ gateIndex,
      ∃ schedule, readSchedule order port.2 gateIndex = .ok schedule) :
    ∃ entries, convertSwitch tree order numGates switches json = .ok entries ∧
      entries.map Prod.fst =
          (List.range switch_.ports.length).map (fun j => (switch_.module, j)) ∧
      ∀ j jsonPort, (ports[j]?.map Prod.snd) = some jsonPort → ∃ schedules,
        readSchedules order (numGates (switch_.module, j)) jsonPort = .ok schedules ∧
          ((switch_.module, j), schedules) ∈ entries := by
  simp only [readSwitch, bind_eq_ok, pure_eq_ok, Prod.mk.injEq] at hread
  obtain ⟨⟨_, fields⟩, hnamed, jsonPorts, harray, ports, hports, rfl, rfl⟩ := hread
  -- port by port: the name of each is the one that was asked for, and it is found as this port
  have hconvert : ∀ j jsonPort', jsonPorts[j]? = some jsonPort' → ∃ name jsonPort schedules,
      ports[j]? = some (name, jsonPort) ∧
        readSchedules order (numGates (switch_.module, j)) jsonPort = .ok schedules ∧
        convertPort tree order numGates switch_ jsonPort' =
          .ok ((switch_.module, j), schedules) := by
    intro j jsonPort' hj
    obtain ⟨⟨name, jsonPort⟩, hport, hread⟩ := mapM_getElem? hports hj
    have hget := congrArg (·[j]?) hnames
    simp only [List.getElem?_map, hport, Option.map_some] at hget
    obtain ⟨port, hj', heq⟩ := Option.map_eq_some_iff.mp hget.symm
    obtain ⟨schedules, hschedules⟩ :=
      exists_readSchedules (hreadable _ (List.mem_of_getElem? hport)) (numGates (switch_.module, j))
    rw [← heq] at hread
    exact ⟨name, jsonPort, schedules, hport, hschedules,
      convertPort_own hnodup hj' hread hschedules⟩
  -- the names agree, so the reply has as many ports as the switch
  have hlength : jsonPorts.length = switch_.ports.length := by
    rw [(List.forall₂_iff_get.mp (mapM_eq_ok.mp hports)).1]
    simpa using congrArg List.length hnames
  obtain ⟨entries, hentries, hkeys⟩ := exists_mapM_of_getElem?
    (f := convertPort tree order numGates switch_) (p := Prod.fst)
    (q := fun j => (switch_.module, j)) fun j jsonPort' hj => by
      obtain ⟨_, _, schedules, _, _, hconvert⟩ := hconvert j jsonPort' hj
      exact ⟨_, hconvert, rfl⟩
  refine ⟨entries, ?_, hlength ▸ hkeys, fun j jsonPort hj => ?_⟩
  · simp only [convertSwitch, bind_eq_ok]
    exact ⟨_, hnamed, switch_, hfind, jsonPorts, harray, hentries⟩
  · obtain ⟨⟨name, _⟩, hport, rfl⟩ := Option.map_eq_some_iff.mp hj
    obtain ⟨json', hjson', -⟩ := getElem?_of_mapM hports hport
    obtain ⟨_, jsonPort, schedules, hport', hschedules, hconverted⟩ := hconvert j json' hjson'
    rw [hport, Option.some.injEq, Prod.mk.injEq] at hport'
    obtain ⟨-, rfl⟩ := hport'
    obtain ⟨entry, hentry, hentry'⟩ := mapM_getElem? hentries hjson'
    rw [hconverted, Except.ok.injEq] at hentry'
    subst hentry'
    exact ⟨schedules, hschedules, List.mem_of_getElem? hentry⟩

/-- A switch without ports may be taken for another one. -/
theorem convertSwitch_of_no_ports {switches : List (Node Module)}
    (hread : readSwitch json = .ok (tree.getFullName switch_.module, []))
    (hmem : switch_ ∈ switches) :
    convertSwitch tree order numGates switches json = .ok [] := by
  simp only [readSwitch, bind_eq_ok, pure_eq_ok, Prod.mk.injEq] at hread
  obtain ⟨⟨_, fields⟩, hnamed, jsonPorts, harray, ports, hports, rfl, rfl⟩ := hread
  obtain rfl : jsonPorts = [] := by
    have hlength := (List.forall₂_iff_get.mp (mapM_eq_ok.mp hports)).1
    exact List.length_eq_zero_iff.mp hlength
  obtain ⟨found, hfound⟩ : ∃ found, findSwitch tree switches (tree.getFullName switch_.module) =
      .ok found := by
    simp only [findSwitch, require_eq_ok]
    rw [← Option.isSome_iff_exists, List.find?_isSome]
    exact ⟨switch_, hmem, by simp⟩
  simp only [convertSwitch, bind_eq_ok]
  exact ⟨_, hnamed, found, hfound, [], harray, rfl⟩

/-- The ports of a switch. -/
def portIds (switch_ : Node Module) : List (PortId Module) :=
  (List.range switch_.ports.length).map fun j => (switch_.module, j)

theorem portIds_nodup {switches : List (Node Module)} (h : (switches.map Node.module).Nodup) :
    (switches.flatMap portIds).Nodup := by
  refine List.nodup_flatMap.mpr ⟨fun switch_ _ => ?_, ?_⟩
  · exact List.nodup_range.map fun _ _ heq => (Prod.mk.inj heq).2
  · rw [List.Nodup, List.pairwise_map] at h
    refine h.imp fun {a b} hne => ?_
    show List.Disjoint (portIds a) (portIds b)
    rw [List.disjoint_left]
    intro key ha hb
    obtain ⟨_, -, rfl⟩ := List.mem_map.mp ha
    obtain ⟨_, -, heq⟩ := List.mem_map.mp hb
    exact hne (Prod.mk.inj heq).1.symm

variable [DecidableEq Module]

theorem exists_adjustStartTime {application : Application Module}
    (h : transmissionTime input application ≠ none ∧ 0 < application.packetInterval) (time : Rat) :
    ∃ startTime, adjustStartTime input application time = .ok startTime := by
  obtain ⟨transmission, htransmission⟩ := Option.ne_none_iff_exists'.mp h.1
  have hinterval : (0 : Rat) < application.packetInterval / 1000000000000 :=
    div_pos (by exact_mod_cast h.2) (by norm_num)
  obtain ⟨r, hr⟩ := (whileNegative_turns (application.packetInterval / 1000000000000)
    (time - transmission)).mpr (.inr hinterval)
  simp only [adjustStartTime, bind_eq_ok, pure_eq_ok, require_eq_ok]
  exact ⟨toSimTime r, transmission, htransmission, r, hr, rfl⟩

/-- Every port of the reply is found as the port that it is the answer for. -/
theorem convertSwitches_own (hmodules : (input.switches.map Node.module).Nodup)
    (h : TellsApart tree input) {json : ValueMap} (hlisting : readListing json = .ok reply)
    (hnames : reply.names = inputNames tree input) (hreadable : ReadableReply order reply) :
    ∃ entries, convertSwitches tree order numGates input.switches json = .ok entries ∧
      (entries.map Prod.fst).Nodup ∧
      ∀ (i j : Nat) switch_ jsonPort, input.switches[i]? = some switch_ →
        reply.port i j = some jsonPort → ∃ schedules,
          readSchedules order (numGates (switch_.module, j)) jsonPort = .ok schedules ∧
            ((switch_.module, j), schedules) ∈ entries := by
  simp only [readListing, bind_eq_ok, pure_eq_ok] at hlisting
  obtain ⟨jsonSwitches, harray, switches, hswitches, _, -, flows, -, rfl⟩ := hlisting
  -- switch by switch; one without ports contributes nothing, whichever switch it is taken for
  have hconvert : ∀ (i : Nat) jsonSwitch, jsonSwitches[i]? = some jsonSwitch →
      ∃ switch_ ports entries, input.switches[i]? = some switch_ ∧
        switches[i]? = some (tree.getFullName switch_.module, ports) ∧
        convertSwitch tree order numGates input.switches jsonSwitch = .ok entries ∧
        entries.map Prod.fst = portIds switch_ ∧
        ∀ (j : Nat) jsonPort, (ports[j]?.map Prod.snd) = some jsonPort → ∃ schedules,
          readSchedules order (numGates (switch_.module, j)) jsonPort = .ok schedules ∧
            ((switch_.module, j), schedules) ∈ entries := by
    intro i jsonSwitch hi
    obtain ⟨⟨name, ports⟩, hlisted, hread⟩ := mapM_getElem? hswitches hi
    obtain ⟨switch_, hswitch, rfl, hports⟩ := switch_of_names hnames hlisted
    have hmem : switch_ ∈ input.switches := List.mem_of_getElem? hswitch
    by_cases hempty : switch_.ports = []
    · obtain rfl : ports = [] := by simpa [hempty] using hports
      exact ⟨switch_, [], [], hswitch, hlisted, convertSwitch_of_no_ports hread hmem,
        by simp [portIds, hempty], by simp⟩
    · have hfind : findSwitch tree input.switches (tree.getFullName switch_.module) =
          .ok switch_ := by
        simp only [findSwitch, require_eq_ok]
        exact find?_eq_some_of_first (f := fun switch_ : Node Module =>
            tree.getFullName switch_.module) hswitch
          fun j hj b hb => h.switches j i b switch_ hj hb hswitch hempty
      obtain ⟨entries, hentries, hkeys, hall⟩ := convertSwitch_own hread hports (h.ports _ hmem)
        hfind (hreadable.ports _ (List.mem_of_getElem? hlisted))
      exact ⟨switch_, ports, entries, hswitch, hlisted, hentries, hkeys, hall⟩
  have hlength : jsonSwitches.length = input.switches.length := by
    rw [(List.forall₂_iff_get.mp (mapM_eq_ok.mp hswitches)).1]
    simpa [Listing.names, inputNames] using congrArg (fun names => names.switches.length) hnames
  obtain ⟨entries, hentries, hkeys⟩ := exists_mapM_of_getElem?
    (f := convertSwitch tree order numGates input.switches) (p := List.map Prod.fst)
    (q := fun i => (input.switches[i]?.map portIds).getD []) fun i jsonSwitch hi => by
      obtain ⟨switch_, _, entries, hswitch, _, hentries, hkeys, _⟩ := hconvert i jsonSwitch hi
      exact ⟨entries, hentries, by rw [hkeys, hswitch]; rfl⟩
  refine ⟨entries.flatten, ?_, ?_, fun i j switch_ jsonPort hswitch hport => ?_⟩
  · simp only [convertSwitches, bind_eq_ok, pure_eq_ok]
    exact ⟨jsonSwitches, harray, entries, hentries, rfl⟩
  -- the keys are the ports of all switches, which differ
  · have hall : (List.range jsonSwitches.length).map
        (fun i => (input.switches[i]?.map portIds).getD []) = input.switches.map portIds := by
      refine List.ext_getElem (by simp [hlength]) fun i hi hi' => ?_
      simp [List.getElem?_eq_getElem (show i < input.switches.length by simpa using hi')]
    rw [List.map_flatten, hkeys, hall, ← List.flatMap_def]
    exact portIds_nodup hmodules
  · obtain ⟨⟨name, ports⟩, hlisted, hport⟩ := Option.bind_eq_some_iff.mp hport
    obtain ⟨jsonSwitch, hjsonSwitch, -⟩ := getElem?_of_mapM hswitches hlisted
    obtain ⟨switch', ports', es, hswitch', hlisted', hes, -, hall⟩ := hconvert i _ hjsonSwitch
    rw [hswitch, Option.some.injEq] at hswitch'
    subst hswitch'
    rw [hlisted, Option.some.injEq, Prod.mk.injEq] at hlisted'
    obtain ⟨-, rfl⟩ := hlisted'
    obtain ⟨schedules, hschedules, hmem⟩ := hall j jsonPort hport
    obtain ⟨es', hes', hconverted⟩ := mapM_getElem? hentries hjsonSwitch
    rw [hes, Except.ok.injEq] at hconverted
    subst hconverted
    exact ⟨schedules, hschedules, List.mem_flatten.mpr ⟨es, List.mem_of_getElem? hes', hmem⟩⟩

/-- Every flow of the reply is found as the flow that it is the answer for. -/
theorem convertFlows_own (h : TellsApart tree input) {json : ValueMap}
    (hlisting : readListing json = .ok reply) (hnames : reply.names = inputNames tree input)
    (hreadable : ReadableReply order reply) :
    ∃ jsonFlows entries, getArray json "flows" = .ok jsonFlows ∧
      jsonFlows.mapM (convertFlow input) = .ok entries ∧ (entries.map Prod.fst).Nodup ∧
      ∀ (k : Nat) flow jsonFlow, input.flows[k]? = some flow → reply.flow k = some jsonFlow →
        ∃ startTime, readStartTime input flow jsonFlow = .ok startTime ∧
          (k, startTime) ∈ entries := by
  simp only [readListing, bind_eq_ok, pure_eq_ok] at hlisting
  obtain ⟨_, -, switches, -, jsonFlows, harray, flows, hflows, rfl⟩ := hlisting
  -- flow by flow: the first flow of this name is the one that was asked for
  have hconvert : ∀ (k : Nat) json, jsonFlows[k]? = some json →
      ∃ flow jsonFlow startTime, input.flows[k]? = some flow ∧
        flows[k]? = some (flow.name, jsonFlow) ∧
        readStartTime input flow jsonFlow = .ok startTime ∧
        convertFlow input json = .ok (k, startTime) := by
    intro k json hk
    obtain ⟨⟨name, jsonFlow⟩, hlisted, hread⟩ := mapM_getElem? hflows hk
    have hget := congrArg (fun names => names.flows[k]?) hnames
    simp only [Listing.names, inputNames, List.getElem?_map, hlisted, Option.map_some] at hget
    obtain ⟨flow, hflow, rfl⟩ := Option.map_eq_some_iff.mp hget.symm
    obtain ⟨time, htime⟩ := hreadable.flows _ (List.mem_of_getElem? hlisted)
    obtain ⟨startTime, hstart⟩ := exists_adjustStartTime
      (h.startTimes flow (List.mem_of_getElem? hflow)) time
    have hstart' : readStartTime input flow jsonFlow = .ok startTime := by
      simp only [readStartTime, bind_eq_ok, mapError_eq_ok]
      exact ⟨time, htime, hstart⟩
    refine ⟨flow, jsonFlow, startTime, hflow, hlisted, hstart', ?_⟩
    simp only [convertFlow, findFlow, bind_eq_ok, mapError_eq_ok, pure_eq_ok, require_eq_ok]
    exact ⟨_, hread, _, ⟨k, findIdx?_of_nodup h.flows hflow, flow, hflow, rfl⟩, startTime, hstart',
      rfl⟩
  obtain ⟨entries, hentries, hkeys⟩ := exists_mapM_of_getElem? (f := convertFlow input)
    (p := Prod.fst) (q := id) fun k json hk => by
      obtain ⟨_, _, startTime, _, _, _, hconvert⟩ := hconvert k json hk
      exact ⟨_, hconvert, rfl⟩
  refine ⟨jsonFlows, entries, harray, hentries, ?_, fun k flow jsonFlow hflow hjsonFlow => ?_⟩
  · rw [hkeys, List.map_id]
    exact List.nodup_range
  · obtain ⟨⟨name, _⟩, hlisted, rfl⟩ := Option.map_eq_some_iff.mp hjsonFlow
    obtain ⟨json', hjson', -⟩ := getElem?_of_mapM hflows hlisted
    obtain ⟨flow', jsonFlow', startTime, hflow', hlisted', hstart, hconverted⟩ :=
      hconvert k json' hjson'
    rw [hflow, Option.some.injEq] at hflow'
    subst hflow'
    rw [hlisted, Option.some.injEq, Prod.mk.injEq] at hlisted'
    obtain ⟨-, rfl⟩ := hlisted'
    obtain ⟨entry, hentry, hentry'⟩ := mapM_getElem? hentries hjson'
    rw [hconverted, Except.ok.injEq] at hentry'
    subst hentry'
    exact ⟨startTime, hstart, List.mem_of_getElem? hentry⟩

theorem exchangeExact_of_tellsApart {request : ValueMap} {asked : Listing}
    (hasked : readListing request = .ok asked) (haskedNames : asked.names = inputNames tree input)
    (hmodules : (input.switches.map Node.module).Nodup) (h : TellsApart tree input) :
    ExchangeExact tree order numGates input request := by
  rintro json reply hlisting ⟨asked', hasked', hnames⟩ hreadable
  rw [hasked, Except.ok.injEq] at hasked'
  subst hasked'
  rw [haskedNames] at hnames
  obtain ⟨schedules, hschedules, hkeys, hports⟩ :=
    convertSwitches_own hmodules h hlisting hnames hreadable
  obtain ⟨jsonFlows, startTimes, harray, hstart, hflowKeys, hflows⟩ :=
    convertFlows_own h hlisting hnames hreadable
  refine ⟨⟨collect schedules, assignAll startTimes⟩, ?_, ?_, ?_⟩
  · simp only [convertJsonToOutput, bind_eq_ok, pure_eq_ok, mapError_eq_ok]
    exact ⟨schedules, hschedules, jsonFlows, harray, startTimes, hstart, rfl⟩
  · intro i j switch_ jsonPort hswitch hport
    obtain ⟨own, hown, hmem⟩ := hports i j switch_ jsonPort hswitch hport
    exact ⟨own, hown, lookup_collect_of_nodup hkeys hmem⟩
  · intro k flow jsonFlow hflow hjsonFlow
    obtain ⟨startTime, hown, hmem⟩ := hflows k flow jsonFlow hflow hjsonFlow
    exact ⟨startTime, hown, lookup_assignAll_of_nodup hflowKeys hmem⟩

end

/-! ### A reply to every request -/

section

variable (tree : ModuleTree Module) (input : Input Module) (time : Flow Module → Rat)

/-- A port without slots. -/
def echoPort (switch_ : Node Module) (port : Port Module) : Value :=
  .map [("cycleDuration", .int 0 ""), ("name", .string (askedName tree switch_ port)),
    ("prioritySlotsData", .array [])]

def echoSwitch (switch_ : Node Module) : Value :=
  .map [("name", .string (tree.getFullName switch_.module)),
    ("ports", .array (switch_.ports.map (echoPort tree switch_)))]

def echoFlow (flow : Flow Module) : Value :=
  .map [("firstSendingTime", .double (time flow) ""), ("name", .string flow.name)]

/-- A reply that names what was asked about and sends the first packets at the given times. -/
def echo : ValueMap :=
  [("flows", .array (input.flows.map (echoFlow time))),
    ("switches", .array (input.switches.map (echoSwitch tree)))]

def echoListing : Listing :=
  written tree input (echoPort tree)
    (input.flows.map fun flow => (flow.name, fieldsOf (echoFlow time flow)))

variable {tree input time}

theorem readListing_echo : readListing (echo tree input time) = .ok (echoListing tree input time) := by
  refine readListing_written (echoSwitch tree) _ rfl rfl ?_ (fun _ => rfl) ?_ ?_
  · intro switch_
    exact readNamed_eq_ok.mpr ⟨rfl, rfl⟩
  · intro switch_ port
    exact readNamed_eq_ok.mpr ⟨rfl, rfl⟩
  · exact mapM_map_of_ok (fun flow => readNamed_eq_ok.mpr ⟨rfl, rfl⟩) _

theorem echoListing_readable {order : SlotSort} :
    ReadableReply order (echoListing tree input time) where
  ports := by
    intro switch_ hswitch port hport gateIndex
    obtain ⟨node, -, rfl⟩ := List.mem_map.mp hswitch
    obtain ⟨port, -, rfl⟩ := List.mem_map.mp hport
    exact ⟨_, rfl⟩
  flows := by
    intro flow hflow
    obtain ⟨flow, -, rfl⟩ := List.mem_map.mp hflow
    exact ⟨_, rfl⟩

theorem echoListing_names : (echoListing tree input time).names = inputNames tree input :=
  written_names (by simp)

theorem echoListing_port {i j : Nat} {switch_ : Node Module} {port : Port Module}
    (hswitch : input.switches[i]? = some switch_) (hport : switch_.ports[j]? = some port) :
    (echoListing tree input time).port i j = some (fieldsOf (echoPort tree switch_ port)) := by
  simp [echoListing, written, Listing.port, hswitch, hport]

theorem echoListing_flow {k : Nat} {flow : Flow Module} (hflow : input.flows[k]? = some flow) :
    (echoListing tree input time).flow k = some (fieldsOf (echoFlow time flow)) := by
  simp [echoListing, written, Listing.flow, hflow]

theorem readFirstSendingTime_echo (flow : Flow Module) :
    readFirstSendingTime (fieldsOf (echoFlow time flow)) = .ok (time flow / 1000000) := rfl

end

/-! ### What a conversion says about names -/

section

variable [DecidableEq Module] {tree : ModuleTree Module} {order : SlotSort}
  {numGates : PortId Module → Int} {input : Input Module} {json : ValueMap}
  {output : Output (PortId Module) Nat}

/-- Schedules are stored for a port that was found by its name. -/
theorem found_of_schedulesOf
    (h : convertJsonToOutput tree order numGates input json = .ok output) {m : Module} {j : Nat}
    {schedules : List Schedule} (hschedules : output.schedulesOf (m, j) = some schedules) :
    ∃ switch_ name port, findSwitch tree input.switches name = .ok switch_ ∧ switch_.module = m ∧
      findPort tree switch_ port = .ok j := by
  simp only [convertJsonToOutput, convertSwitches, bind_eq_ok, pure_eq_ok, mapError_eq_ok] at h
  obtain ⟨_, ⟨jsonSwitches, -, entries, hentries, rfl⟩, _, -, startTimes, -, rfl⟩ := h
  rw [Output.schedulesOf, lookup_collect] at hschedules
  split at hschedules
  · next hkey =>
    obtain ⟨⟨key, own⟩, hmem, rfl⟩ := List.mem_map.mp hkey
    obtain ⟨ports, hports, hmem⟩ := List.mem_flatten.mp hmem
    obtain ⟨i, hi⟩ := List.mem_iff_getElem?.mp hports
    obtain ⟨jsonSwitch, -, hconvert⟩ := getElem?_of_mapM hentries hi
    simp only [convertSwitch, bind_eq_ok] at hconvert
    obtain ⟨⟨name, _⟩, -, switch_, hfind, jsonPorts, -, hports⟩ := hconvert
    obtain ⟨l, hl⟩ := List.mem_iff_getElem?.mp hmem
    obtain ⟨jsonPort, -, hconvert⟩ := getElem?_of_mapM hports hl
    simp only [convertPort, bind_eq_ok, pure_eq_ok, Prod.mk.injEq] at hconvert
    obtain ⟨⟨port, _⟩, -, _, hport, _, -, ⟨rfl, rfl⟩, -⟩ := hconvert
    exact ⟨switch_, name, portName port, hfind, rfl, hport⟩
  · cases hschedules

theorem found_of_startTimeOf
    (h : convertJsonToOutput tree order numGates input json = .ok output) {k : Nat} {startTime : Int}
    (hstart : output.startTimeOf k = some startTime) :
    ∃ name flow, findFlow input.flows name = .ok (k, flow) := by
  simp only [convertJsonToOutput, bind_eq_ok, pure_eq_ok, mapError_eq_ok] at h
  obtain ⟨_, -, jsonFlows, -, startTimes, hstartTimes, rfl⟩ := h
  rw [Output.startTimeOf, lookup_assignAll] at hstart
  obtain ⟨i, hi⟩ := List.mem_iff_getElem?.mp (List.mem_reverse.mp (mem_of_lookup hstart))
  obtain ⟨jsonFlow, -, hconvert⟩ := getElem?_of_mapM hstartTimes hi
  simp only [convertFlow, bind_eq_ok, pure_eq_ok, mapError_eq_ok, Prod.mk.injEq] at hconvert
  obtain ⟨⟨name, _⟩, -, ⟨_, flow⟩, hfind, _, -, rfl, -⟩ := hconvert
  exact ⟨name, flow, hfind⟩

/-- Names that differ from all earlier ones. -/
theorem nodup_of_earlier {α : Type} {key : α → String} {l : List α}
    (h : ∀ (j : Nat) a, l[j]? = some a → ∃ name, l.findIdx? (fun a => key a = name) = some j) :
    (l.map key).Nodup := by
  rw [List.Nodup, List.pairwise_map, List.pairwise_iff_getElem]
  intro i j hi hj hij heq
  obtain ⟨name, hfind⟩ := h j _ (List.getElem?_eq_getElem hj)
  obtain ⟨a, ha, rfl, hbefore⟩ := (findIdx?_eq_some_iff (f := key)).mp hfind
  rw [List.getElem?_eq_getElem hj, Option.some.injEq] at ha
  subst ha
  exact hbefore i hij _ (List.getElem?_eq_getElem hi) heq

/-- The time at which the start time of a flow becomes negative. -/
def tooEarly (input : Input Module) (flow : Flow Module) : Rat :=
  ((transmissionTime input flow.startApplication).getD 0 - 1) * 1000000

theorem startTimes_of_tooEarly {flow : Flow Module} {startTime : Int}
    (h : adjustStartTime input flow.startApplication (tooEarly input flow / 1000000) =
      .ok startTime) :
    transmissionTime input flow.startApplication ≠ none ∧
      0 < flow.startApplication.packetInterval := by
  simp only [adjustStartTime, bind_eq_ok, pure_eq_ok, require_eq_ok] at h
  obtain ⟨transmission, htransmission, r, hr, -⟩ := h
  refine ⟨by rw [htransmission]; exact Option.some_ne_none _, ?_⟩
  have hstart : tooEarly input flow / 1000000 - transmission = -1 := by
    rw [tooEarly, htransmission, Option.getD_some]
    linarith
  rcases (whileNegative_turns _ _).mp ⟨r, hr⟩ with hnonneg | hinterval
  · rw [hstart] at hnonneg
    norm_num at hnonneg
  · by_contra hnot
    have hle : (flow.startApplication.packetInterval : Rat) ≤ 0 := by exact_mod_cast not_lt.mp hnot
    exact absurd hinterval (not_lt.mpr (div_nonpos_of_nonpos_of_nonneg hle (by norm_num)))

theorem tellsApart_of_exchangeExact {request : ValueMap} {asked : Listing}
    (hasked : readListing request = .ok asked) (haskedNames : asked.names = inputNames tree input)
    (hmodules : (input.switches.map Node.module).Nodup)
    (h : ExchangeExact tree order numGates input request) : TellsApart tree input := by
  -- a reply that echoes the names of the input, with start times before time zero, is enough
  have hecho : readListing (echo tree input (tooEarly input)) = .ok _ := readListing_echo
  obtain ⟨output, hconvert, hports, hflows⟩ := h _ _ hecho
    ⟨asked, hasked, echoListing_names.trans haskedNames.symm⟩ echoListing_readable
  -- what is stored for a port was found by some name
  have hstored : ∀ (i j : Nat) switch_ port, input.switches[i]? = some switch_ →
      switch_.ports[j]? = some port → ∃ switch' name portName,
        findSwitch tree input.switches name = .ok switch' ∧ switch'.module = switch_.module ∧
        findPort tree switch' portName = .ok j := by
    intro i j switch_ port hswitch hport
    obtain ⟨_, -, hschedules⟩ := hports i j switch_ _ hswitch (echoListing_port hswitch hport)
    exact found_of_schedulesOf hconvert hschedules
  have hsame : ∀ a ∈ input.switches, ∀ b ∈ input.switches, a.module = b.module → a = b :=
    fun a ha b hb heq => List.inj_on_of_nodup_map hmodules ha hb heq
  refine ⟨?_, ?_, ?_, ?_⟩
  · intro i j a b hij ha hb hne heq
    obtain ⟨port, hport⟩ : ∃ port, b.ports[0]? = some port :=
      ⟨_, List.getElem?_eq_getElem (List.length_pos_of_ne_nil hne)⟩
    obtain ⟨b', name, _, hfind, hmodule, -⟩ := hstored j 0 b port hb hport
    rw [findSwitch, require_eq_ok] at hfind
    obtain rfl := hsame b' (List.mem_of_find?_eq_some hfind) b (List.mem_of_getElem? hb) hmodule
    obtain ⟨hname, j', hj', hget, hbefore⟩ := List.find?_eq_some_iff_getElem.mp hfind
    obtain ⟨hj, hget'⟩ := List.getElem?_eq_some_iff.mp hb
    obtain rfl : j' = j :=
      (List.Nodup.of_map _ hmodules).getElem_inj_iff.mp (hget.trans hget'.symm)
    obtain ⟨hi, rfl⟩ := List.getElem?_eq_some_iff.mp ha
    -- the search takes the first switch of a name, and `a` would come first
    have hfirst := hbefore i hij
    simp only [decide_eq_true_eq] at hname
    simp [heq, hname] at hfirst
  · intro switch_ hswitch
    obtain ⟨i, hi⟩ := List.mem_iff_getElem?.mp hswitch
    refine nodup_of_earlier fun j port hport => ?_
    obtain ⟨switch', _, portName, hfind, hmodule, hfound⟩ := hstored i j switch_ port hi hport
    rw [findSwitch, require_eq_ok] at hfind
    obtain rfl := hsame switch' (List.mem_of_find?_eq_some hfind) switch_ hswitch hmodule
    exact ⟨portName, by rwa [findPort, require_eq_ok] at hfound⟩
  · refine nodup_of_earlier fun k flow hflow => ?_
    obtain ⟨startTime, -, hstart⟩ := hflows k flow _ hflow (echoListing_flow hflow)
    obtain ⟨name, flow', hfind⟩ := found_of_startTimeOf hconvert hstart
    simp only [findFlow, bind_eq_ok, pure_eq_ok, require_eq_ok, Prod.mk.injEq] at hfind
    obtain ⟨_, hindex, _, -, rfl, -⟩ := hfind
    exact ⟨name, hindex⟩
  · intro flow hmem
    obtain ⟨k, hk⟩ := List.mem_iff_getElem?.mp hmem
    obtain ⟨startTime, hstart, -⟩ := hflows k flow _ hk (echoListing_flow hk)
    simp only [readStartTime, readFirstSendingTime_echo, bind_eq_ok, mapError_eq_ok,
      Except.ok.injEq, exists_eq_left'] at hstart
    exact startTimes_of_tooEarly hstart

/-- The modules of the switches differ. -/
theorem switches_nodup {ops : ValueOps} {topology : Topology Module} {pcpOrder : PcpSort Module}
    {configuration : List Value}
    (h : createGateSchedulingInput tree ops topology pcpOrder configuration = .ok input) :
    (input.switches.map Node.module).Nodup := by
  simp only [createGateSchedulingInput, bind_eq_ok, pure_eq_ok] at h
  obtain ⟨_, -, rfl⟩ := h
  exact topology.nodup.sublist (List.filter_sublist.map _)

/--
**Every reply to the request is converted, and every result stored for the very port or flow that
was asked about, iff the names tell them apart** and the start times can be moved.
-/
theorem exchange_exact_iff {ops : ValueOps} {topology : Topology Module}
    {pcpOrder : PcpSort Module} {configuration : List Value} {gateCycleDuration : Int}
    {request : ValueMap} (order : SlotSort) (numGates : PortId Module → Int)
    (hinput : createGateSchedulingInput tree ops topology pcpOrder configuration = .ok input)
    (hrequest : convertInputToJson tree ops configuration gateCycleDuration input = .ok request) :
    ExchangeExact tree order numGates input request ↔ TellsApart tree input := by
  obtain ⟨asked, hasked, hnames⟩ := request_listing hrequest
  have hmodules := switches_nodup hinput
  exact ⟨tellsApart_of_exchangeExact hasked hnames hmodules,
    exchangeExact_of_tellsApart hasked hnames hmodules⟩

end

/-! ## Devices behind a switch -/

/-- The network card bridges the two devices. -/
def bridgedTopology : Topology (Fin 14) where
  nodes := [
    ⟨2, true, false, [carPort 10 "eth0" 4 12, carPort 11 "eth1" 5 13]⟩,
    ⟨4, true, true, [carPort 12 "eth0" 2 10]⟩,
    ⟨5, true, true, [carPort 13 "eth0" 2 11]⟩]
  nodup := by decide
  graph := carGraph
  attributes := NodeGraph.defaultAttributes

/-- Flows from each device to each device. -/
def meshEntry (more : List (String × Value)) : ValueMap :=
  record ([("source", .string "tsnDevice"), ("destination", .string "tsnDevice"),
    ("pcp", .int 4 ""), ("gateIndex", .int 4 ""), ("packetLength", .int 100 "B"),
    ("packetInterval", .int 10 "ms"), ("application", .string "eth[0]")] ++ more)

/-- An input and its request, from a check of the flows in the order of the entries. -/
theorem exists_bridgedInput (configuration : List Value)
    (hvalid : ∀ value ∈ configuration, ValidEntry value) (check : List (Flow (Fin 14)) → Bool)
    (h : (collectFlows carNetwork.tree basicOps bridgedTopology configuration 0).toOption.any
      (fun perEntry => perEntry.flatten.all (fun flow => decide (HasPath flow)) &&
        check perEntry.flatten) = true) :
    ∃ input request flows,
      createGateSchedulingInput carNetwork.tree basicOps bridgedTopology stableSort configuration =
        .ok input ∧
      convertInputToJson carNetwork.tree basicOps configuration 1000000000 input = .ok request ∧
      input.devices = bridgedTopology.devices ∧ input.switches = bridgedTopology.switches ∧
      input.flows.Perm flows ∧ check flows = true := by
  obtain ⟨perEntry, hcollect, hall⟩ := exists_of_any h
  rw [Bool.and_eq_true] at hall
  have hpath : ∀ flow ∈ stableSort.sort perEntry.flatten, HasPath flow := by
    intro flow hflow
    exact of_decide_eq_true
      (List.all_eq_true.mp hall.1 flow ((stableSort.sort_perm _).mem_iff.mp hflow))
  obtain ⟨request, hrequest⟩ : ∃ request, convertInputToJson carNetwork.tree basicOps configuration
      1000000000 ⟨bridgedTopology.devices, bridgedTopology.switches,
        stableSort.sort perEntry.flatten⟩ = .ok request :=
    (exists_convertInputToJson _).mpr
      (exists_mapM_ok.mpr fun flow hflow => jsonFlow_of_valid hvalid (hpath flow hflow))
  refine ⟨_, request, perEntry.flatten, ?_, hrequest, rfl, rfl, stableSort.sort_perm _, hall.2⟩
  simp only [createGateSchedulingInput, bind_eq_ok, pure_eq_ok]
  exact ⟨_, addFlows_perm.mpr ⟨perEntry, hcollect, rfl⟩, rfl⟩

/-- Numbered flows can be told apart. -/
theorem exchange_exact_unnamed :
    ∃ input request,
      createGateSchedulingInput carNetwork.tree basicOps bridgedTopology stableSort
        [.map (meshEntry [])] = .ok input ∧
      convertInputToJson carNetwork.tree basicOps [.map (meshEntry [])] 1000000000 input =
        .ok request ∧
      ExchangeExact carNetwork.tree stableSlotSort (fun _ => 8) input request := by
  have hvalid : ∀ value ∈ [Value.map (meshEntry [])], ValidEntry value :=
    List.forall_mem_singleton.mpr (.of_isOk (by decide +kernel) (by decide +kernel))
  obtain ⟨input, request, flows, hinput, hrequest, hdevices, hswitches, hperm, hcheck⟩ :=
    exists_bridgedInput [.map (meshEntry [])] hvalid (fun flows =>
      decide ((flows.map Flow.name).Nodup) && flows.all fun flow =>
        decide (flow.startApplication.device ∈ [4, 5] ∧ 0 < flow.startApplication.packetInterval))
      (by decide +kernel)
  rw [Bool.and_eq_true, List.all_eq_true] at hcheck
  refine ⟨input, request, hinput, hrequest,
    (exchange_exact_iff stableSlotSort (fun _ => 8) hinput hrequest).mpr ⟨?_, ?_, ?_, ?_⟩⟩
  · intro i j a b hij ha hb
    rw [hswitches] at hb
    obtain ⟨hj, -⟩ := List.getElem?_eq_some_iff.mp hb
    have hone : bridgedTopology.switches.length = 1 := by decide
    omega
  · rw [hswitches]
    decide +kernel
  · exact (hperm.map Flow.name).nodup_iff.mpr (of_decide_eq_true hcheck.1)
  · intro flow hflow
    obtain ⟨hdevice, hinterval⟩ := of_decide_eq_true (hcheck.2 flow (hperm.mem_iff.mp hflow))
    refine ⟨?_, hinterval⟩
    rw [transmissionTime, hdevices]
    simp only [List.mem_cons, List.not_mem_nil, or_false] at hdevice
    rcases hdevice with hdevice | hdevice <;> rw [hdevice] <;>
      simp [Topology.devices, bridgedTopology, isBridgeNode, carPort]

/-- The flows of an entry with a name share it, and the results of all of them go to the first. -/
theorem named_flows_are_merged :
    ∃ input request,
      createGateSchedulingInput carNetwork.tree basicOps bridgedTopology stableSort
        [.map (meshEntry [("name", .string "a")])] = .ok input ∧
      convertInputToJson carNetwork.tree basicOps [.map (meshEntry [("name", .string "a")])]
        1000000000 input = .ok request ∧
      ¬ ExchangeExact carNetwork.tree stableSlotSort (fun _ => 8) input request := by
  have hvalid : ∀ value ∈ [Value.map (meshEntry [("name", .string "a")])], ValidEntry value :=
    List.forall_mem_singleton.mpr (.of_isOk (by decide +kernel) (by decide +kernel))
  obtain ⟨input, request, flows, hinput, hrequest, -, -, hperm, hcheck⟩ :=
    exists_bridgedInput [.map (meshEntry [("name", .string "a")])] hvalid
      (fun flows => decide (¬ (flows.map Flow.name).Nodup)) (by decide +kernel)
  obtain ⟨asked, hasked, hnames⟩ := request_listing hrequest
  refine ⟨input, request, hinput, hrequest, fun h => ?_⟩
  have hnodup := (tellsApart_of_exchangeExact hasked hnames (switches_nodup hinput) h).flows
  exact of_decide_eq_true hcheck ((hperm.map Flow.name).nodup_iff.mp hnodup)

end CooperativeTsn
