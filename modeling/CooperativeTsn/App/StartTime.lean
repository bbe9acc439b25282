import CooperativeTsn.App.Accounting
import CooperativeTsn.Flow.Request
import CooperativeTsn.Stream.Reservation
import Mathlib.Algebra.Order.Field.Rat
import Mathlib.Tactic.Linarith

/-!
# From the arrivals to the request

A start time is the earliest offset in the window, moved back by a twentieth of the spread. The
remainder that should bring it back into the cycle keeps its sign, so that an early window gives a
negative time, and the request takes a time that is not positive for one that is missing.

* `entryStartTime_printed` — the text keeps it
* `sent_iff` — it is in the request iff it is positive
* `start_time_reaches_iff` — both together, in terms of the arrivals
-/

namespace CooperativeTsn

open Infra Infra.Runs Infra.SimTime

variable {Module : Type}

/-! ## Start times in the text -/

section

variable {tree : ModuleTree Module} {ops : ValueOps} {s : TsnStream Module} {entry : ValueMap}
  {streams : List (TsnStream Module)} {configuration : List Value}

theorem toSimTime_seconds (t : Int) : toSimTime ((t : Rat) / 1000000000000) = t := by
  have hdiv : (t : Rat) / 1000000000000 * 1000000000000 = t :=
    div_mul_cancel₀ _ (by norm_num)
  rw [toSimTime, hdiv]
  refine Int.le_antisymm (Int.le_of_lt_add_one ?_) ?_
  · rw [Rat.floor_lt_iff]
    push_cast
    linarith
  · rw [Rat.le_floor_iff]
    linarith

theorem printStream_eq_ok (h : printStream tree ops s = .ok entry) :
    ∃ application source destination fragments,
      entry = printedFields tree ops s application source destination fragments := by
  simp only [printStream, bind_eq_ok, require_eq_ok, ensure_eq_ok, pure_eq_ok] at h
  obtain ⟨-, -, app, -, src, -, dst, -, fragments, -, rfl⟩ := h
  exact ⟨app, src, dst, fragments, rfl⟩

/-- The text keeps the start time. -/
theorem entryStartTime_printed (h : printStream tree ops s = .ok entry) :
    entryStartTime entry = .ok s.startTime := by
  obtain ⟨app, src, dst, fragments, rfl⟩ := printStream_eq_ok h
  rw [entryStartTime, ValueMap.getOptional, printedFields_lookup_startTime]
  exact congrArg Except.ok (toSimTime_seconds s.startTime)

/-- A printed stream has its name, whatever the numbers are. -/
theorem flowName_printed (h : printStream tree ops s = .ok entry) (n : Nat) :
    flowName entry n = .ok (s.streamName, n) := by
  obtain ⟨app, src, dst, fragments, rfl⟩ := printStream_eq_ok h
  exact flowName_of_readable (printedFields_readable tree ops s app src dst fragments)

theorem printed_validEntry (h : printStream tree ops s = .ok entry) : ValidEntry (.map entry) := by
  refine .of_isOk ?_ ?_
  · rw [flowName_printed h]
    rfl
  · rw [entryStartTime_printed h]
    rfl

theorem printStreams_eq_mapM : ∀ streams : List (TsnStream Module),
    printStreams tree ops streams = streams.mapM fun s => (printStream tree ops s).map .map
  | [] => rfl
  | s :: streams => by
    rw [printStreams, List.mapM_cons, printStreams_eq_mapM streams]
    cases printStream tree ops s <;> rfl

/-- The entry of a stream of the configuration. -/
theorem printStreams_getElem? (h : printStreams tree ops streams = .ok configuration) {k : Nat}
    (hk : streams[k]? = some s) :
    ∃ entry, configuration[k]? = some (.map entry) ∧ printStream tree ops s = .ok entry := by
  rw [printStreams_eq_mapM] at h
  obtain ⟨value, hvalue, hentry⟩ := mapM_getElem? h hk
  obtain ⟨entry, hprint, rfl⟩ := map_eq_ok.mp hentry
  exact ⟨entry, hvalue, hprint⟩

/-- The stream of an entry of the configuration. -/
theorem getElem?_of_printStreams (h : printStreams tree ops streams = .ok configuration) {k : Nat}
    {value : Value} (hk : configuration[k]? = some value) :
    ∃ s entry, streams[k]? = some s ∧ value = .map entry ∧ printStream tree ops s = .ok entry := by
  rw [printStreams_eq_mapM] at h
  obtain ⟨s, hs, hentry⟩ := getElem?_of_mapM h hk
  obtain ⟨entry, hprint, rfl⟩ := map_eq_ok.mp hentry
  exact ⟨s, entry, hs, rfl, hprint⟩

/-- Entry and stream have the same name. -/
theorem nameAt_printed (h : printStreams tree ops streams = .ok configuration)
    (weight : Value → Nat) (n k : Nat) :
    nameAt weight configuration n k = streams[k]?.map TsnStream.streamName := by
  rw [nameAt]
  cases hk : configuration[k]? with
  | none =>
    have hlength : streams.length ≤ k := by
      by_contra hlt
      obtain ⟨_, hentry, -⟩ := printStreams_getElem? h
        (List.getElem?_eq_getElem (Nat.lt_of_not_le hlt))
      rw [hk] at hentry
      cases hentry
    rw [List.getElem?_eq_none hlength]
    rfl
  | some value =>
    obtain ⟨s, entry, hs, rfl, hprint⟩ := getElem?_of_printStreams h hk
    rw [hs, Option.bind_some, nameOf, flowName_printed hprint]
    rfl

end

/-! ## Start times in the request -/

section

variable [DecidableEq Module] {tree : ModuleTree Module} {ops : ValueOps}
  {topology : Topology Module} {order : PcpSort Module} {streams : List (TsnStream Module)}
  {configuration : List Value} {input : Input Module} {json : ValueMap} {s : TsnStream Module}

/-- The streams are printed, and the request is built from what is printed. -/
structure Requested (tree : ModuleTree Module) (ops : ValueOps) (topology : Topology Module)
    (order : PcpSort Module) (streams : List (TsnStream Module)) (configuration : List Value)
    (input : Input Module) (json : ValueMap) : Prop where
  printed : getSchedulerConfiguration tree ops streams = .ok configuration
  created : createGateSchedulingInput tree ops topology order configuration = .ok input
  converted : ∃ gateCycleDuration,
    convertInputToJson tree ops configuration gateCycleDuration input = .ok json

/-- The flow `i` of the request carries the start time. -/
def SentWith (ops : ValueOps) (json : ValueMap) (i : Nat) (startTime : Int) : Prop :=
  ∃ jsonFlows fields, json.lookup "flows" = some (.array jsonFlows) ∧
    jsonFlows[i]? = some (.map fields) ∧
    fields.lookup "firstSendingTime" = some (.string (ops.simTimeStr startTime))

/-- **A start time that is no other stream's is in the request iff it is positive.** -/
theorem sent_iff (h : Requested tree ops topology order streams configuration input json) {k : Nat}
    (hk : (emittedStreams streams)[k]? = some s)
    (hname : ∀ (j : Nat) s', (emittedStreams streams)[j]? = some s' →
      s'.streamName = s.streamName → j = k) {i : Nat} {flow : Flow Module}
    (hmade : MadeFrom tree ops topology configuration k flow) (hi : input.flows[i]? = some flow) :
    SentWith ops json i s.startTime ↔ 0 < s.startTime := by
  obtain ⟨entry, hentry, hprint⟩ := printStreams_getElem? h.printed hk
  obtain ⟨p, -, hflow⟩ := hmade.name hentry
  rw [generatedName, nameAt_printed h.printed, hk, Option.map_some, Option.some.injEq] at hflow
  -- no other stream has the name, so the entry of this one is the last that has it
  have hlast : LastNamed configuration 0 flow.name k := by
    refine ⟨by rw [nameAt_printed h.printed, hk, Option.map_some, hflow], fun j hj hsame => ?_⟩
    rw [nameAt_printed h.printed, Option.map_eq_some_iff] at hsame
    obtain ⟨s', hs', heq⟩ := hsame
    have := hname j s' hs' (heq.trans hflow.symm)
    omega
  -- every entry was printed for a stream
  have hvalid : ∀ value ∈ configuration, ValidEntry value := by
    intro value hvalue
    obtain ⟨j, hj⟩ := List.mem_iff_getElem?.mp hvalue
    obtain ⟨_, _, -, rfl, hprinted⟩ := getElem?_of_printStreams h.printed hj
    exact printed_validEntry hprinted
  obtain ⟨gateCycleDuration, hjson⟩ := h.converted
  obtain ⟨flows, hflows, hlookup⟩ := convertInputToJson_eq_ok hjson
  obtain ⟨fields, hfields, hjsonFlow⟩ := mapM_getElem? hflows hi
  obtain ⟨-, t, ht, hsending⟩ := jsonFlow_eq_ok hjsonFlow
  have hstart : t = s.startTime := by
    obtain ⟨t', ht', hcases⟩ := findStartTime_eq flow.name 0 noStartTime hvalid
    rw [ht, Except.ok.injEq] at ht'
    subst ht'
    rcases hcases with ⟨k', entry', hlast', hentry', hstart⟩ | ⟨hnone, -⟩
    · obtain rfl := hlast'.unique hlast
      rw [hentry, Option.some.injEq, Value.map.injEq] at hentry'
      rw [← hentry', entryStartTime_printed hprint, Except.ok.injEq] at hstart
      exact hstart.symm
    · exact absurd hlast.1 (hnone k)
  subst hstart
  constructor
  · rintro ⟨jsonFlows, fields', hjsonFlows, hfields', hsent⟩
    rw [hlookup, Option.some.injEq, Value.array.injEq] at hjsonFlows
    rw [← hjsonFlows, List.getElem?_map, hfields, Option.map_some, Option.some.injEq,
      Value.map.injEq] at hfields'
    rw [← hfields', hsending] at hsent
    by_contra hneg
    rw [if_neg hneg] at hsent
    cases hsent
  · intro hpos
    refine ⟨_, fields, hlookup, by rw [List.getElem?_map, hfields, Option.map_some], ?_⟩
    rw [hsending, if_pos hpos]

open TsnStream in
/--
**Start times stay in the cycle and reach the scheduler exactly when** every update finds its
earliest offset at least a twentieth of the spread behind the start of the cycle, and the last one
finds it later than that.
-/
theorem start_time_reaches_iff {c : Int} (hc : 0 ≤ c) (hs : s.Fresh) {times : List Int}
    (htimes : ∀ t ∈ times, c ≤ t) (hlength : 2 ≤ times.length)
    (h : Requested tree ops topology order streams configuration input json) {k : Nat}
    (hk : (emittedStreams streams)[k]? = some (s.receive (getCreationTimeOffset c) times))
    (hname : ∀ (j : Nat) s', (emittedStreams streams)[j]? = some s' →
      s'.streamName = s.streamName → j = k) {i : Nat} {flow : Flow Module}
    (hmade : MadeFrom tree ops topology configuration k flow) (hi : input.flows[i]? = some flow) :
    (StartTimesInCycle (getCreationTimeOffset c) times s ∧
        SentWith ops json i (s.receive (getCreationTimeOffset c) times).startTime) ↔
      (∀ n ≤ times.length, n % updateIntervall = 2 → ∀ m M,
        IsSpan (held (getCreationTimeOffset c) (times.take n)) m M → (M - m) / 20 ≤ m) ∧
      ∃ m M, IsSpan (held (getCreationTimeOffset c) (times.take (lastUpdate times.length))) m M ∧
        (M - m) / 20 < m := by
  have hheld : ∀ n ≤ times.length, ∀ a ∈ held (getCreationTimeOffset c) (times.take n),
      0 ≤ a ∧ a < cycleTime :=
    fun n _ => held_bounds hc fun t ht => htimes t (List.mem_of_mem_take ht)
  have hnonneg : ∀ n ≤ times.length, ∀ a ∈ held (getCreationTimeOffset c) (times.take n), 0 ≤ a :=
    fun n hn a ha => (hheld n hn a ha).1
  -- behind the last update the start time stays, so the last update decides what is sent
  obtain ⟨hup, hle, hlen, hno⟩ := lastUpdate_isUpdate hlength
  have hsteady : (s.receive (getCreationTimeOffset c) (times.take times.length)).startTime = _ :=
    (receive_steady hs (by omega) hlen (Nat.le_refl _) hno).1
  have hstart := (receive_startTime hs (hheld _ hlen) (by
    rwa [List.length_take, Nat.min_eq_left hlen])).1
  rw [List.take_length] at hsteady
  rw [startTimesInCycle_iff hs hheld, sent_iff h hk (by simpa [receive_streamName] using hname)
    hmade hi, hsteady, hstart, movedBack_pos_iff (hnonneg _ hlen)]
  refine and_congr_left fun _ => forall_congr' fun n => forall_congr' fun hn =>
    forall_congr' fun _ => movedBack_nonneg_iff (hnonneg n hn)

end

/-! ## The station of a car -/

/-- The stream that a car registers for the station. -/
def stationStream : TsnStream (Fin 14) :=
  { deviceStream with
    streamName := "Net.rsu-tsnNic-PCP0-tsnDevice"
    pcp := 0
    gateIndex := 0
    externalSourceModule := some 9
    packetInterval := 0 }

theorem stationStream_printable (off : Int) (times : List Int) :
    Printable (stationStream.receive off times).streamName := by
  rw [TsnStream.receive_streamName]
  exact printable_of_all (by decide +kernel)

/-- A request for one stream of a car. -/
theorem exists_carRequest {s : TsnStream (Fin 14)} (entry : ValueMap) (hs : s.packetInterval ≠ 0)
    (hprint : printStream carNetwork.tree basicOps s = .ok entry)
    (hpairs : 0 < pairCount carNetwork.tree carTopology (.map entry))
    (hcollect : (collectFlows carNetwork.tree basicOps carTopology [.map entry] 0).toOption.any
      (fun perEntry => decide (∀ flow ∈ perEntry.flatten, HasPath flow)) = true) :
    (emittedStreams [s])[0]? = some s ∧
    (∀ (j : Nat) s', (emittedStreams [s])[j]? = some s' → s'.streamName = s.streamName → j = 0) ∧
    ∃ input json flow, ∃ i : Nat,
      Requested carNetwork.tree basicOps carTopology stableSort [s] [.map entry] input json ∧
      MadeFrom carNetwork.tree basicOps carTopology [.map entry] 0 flow ∧
      input.flows[i]? = some flow := by
  have hemitted : emittedStreams [s] = [s] := List.filter_cons_of_pos (decide_eq_true hs)
  have hprinted : getSchedulerConfiguration carNetwork.tree basicOps [s] = .ok [.map entry] := by
    rw [getSchedulerConfiguration, hemitted]
    simp only [printStreams, hprint, bind_eq_ok, pure_eq_ok]
    exact ⟨entry, rfl, [], rfl, rfl⟩
  obtain ⟨input, hinput, hpath⟩ := exists_carInput [.map entry] hcollect
  obtain ⟨json, hjson⟩ := (exists_convertInputToJson 0).mpr (exists_mapM_ok.mpr fun flow hflow =>
    jsonFlow_of_valid (List.forall_mem_singleton.mpr (printed_validEntry hprint))
      (hpath flow hflow))
  have hname : generatedName carNetwork.tree carTopology [.map entry] 0 0 = some s.streamName := by
    rw [getSchedulerConfiguration, hemitted] at hprinted
    rw [generatedName, nameAt_printed hprinted]
    rfl
  obtain ⟨flow, i, hmade, hi, -⟩ := exists_flow hinput rfl hpairs hname
  refine ⟨by rw [hemitted]; rfl, fun j _ hj _ => ?_, input, json, flow, i,
    ⟨hprinted, hinput, 0, hjson⟩, hmade, hi⟩
  rw [hemitted] at hj
  simpa using (List.getElem?_eq_some_iff.mp hj).1

/-- Arrivals at 20 ms and 30 ms: the start time is 19.5 ms. -/
theorem start_time_reaches_late :
    ∃ json i,
      TsnStream.StartTimesInCycle (getCreationTimeOffset 0) [20 * ms, 30 * ms] stationStream ∧
      SentWith basicOps json i
        (stationStream.receive (getCreationTimeOffset 0) [20 * ms, 30 * ms]).startTime := by
  obtain ⟨hk, hname, input, json, flow, i, h, hmade, hi⟩ := exists_carRequest
    (s := stationStream.receive (getCreationTimeOffset 0) [20 * ms, 30 * ms])
    (printedFields carNetwork.tree basicOps
      (stationStream.receive (getCreationTimeOffset 0) [20 * ms, 30 * ms]) 3 2 4 [])
    (by decide +kernel) (printStream_of_modules (stationStream_printable _ _) (by decide +kernel)
      (by decide +kernel) (by decide +kernel) (by decide +kernel))
    (by decide +kernel) (by decide +kernel)
  have hspan : TsnStream.IsSpan (TsnStream.held (getCreationTimeOffset 0) [20 * ms, 30 * ms])
      (20 * ms) (30 * ms) := ⟨by decide, by decide, by decide, by decide, by decide⟩
  refine ⟨json, i, (start_time_reaches_iff (by decide) ⟨rfl, rfl, by decide⟩ (by decide)
    (by decide) h hk (by simpa [TsnStream.receive_streamName] using hname) hmade hi).mpr
    ⟨?_, 20 * ms, 30 * ms, hspan, by decide⟩⟩
  intro n hn hup m M hmM
  obtain rfl : n = 2 := by
    simp only [List.length_cons, List.length_nil, TsnStream.updateIntervall] at hn hup
    omega
  obtain ⟨rfl, rfl⟩ := hmM.unique hspan
  decide

/-- Arrivals at 1 ms and 50 ms: the start time is 1.45 ms before the cycle, and is not sent. -/
theorem early_start_leaves_cycle :
    run (adaptSchedule carSurroundings carSite [carRule "msg" "tsnDevice[0]"])
        [(1 * ms, carPacket "msg"), (50 * ms, carPacket "msg")] [] =
      .ok [stationStream.receive (getCreationTimeOffset 0) [1 * ms, 50 * ms]] ∧
    ∃ configuration input json flow, ∃ i : Nat,
      Requested carNetwork.tree basicOps carTopology stableSort
        [stationStream.receive (getCreationTimeOffset 0) [1 * ms, 50 * ms]] configuration input
        json ∧
      MadeFrom carNetwork.tree basicOps carTopology configuration 0 flow ∧
      input.flows[i]? = some flow ∧
      ¬ TsnStream.StartTimesInCycle (getCreationTimeOffset 0) [1 * ms, 50 * ms] stationStream ∧
      ¬ SentWith basicOps json i
        (stationStream.receive (getCreationTimeOffset 0) [1 * ms, 50 * ms]).startTime := by
  have hstart : (stationStream.receive (getCreationTimeOffset 0) [1 * ms, 50 * ms]).startTime =
      -1450000000 := by decide +kernel
  obtain ⟨hk, hname, input, json, flow, i, h, hmade, hi⟩ := exists_carRequest
    (s := stationStream.receive (getCreationTimeOffset 0) [1 * ms, 50 * ms])
    (printedFields carNetwork.tree basicOps
      (stationStream.receive (getCreationTimeOffset 0) [1 * ms, 50 * ms]) 3 2 4 [])
    (by decide +kernel) (printStream_of_modules (stationStream_printable _ _) (by decide +kernel)
      (by decide +kernel) (by decide +kernel) (by decide +kernel))
    (by decide +kernel) (by decide +kernel)
  refine ⟨by decide +kernel, _, input, json, flow, i, h, hmade, hi, fun hin => ?_, fun hsent => ?_⟩
  · have hfirst := (hin 2 (by decide) (by decide)).1
    have heq : (stationStream.receive (getCreationTimeOffset 0)
        (List.take 2 [1 * ms, 50 * ms])).startTime = -1450000000 := hstart
    omega
  · have hpos := (sent_iff h hk hname hmade hi).mp hsent
    omega

end CooperativeTsn
