import CooperativeTsn.App.StreamPerTriple
import CooperativeTsn.Flow.RoundTrip

/-!
# Every packet counts once

What the packets of a run do to the streams that they register. An update is a packet whose running
number is 2 modulo 10, and the window holds 10 offsets, so that the windows of the updates follow
each other without a gap and without an overlap.

* `run_allTook` — every external stream of a run has taken the packets that are for it, one by one
* `receive_held` — the packets that the window holds, by their number
* `packets_count_once` — all of it, for the external streams of every run
-/

namespace CooperativeTsn

open Infra Infra.Runs Infra.SimTime

variable {Module Address : Type}

namespace TsnStream

variable {s : TsnStream Module} {off : Int} {times : List Int}

/-! ## One stream -/

theorem nextPacket_packetInterval (s : TsnStream Module) (off t : Int) :
    (s.nextPacket off t).packetInterval = 100 := rfl

/-- The offsets in the window are those of the newest packets, followed by the initial zeros. -/
theorem receive_held (hs : s.Fresh) {n : Nat} (hn : n ≤ times.length) :
    (s.receive off (times.take n)).lastTimePacketArrived =
      (Window.newest queueSize n).map (fun i => arrivalOffset off (times.getD i 0)) ++
        List.replicate (queueSize - n) 0 := by
  have hpackets : (List.range n).map (fun i => times.getD i 0) = times.take n := by
    refine List.ext_getElem (by simpa using hn) fun i h1 h2 => ?_
    rw [List.length_take] at h2
    simp [List.getElem?_eq_getElem (show i < times.length by omega)]
  rw [receive_window off hs, held, List.length_take, Nat.min_eq_left hn, ← hpackets,
    Window.map_newest, ← List.map_reverse, ← List.map_reverse, List.map_map]
  rfl

theorem receive_window_bounds (hs : s.Fresh) (hoff : off ≤ 100 * sec) (htimes : ∀ t ∈ times, 0 ≤ t) :
    ∀ a ∈ (s.receive off times).lastTimePacketArrived, 0 ≤ a ∧ a < cycleTime := by
  intro a ha
  rw [receive_window off hs, List.mem_append] at ha
  rcases ha with ha | ha
  · obtain ⟨t, ht, rfl⟩ := mem_held ha
    exact arrivalOffset_bounds hoff (htimes t ht)
  · rw [List.eq_of_mem_replicate ha]
    decide

/-- The interval says whether there was a second packet. -/
theorem receive_packetInterval (hs : s.packetInterval = 0) {n : Nat} (hn : n ≤ times.length) :
    (s.receive off (times.take n)).packetInterval = if 2 ≤ n then 100 else 0 := by
  match n with
  | 0 => simpa [receive] using hs
  | 1 =>
    obtain ⟨t, rest, rfl⟩ := List.exists_cons_of_length_pos hn
    exact hs
  | n + 2 =>
    rw [receive_take_succ (by omega) hn, nextPacket_packetInterval, if_pos (by omega)]

/-- What every single packet leaves alone. -/
theorem receive_frame {β : Type} {f : TsnStream Module → β}
    (hfirst : ∀ s t, f (s.firstPacket off t) = f s) (hnext : ∀ s t, f (s.nextPacket off t) = f s)
    (s : TsnStream Module) : ∀ times : List Int, f (s.receive off times) = f s
  | [] => rfl
  | t :: times => by
    induction times using List.reverseRecOn with
    | nil => exact hfirst s t
    | append_singleton times t' ih =>
      rw [← List.cons_append, receive_append_singleton _ (List.cons_ne_nil t times), hnext, ih]

theorem receive_sourceModule (s : TsnStream Module) (off : Int) (times : List Int) :
    (s.receive off times).sourceModule = s.sourceModule :=
  receive_frame (f := sourceModule) (fun _ _ => rfl) (fun s _ => nextPacket_sourceModule s _ _) s times

theorem nextPacket_streamName (s : TsnStream Module) (off t : Int) :
    (s.nextPacket off t).streamName = s.streamName :=
  nextPacket_frame (f := streamName) (fun _ _ => rfl) (fun _ _ => rfl) (fun _ => rfl) ..

theorem receive_streamName (s : TsnStream Module) (off : Int) (times : List Int) :
    (s.receive off times).streamName = s.streamName :=
  receive_frame (f := streamName) (fun _ _ => rfl) (fun s _ => nextPacket_streamName s _ _) s times

end TsnStream

/-! ## The text -/

section

variable {tree : ModuleTree Module} {ops : ValueOps}

theorem printStreams_append : ∀ a b : List (TsnStream Module),
    printStreams tree ops (a ++ b) = (do
      let xs ← printStreams tree ops a
      let ys ← printStreams tree ops b
      pure (xs ++ ys))
  | [], b => by simp [printStreams]
  | s :: a, b => by simp [printStreams, printStreams_append a b]

/-- The configuration with the stream `s` in it: its entry is there if the interval is not zero. -/
theorem getSchedulerConfiguration_middle (before after : List (TsnStream Module))
    (s : TsnStream Module) :
    getSchedulerConfiguration tree ops (before ++ s :: after) =
      if s.packetInterval = 0 then getSchedulerConfiguration tree ops (before ++ after)
      else (do
        let xs ← getSchedulerConfiguration tree ops before
        let entry ← printStream tree ops s
        let ys ← getSchedulerConfiguration tree ops after
        pure (xs ++ .map entry :: ys)) := by
  by_cases h : s.packetInterval = 0
  · simp [getSchedulerConfiguration, emittedStreams, h]
  · simp [getSchedulerConfiguration, emittedStreams, h, printStreams_append, printStreams]

end

/-! ## The external streams of a run -/

variable {env : Surroundings Module Address} {site : Site env.tree} {forwardingTable : ValueMap}
  {streams streams' configured external : List (TsnStream Module)}

/-- The stream was registered, as `base`, for the first of the packets at `times` and took them all. -/
structure Took (env : Surroundings Module Address) (site : Site env.tree) (base : TsnStream Module)
    (off : Int) (times : List Int) (s : TsnStream Module) : Prop where
  built : ∃ sender pcp destination totalLength, TsnStream.ofConfigLine env.tree env.ops
    (newConfigLine env site pcp destination totalLength) site.car sender = .ok base
  offset : creationTimeOffset env base.copy = .ok off
  times_ne_nil : times ≠ []
  stream : s = base.copy.receive off times

section

variable {base s : TsnStream Module} {off : Int} {times : List Int}

theorem Took.fresh (h : Took env site base off times s) : base.copy.Fresh := by
  obtain ⟨sender, pcp, destination, totalLength, hbuilt⟩ := h.built
  obtain ⟨hwindow, -, hsize⟩ := (TsnStream.ofConfigLine_ok hbuilt).fresh
  exact ⟨hwindow, rfl, hsize⟩

theorem Took.packetInterval (h : Took env site base off times s) :
    base.copy.packetInterval = 0 := by
  obtain ⟨sender, pcp, destination, totalLength, hbuilt⟩ := h.built
  have hinterval := (TsnStream.ofConfigLine_fields hbuilt).packetInterval
  have hzero : (newConfigLine env site pcp destination totalLength).getInUnit env.ops
      "packetInterval" "ms" = .ok 0 := by
    show require _ (env.ops.convertUnit ((0 : Int) : Rat) "s" "ms") = _
    rw [env.ops.convertUnit_s]
    simp [require]
  rw [hzero, Except.ok.injEq] at hinterval
  exact hinterval.symm

theorem creationTimeOffset_congr {s s' : TsnStream Module} (h : s.sourceModule = s'.sourceModule) :
    creationTimeOffset env s = creationTimeOffset env s' := by
  rw [creationTimeOffset, h]
  rfl

theorem Took.creationTimeOffset (h : Took env site base off times s) :
    creationTimeOffset env s = .ok off := by
  rw [← h.offset]
  exact creationTimeOffset_congr (by rw [h.stream, TsnStream.receive_sourceModule])

theorem Took.nextPacket (h : Took env site base off times s) (t : Int) :
    Took env site base off (times ++ [t]) (s.nextPacket off t) :=
  ⟨h.built, h.offset, by simp,
    by rw [h.stream, TsnStream.receive_append_singleton _ h.times_ne_nil]⟩

end

variable [DecidableEq Module]

/--
The position of the stream that an arrival from outside is for: the one that the lookup picks, or
the new one behind all others.
-/
def receiver (env : Surroundings Module Address) (site : Site env.tree) (forwardingTable : ValueMap)
    (streams : List (TsnStream Module)) (arrival : Int × Packet Address) : Option Nat :=
  match arrival.2.inboundInterface, findRule arrival.2.name forwardingTable with
  | .wlan0, .ok (pcp, destination) =>
    some ((findStream env site (env.findHostWithAddress arrival.1 arrival.2.srcAddr) pcp destination
      streams).getD streams.length)
  | _, _ => none

/-- When the packets of a run arrive that are for the stream at position `i`. -/
def packetsOf (env : Surroundings Module Address) (site : Site env.tree) (forwardingTable : ValueMap)
    (i : Nat) : List (TsnStream Module) → List (Int × Packet Address) → List Int
  | _, [] => []
  | streams, arrival :: arrivals =>
    let rest := match adaptSchedule env site forwardingTable streams arrival with
      | .ok streams => packetsOf env site forwardingTable i streams arrivals
      | .error _ => []
    if receiver env site forwardingTable streams arrival = some i then arrival.1 :: rest else rest

theorem receiver_of_rule {arrival : Int × Packet Address} {pcp : Int} {text : String}
    (hext : arrival.2.inboundInterface = .wlan0)
    (hrule : findRule arrival.2.name forwardingTable = .ok (pcp, text)) :
    receiver env site forwardingTable streams arrival =
      some ((findStream env site (env.findHostWithAddress arrival.1 arrival.2.srcAddr) pcp text
        streams).getD streams.length) := by
  simp only [receiver, hext, hrule]

theorem packetsOf_cons {i : Nat} {arrival : Int × Packet Address}
    {arrivals : List (Int × Packet Address)}
    (h : adaptSchedule env site forwardingTable streams arrival = .ok streams') :
    packetsOf env site forwardingTable i streams (arrival :: arrivals) =
      (if receiver env site forwardingTable streams arrival = some i then [arrival.1] else []) ++
        packetsOf env site forwardingTable i streams' arrivals := by
  rw [packetsOf, h]
  split <;> rfl

/-- The packets of a stream are among those of the run. -/
theorem packetsOf_sublist (i : Nat) : ∀ (arrivals : List (Int × Packet Address))
    (streams : List (TsnStream Module)),
    (packetsOf env site forwardingTable i streams arrivals).Sublist (arrivals.map Prod.fst)
  | [], _ => List.Sublist.refl _
  | arrival :: arrivals, streams => by
    rw [packetsOf, List.map_cons]
    cases adaptSchedule env site forwardingTable streams arrival with
    | ok streams' =>
      have hrest := packetsOf_sublist i arrivals streams'
      dsimp only
      split
      · exact hrest.cons_cons _
      · exact hrest.cons _
    | error _ =>
      dsimp only
      split
      · exact (List.nil_sublist _).cons_cons _
      · exact List.nil_sublist _

/-- Every external stream has taken the packets that `seen` says it has, and no others are there. -/
structure AllTook (env : Surroundings Module Address) (site : Site env.tree) (seen : Nat → List Int)
    (configured external : List (TsnStream Module)) : Prop where
  took : ∀ j s, external[j]? = some s → ∃ base off,
    Took env site base off (seen (configured.length + j)) s
  rest : ∀ i, configured.length + external.length ≤ i → seen i = []

/-- The packet at time `t` comes to those of its receiver. -/
def addPacket (seen : Nat → List Int) (receiver : Option Nat) (t : Int) (i : Nat) : List Int :=
  seen i ++ if receiver = some i then [t] else []

section

variable {seen : Nat → List Int} {t : Int}

omit [DecidableEq Module] in
theorem AllTook.skip (h : AllTook env site seen configured external) :
    AllTook env site (addPacket seen none t) configured external := by
  have hsame : addPacket seen none t = seen := by
    funext i
    rw [addPacket, if_neg (by simp), List.append_nil]
  rwa [hsame]

omit [DecidableEq Module] in
theorem AllTook.register (h : AllTook env site seen configured external) {base : TsnStream Module}
    (hbuilt : ∃ sender pcp destination totalLength, TsnStream.ofConfigLine env.tree env.ops
      (newConfigLine env site pcp destination totalLength) site.car sender = .ok base)
    {off : Int} (hoff : creationTimeOffset env base.copy = .ok off) :
    AllTook env site (addPacket seen (some (configured.length + external.length)) t) configured
      (external ++ [base.copy.firstPacket off t]) where
  took j s hs := by
    rcases Nat.lt_trichotomy j external.length with hlt | rfl | hgt
    · rw [List.getElem?_append_left hlt] at hs
      rw [addPacket, if_neg (by simp; omega), List.append_nil]
      exact h.took j s hs
    · rw [List.getElem?_concat_length, Option.some.injEq] at hs
      refine ⟨base, off, hbuilt, hoff, ?_, ?_⟩
      · simp [addPacket]
      · rw [addPacket, h.rest _ (Nat.le_refl _), if_pos rfl, ← hs]
        rfl
    · rw [List.getElem?_eq_none (by simp; omega)] at hs
      cases hs
  rest i hi := by
    rw [List.length_append, List.length_singleton] at hi
    rw [addPacket, h.rest i (by omega), if_neg (by simp; omega), List.append_nil]

omit [DecidableEq Module] in
theorem AllTook.update (h : AllTook env site seen configured external) {j : Nat}
    {s : TsnStream Module} (hj : external[j]? = some s) {off : Int}
    (hoff : creationTimeOffset env s = .ok off) :
    AllTook env site (addPacket seen (some (configured.length + j)) t) configured
      (external.set j (s.nextPacket off t)) where
  took k s' hs' := by
    by_cases hkj : k = j
    · subst hkj
      obtain ⟨base, off', htook⟩ := h.took k s hj
      rw [htook.creationTimeOffset, Except.ok.injEq] at hoff
      subst hoff
      rw [List.getElem?_set_self (List.getElem?_eq_some_iff.mp hj).1, Option.some.injEq] at hs'
      rw [addPacket, if_pos rfl, ← hs']
      exact ⟨base, off', htook.nextPacket t⟩
    · rw [List.getElem?_set_ne (Ne.symm hkj)] at hs'
      rw [addPacket, if_neg (by simp; omega), List.append_nil]
      exact h.took k s' hs'
  rest i hi := by
    rw [List.length_set] at hi
    have hlt := (List.getElem?_eq_some_iff.mp hj).1
    rw [addPacket, h.rest i hi, if_neg (by simp; omega), List.append_nil]

end

theorem adaptSchedule_allTook (hconf : ∀ s ∈ configured, s.externalSourceModule = none)
    {seen : Nat → List Int} (h : AllTook env site seen configured external)
    {arrival : Int × Packet Address}
    (hstep : adaptSchedule env site forwardingTable (configured ++ external) arrival =
      .ok streams') :
    ∃ external', streams' = configured ++ external' ∧
      AllTook env site (addPacket seen
        (receiver env site forwardingTable (configured ++ external) arrival) arrival.1)
        configured external' := by
  cases hinbound : arrival.2.inboundInterface with
  | eth0 =>
    simp only [adaptSchedule, hinbound, pure_eq_ok] at hstep
    have hnobody : receiver env site forwardingTable (configured ++ external) arrival = none := by
      simp only [receiver, hinbound]
    rw [hnobody]
    exact ⟨external, hstep.symm, h.skip⟩
  | lo =>
    simp only [adaptSchedule, hinbound, pure_eq_ok] at hstep
    have hnobody : receiver env site forwardingTable (configured ++ external) arrival = none := by
      simp only [receiver, hinbound]
    rw [hnobody]
    exact ⟨external, hstep.symm, h.skip⟩
  | wlan0 =>
    obtain ⟨⟨pcp, destination⟩, hrule, -⟩ : ∃ rule, findRule arrival.2.name forwardingTable =
        .ok rule ∧ True := by
      simp only [adaptSchedule, hinbound, bind_eq_ok] at hstep
      obtain ⟨rule, hrule, -⟩ := hstep
      exact ⟨rule, hrule, trivial⟩
    rw [adaptSchedule_of_rule hinbound hrule] at hstep
    rw [receiver_of_rule hinbound hrule]
    split at hstep
    · next hnone =>
      rw [hnone, Option.getD_none, List.length_append]
      simp only [registerStream, bind_eq_ok, pure_eq_ok] at hstep
      obtain ⟨base, hbuilt, off, hoff, rfl⟩ := hstep
      exact ⟨_, List.append_assoc _ _ _, h.register ⟨_, _, _, _, hbuilt⟩ hoff⟩
    · next i hfound =>
      rw [hfound, Option.getD_some]
      obtain ⟨j, s, off, rfl, hj, -, hoff, rfl⟩ := updateStream_external hconf hfound hstep
      exact ⟨_, rfl, h.update hj hoff⟩

/-- What the streams have taken after a run. -/
theorem run_allTook (hconf : ∀ s ∈ configured, s.externalSourceModule = none) :
    ∀ {arrivals : List (Int × Packet Address)} {seen : Nat → List Int}
      {external : List (TsnStream Module)}, AllTook env site seen configured external →
      run (adaptSchedule env site forwardingTable) arrivals (configured ++ external) =
        .ok streams →
      ∃ external', streams = configured ++ external' ∧
        AllTook env site (fun i => seen i ++
          packetsOf env site forwardingTable i (configured ++ external) arrivals)
          configured external'
  | [], seen, external, h, hrun => by
    cases hrun
    exact ⟨external, rfl, by simpa only [packetsOf, List.append_nil] using h⟩
  | a :: arrivals, seen, external, h, hrun => by
    obtain ⟨streams₁, hstep, hrest⟩ := run_cons_ok hrun
    obtain ⟨external₁, rfl, h₁⟩ := adaptSchedule_allTook hconf h hstep
    obtain ⟨external', rfl, h'⟩ := run_allTook hconf h₁ hrest
    refine ⟨external', rfl, ?_⟩
    simpa only [packetsOf_cons hstep, addPacket, List.append_assoc] using h'

/-! ## The result -/

/-- The stream `base` after the first `n` of the packets at `times`. -/
abbrev TsnStream.afterPackets (base : TsnStream Module) (off : Int) (times : List Int) (n : Nat) :
    TsnStream Module := base.receive off (times.take n)

open TsnStream in
/-- How the packets at `times` are accounted for. Packets are counted from 0 on. -/
structure CountsOnce (tree : ModuleTree Module) (ops : ValueOps) (base : TsnStream Module)
    (off : Int) (times : List Int) : Prop where
  /-- the running number -/
  number : ∀ n ≤ times.length, (base.afterPackets off times n).numberPackets = n
  /-- the first packet leaves the size alone -/
  first : (base.afterPackets off times 1).packetSize = base.packetSize
  /-- nothing changes unless there is an update -/
  steady : ∀ m n, 0 < m → m ≤ n → n ≤ times.length →
    (∀ k, m < k → k ≤ n → k % updateIntervall ≠ 2) →
    (base.afterPackets off times n).startTime = (base.afterPackets off times m).startTime ∧
      (base.afterPackets off times n).packetSize = (base.afterPackets off times m).packetSize
  /-- the offsets of the newest packets, newest first, and the initial zeros -/
  window : ∀ n ≤ times.length, (base.afterPackets off times n).lastTimePacketArrived =
    (Window.newest queueSize n).map (fun i => arrivalOffset off (times.getD i 0)) ++
      List.replicate (queueSize - n) 0
  window_length : ∀ n ≤ times.length,
    (base.afterPackets off times n).lastTimePacketArrived.length = 10
  window_bounds : ∀ n ≤ times.length, ∀ a ∈ (base.afterPackets off times n).lastTimePacketArrived,
    0 ≤ a ∧ a < 100 * ms
  /-- two updates have no packet in common -/
  apart : ∀ m n, m % updateIntervall = 2 → n % updateIntervall = 2 → m ≠ n →
    (Window.newest queueSize m).Disjoint (Window.newest queueSize n)
  /-- the first update behind a packet sees it -/
  seen : ∀ i n, i < n → n ≤ times.length → n % updateIntervall = 2 →
    (∀ m, i < m → m < n → m % updateIntervall ≠ 2) → i ∈ Window.newest queueSize n
  /-- from the second packet on the stream is in the configuration -/
  emitted : ∀ n ≤ times.length, ∀ before after, getSchedulerConfiguration tree ops
      (before ++ base.afterPackets off times n :: after) =
    if 2 ≤ n then (do
      let xs ← getSchedulerConfiguration tree ops before
      let entry ← printStream tree ops (base.afterPackets off times n)
      let ys ← getSchedulerConfiguration tree ops after
      pure (xs ++ .map entry :: ys))
    else getSchedulerConfiguration tree ops (before ++ after)

omit [DecidableEq Module] in
theorem Took.countsOnce {base s : TsnStream Module} {off : Int} {times : List Int}
    (h : Took env site base off times s) (hoff : off ≤ 100 * sec) (htimes : ∀ t ∈ times, 0 ≤ t)
    (tree : ModuleTree Module) (ops : ValueOps) : CountsOnce tree ops base.copy off times where
  number n hn := by
    rw [TsnStream.receive_numberPackets off h.fresh, List.length_take, Nat.min_eq_left hn]
  first := by
    obtain ⟨t, rest, rfl⟩ := List.exists_cons_of_ne_nil h.times_ne_nil
    rfl
  steady m n hm hmn hn hno := TsnStream.receive_steady h.fresh hm hmn hn hno
  window n hn := TsnStream.receive_held h.fresh hn
  window_length n hn := by
    rw [TsnStream.receive_held h.fresh hn, List.length_append, List.length_map, Window.newest_eq,
      List.length_reverse, List.length_range', List.length_replicate]
    show min 10 n + (10 - n) = 10
    omega
  window_bounds n hn := TsnStream.receive_window_bounds h.fresh hoff
    fun t ht => htimes t (List.mem_of_mem_take ht)
  apart m n hm hn hne := Window.newest_disjoint (hm.trans hn.symm) hne
  seen i n hi _ hn hno := Window.mem_newest_of_first (by decide) hn hi hno
  emitted n hn before after := by
    rw [getSchedulerConfiguration_middle, TsnStream.receive_packetInterval h.packetInterval hn]
    by_cases h2 : 2 ≤ n
    · rw [if_pos h2, if_neg (by decide), if_pos h2]
    · rw [if_neg h2, if_pos rfl, if_neg h2]

/--
**Every packet counts once.** In every run an external stream has taken exactly the packets whose
lookup picked it, from the one that registered it on, and they are accounted for.
-/
theorem packets_count_once (hcreated : ∀ m c, env.creationTime m = some c → 0 ≤ c)
    (hconf : ∀ s ∈ configured, s.externalSourceModule = none)
    {arrivals : List (Int × Packet Address)} (hnow : ∀ a ∈ arrivals, 0 ≤ a.1)
    (hrun : run (adaptSchedule env site forwardingTable) arrivals configured = .ok streams) :
    ∃ external, streams = configured ++ external ∧ ∀ j s, external[j]? = some s → ∃ base off,
      Took env site base off
        (packetsOf env site forwardingTable (configured.length + j) configured arrivals) s ∧
      CountsOnce env.tree env.ops base.copy off
        (packetsOf env site forwardingTable (configured.length + j) configured arrivals) := by
  have hstart : AllTook env site (fun _ => []) configured ([] : List (TsnStream Module)) :=
    ⟨by simp, fun _ _ => rfl⟩
  rw [← List.append_nil configured] at hrun
  obtain ⟨external, rfl, htook⟩ := run_allTook hconf hstart hrun
  refine ⟨external, rfl, fun j s hs => ?_⟩
  obtain ⟨base, off, h⟩ := htook.took j s hs
  rw [List.nil_append, List.append_nil] at h
  refine ⟨base, off, h, h.countsOnce ?_ (fun t ht => ?_) _ _⟩
  · have hoffset := h.offset
    simp only [creationTimeOffset, bind_eq_ok, require_eq_ok, pure_eq_ok] at hoffset
    obtain ⟨source, -, app, -, created, hcreatedAt, rfl⟩ := hoffset
    have := (TsnStream.getCreationTimeOffset_bounds (hcreated app created hcreatedAt)).2
    simp only [TsnStream.cycleTime, sec] at *
    omega
  · obtain ⟨a, ha, rfl⟩ := List.mem_map.mp ((packetsOf_sublist _ _ _).subset ht)
    exact hnow a ha

/-- The stream of the car takes all three packets that it is sent. -/
theorem packets_count_once_three :
    ∃ s base off, run (adaptSchedule carSurroundings carSite [carRule "msg" "dev"])
        [(0, carPacket "msg"), (7 * ms, carPacket "msg"), (9 * ms, carPacket "msg")] [] =
        .ok [s] ∧
      Took carSurroundings carSite base off [0, 7 * ms, 9 * ms] s ∧
      CountsOnce carNetwork.tree basicOps base.copy off [0, 7 * ms, 9 * ms] := by
  obtain ⟨streams, hrun, hlength⟩ : ∃ streams,
      run (adaptSchedule carSurroundings carSite [carRule "msg" "dev"])
        [(0, carPacket "msg"), (7 * ms, carPacket "msg"), (9 * ms, carPacket "msg")] [] =
        .ok streams ∧ decide (streams.length = 1) = true := exists_of_any (by decide +kernel)
  obtain ⟨s, rfl⟩ := List.length_eq_one_iff.mp (of_decide_eq_true hlength)
  have hcreated : ∀ m c, carSurroundings.creationTime m = some c → 0 ≤ c := by
    intro m c h
    simp only [carSurroundings] at h
    split at h
    · cases h
      decide
    · cases h
  have hpackets : packetsOf carSurroundings carSite [carRule "msg" "dev"] 0 []
      [(0, carPacket "msg"), (7 * ms, carPacket "msg"), (9 * ms, carPacket "msg")] =
        [0, 7 * ms, 9 * ms] := by decide +kernel
  obtain ⟨external, hexternal, h⟩ := packets_count_once hcreated (by simp) (by decide) hrun
  rw [List.nil_append] at hexternal
  subst hexternal
  obtain ⟨base, off, htook, hcounts⟩ := h 0 s rfl
  rw [List.length_nil, Nat.zero_add, hpackets] at htook hcounts
  exact ⟨s, base, off, hrun, htook, hcounts⟩

end CooperativeTsn
