import CooperativeTsn.App.Forwarding
import Mathlib.Data.List.Nodup
import Mathlib.Data.List.Dedup

/-!
# One stream for each sender, priority and destination

A stream stores its destination as a module, and the lookup compares the full name of that module
with the text of the rule. The two agree when the text is the full name of a child of the car. A
text that leads further down is never found again, and each arrival registers one more stream.

* `registerStream_ok`, `updateStream_ok` — the two outcomes of an arrival
* `one_stream_per_triple` — what holds after every run of plain arrivals
* `nested_arrival_registers` — an arrival that is not plain always registers a stream
-/

namespace CooperativeTsn

open Infra.Runs

variable {Module Address : Type} {env : Surroundings Module Address}
  {site : Site env.tree} {forwardingTable : ValueMap} {streams streams' : List (TsnStream Module)}

/-! ## Triples -/

/-- Sender, priority and destination. -/
abbrev Triple (Module : Type) := Option Module × Int × Option Module

def TsnStream.triple (s : TsnStream Module) : Triple Module :=
  (s.externalSourceModule, s.pcp, s.destinationModule)

/-- The module that a destination text leads to from the car. -/
def destinationOf (env : Surroundings Module Address) (site : Site env.tree) (text : String) :
    Option Module :=
  env.tree.findModuleByPath (env.tree.getFullPath site.car ++ "." ++ text)

/-- The triple of an arrival, by the rule that it matches. -/
def arrivalTriple (env : Surroundings Module Address) (site : Site env.tree)
    (forwardingTable : ValueMap) (arrival : Int × Packet Address) : Option (Triple Module) :=
  match findRule arrival.2.name forwardingTable with
  | .ok (pcp, text) =>
    some (env.findHostWithAddress arrival.1 arrival.2.srcAddr, pcp, destinationOf env site text)
  | .error _ => none

/--
An arrival from outside, of a known sender, by a rule whose destination text is the full name of a
child of the car.
-/
structure Plain (env : Surroundings Module Address) (site : Site env.tree)
    (forwardingTable : ValueMap) (arrival : Int × Packet Address) : Prop where
  external : arrival.2.inboundInterface = .wlan0
  sender : env.findHostWithAddress arrival.1 arrival.2.srcAddr ≠ none
  destination : ∃ pcp m, findRule arrival.2.name forwardingTable =
    .ok (pcp, env.tree.getFullName m) ∧ env.tree.getParentModule m = some site.car

/-! ## What a stream keeps when it takes a packet -/

namespace TsnStream

variable (s : TsnStream Module) (off now : Int)

@[simp] theorem nextPacket_sourceModule : (s.nextPacket off now).sourceModule = s.sourceModule :=
  nextPacket_frame (f := sourceModule) (fun _ _ => rfl) (fun _ _ => rfl) (fun _ => rfl) ..

@[simp] theorem nextPacket_triple : (s.nextPacket off now).triple = s.triple :=
  nextPacket_frame (f := triple) (fun _ _ => rfl) (fun _ _ => rfl) (fun _ => rfl) ..

@[simp] theorem firstPacket_sourceModule :
    (s.copy.firstPacket off now).sourceModule = s.sourceModule := rfl

@[simp] theorem firstPacket_triple : (s.copy.firstPacket off now).triple = s.triple := rfl

end TsnStream

/-! ## The outcomes of an arrival -/

theorem newConfigLine_source (pcp : Int) (text : String) (totalLength : Int) :
    (newConfigLine env site pcp text totalLength).getString "source" =
      .ok (env.tree.getFullName site.host) := rfl

theorem newConfigLine_destination (pcp : Int) (text : String) (totalLength : Int) :
    (newConfigLine env site pcp text totalLength).getString "destination" = .ok text := rfl

theorem newConfigLine_pcp (pcp : Int) (text : String) (totalLength : Int) :
    (newConfigLine env site pcp text totalLength).getInt "pcp" = .ok pcp := rfl

/-- A registered stream belongs to the host and has the triple of the arrival. -/
theorem registerStream_ok {now : Int} {sender : Option Module} {pcp : Int} {text : String}
    {totalLength : Int}
    (h : registerStream env site now sender pcp text totalLength streams = .ok streams') :
    ∃ s m, streams' = streams ++ [s] ∧ s.sourceModule = some site.host ∧
      destinationOf env site text = some m ∧ s.triple = (sender, pcp, some m) := by
  simp only [registerStream, bind_eq_ok, pure_eq_ok] at h
  obtain ⟨s, hs, offset, -, rfl⟩ := h
  obtain ⟨⟨source, host, hsource, hhost, hpath⟩, ⟨dest, m, hdest, hm, hmpath⟩, hpcp, -, hext, -, -⟩ :=
    TsnStream.ofConfigLine_ok hs
  rw [newConfigLine_source, Except.ok.injEq] at hsource
  rw [newConfigLine_destination, Except.ok.injEq] at hdest
  rw [newConfigLine_pcp, Except.ok.injEq] at hpcp
  subst hsource hdest
  have hsite := (env.tree.findModuleByPath_child site.car site.host).mpr site.car_parent
  rw [ModuleTree.getFullName, hsite, Option.some.injEq] at hpath
  refine ⟨_, m, rfl, ?_, hmpath, ?_⟩
  · rw [TsnStream.firstPacket_sourceModule, hhost, hpath]
  · rw [TsnStream.firstPacket_triple, TsnStream.triple, hext, hm, ← hpcp]

theorem updateStream_ok {now : Int} {i : Nat} (h : updateStream env now i streams = .ok streams') :
    ∃ s offset, streams[i]? = some s ∧ creationTimeOffset env s = .ok offset ∧
      streams' = streams.set i (s.nextPacket offset now) := by
  simp only [updateStream, bind_eq_ok, require_eq_ok, pure_eq_ok] at h
  obtain ⟨s, hs, offset, hoffset, rfl⟩ := h
  exact ⟨s, offset, hs, hoffset, rfl⟩

section

variable [DecidableEq Module] {sender : Option Module} {pcp : Int} {text : String}

/-- The stream that is found passes the four checks. -/
theorem findStream_passes {i : Nat} {s : TsnStream Module}
    (hfound : findStream env site sender pcp text streams = some i) (hs : streams[i]? = some s) :
    IsCorrectStream env site sender pcp text s := by
  obtain ⟨_, hpass, -⟩ := List.findIdx?_eq_some_iff_getElem.mp hfound
  obtain ⟨_, hget⟩ := List.getElem?_eq_some_iff.mp hs
  rw [hget, decide_eq_true_eq] at hpass
  exact hpass

/-- A packet of a known stream never goes to a configured one, which has no external source. -/
theorem updateStream_external {configured external : List (TsnStream Module)}
    (hconf : ∀ s ∈ configured, s.externalSourceModule = none) {now : Int} {i : Nat}
    (hfound : findStream env site sender pcp text (configured ++ external) = some i)
    (hstep : updateStream env now i (configured ++ external) = .ok streams') :
    ∃ j s offset, i = configured.length + j ∧ external[j]? = some s ∧
      IsCorrectStream env site sender pcp text s ∧ creationTimeOffset env s = .ok offset ∧
      streams' = configured ++ external.set j (s.nextPacket offset now) := by
  obtain ⟨s, offset, hget, hoffset, rfl⟩ := updateStream_ok hstep
  have hpass := findStream_passes hfound hget
  have hi : configured.length ≤ i := by
    by_contra hi
    rw [List.getElem?_append_left (by omega)] at hget
    exact hpass.2.2.1.1 (hconf s (List.mem_of_getElem? hget))
  rw [List.getElem?_append_right hi] at hget
  exact ⟨i - configured.length, s, offset, by omega, hget, hpass, hoffset,
    List.set_append_right _ _ hi⟩

/-- An arrival from outside, after its rule has been read. -/
theorem adaptSchedule_of_rule {arrival : Int × Packet Address}
    (hext : arrival.2.inboundInterface = .wlan0)
    (hrule : findRule arrival.2.name forwardingTable = .ok (pcp, text)) :
    adaptSchedule env site forwardingTable streams arrival =
      match findStream env site (env.findHostWithAddress arrival.1 arrival.2.srcAddr) pcp text
        streams with
      | none => registerStream env site arrival.1
          (env.findHostWithAddress arrival.1 arrival.2.srcAddr) pcp text arrival.2.totalLength
          streams
      | some i => updateStream env arrival.1 i streams := by
  simp only [adaptSchedule, hext, hrule]
  rfl

end

/-! ## Plain arrivals -/

theorem Plain.triple {arrival : Int × Packet Address} {pcp : Int} {m : Module}
    (hrule : findRule arrival.2.name forwardingTable = .ok (pcp, env.tree.getFullName m))
    (hm : env.tree.getParentModule m = some site.car) :
    arrivalTriple env site forwardingTable arrival =
      some (env.findHostWithAddress arrival.1 arrival.2.srcAddr, pcp, some m) := by
  rw [arrivalTriple, hrule]
  simp only [destinationOf, ModuleTree.getFullName, (env.tree.findModuleByPath_child _ _).mpr hm]

/-- A stream that was registered for a plain arrival. -/
structure Registered (site : Site env.tree) (s : TsnStream Module) : Prop where
  source : s.sourceModule = some site.host
  external : s.externalSourceModule ≠ none
  destination : ∃ m, s.destinationModule = some m ∧ env.tree.getParentModule m = some site.car

/-- For plain arrivals, the four checks compare the triples. -/
theorem isCorrectStream_iff {s : TsnStream Module} (hs : Registered site s) {sender : Option Module}
    {pcp : Int} {m : Module} (hm : env.tree.getParentModule m = some site.car) :
    IsCorrectStream env site sender pcp (env.tree.getFullName m) s ↔
      s.triple = (sender, pcp, some m) := by
  obtain ⟨hsource, hext, d, hd, hparent⟩ := hs
  simp only [IsCorrectStream, TsnStream.triple, hsource, hd, hext, Option.map_some, Prod.mk.injEq,
    Option.some.injEq, ne_eq, not_false_eq_true, true_and]
  constructor
  · rintro ⟨hpcp, hsender, hname⟩
    exact ⟨hsender.symm, hpcp, env.tree.child_ext hparent hm hname⟩
  · rintro ⟨hsender, hpcp, rfl⟩
    exact ⟨hpcp, hsender.symm, rfl⟩

theorem Registered.nextPacket {s : TsnStream Module} (h : Registered site s) (off now : Int) :
    Registered site (s.nextPacket off now) := by
  have ht := s.nextPacket_triple off now
  simp only [TsnStream.triple, Prod.mk.injEq] at ht
  obtain ⟨hext, -, hdest⟩ := ht
  exact ⟨by rw [s.nextPacket_sourceModule, h.source], by rw [hext]; exact h.external,
    by rw [hdest]; exact h.destination⟩

/-- There is one external stream for each of the triples that were seen. -/
structure OnePerTriple (site : Site env.tree) (seen : List (Option (Triple Module)))
    (external : List (TsnStream Module)) : Prop where
  registered : ∀ s ∈ external, Registered site s
  nodup : (external.map TsnStream.triple).Nodup
  mem_iff : ∀ t, t ∈ external.map TsnStream.triple ↔ some t ∈ seen

variable {seen : List (Option (Triple Module))} {external : List (TsnStream Module)}

theorem OnePerTriple.register (h : OnePerTriple site seen external) {s : TsnStream Module}
    (hs : Registered site s) (hnew : some s.triple ∉ seen) :
    OnePerTriple site (seen ++ [some s.triple]) (external ++ [s]) := by
  refine ⟨?_, ?_, ?_⟩
  · intro s' hs'
    rcases List.mem_append.mp hs' with hs' | hs'
    · exact h.registered s' hs'
    · rw [List.mem_singleton.mp hs']
      exact hs
  · rw [List.map_append, List.nodup_append]
    refine ⟨h.nodup, List.nodup_singleton _, ?_⟩
    intro t ht t' ht' heq
    rw [List.map_singleton, List.mem_singleton] at ht'
    rw [heq, ht', h.mem_iff] at ht
    exact hnew ht
  · intro t
    rw [List.map_append, List.mem_append, List.mem_append, h.mem_iff]
    simp

theorem OnePerTriple.update (h : OnePerTriple site seen external) {j : Nat} {s : TsnStream Module}
    (hj : external[j]? = some s) (off now : Int) :
    OnePerTriple site (seen ++ [some s.triple]) (external.set j (s.nextPacket off now)) := by
  have hmem : s ∈ external := List.mem_of_getElem? hj
  have hmap : (external.set j (s.nextPacket off now)).map TsnStream.triple =
      external.map TsnStream.triple := by
    obtain ⟨hlt, rfl⟩ := List.getElem?_eq_some_iff.mp hj
    rw [List.map_set, TsnStream.nextPacket_triple, ← List.getElem_map TsnStream.triple,
      List.set_getElem_self]
    rwa [List.length_map]
  refine ⟨?_, by rw [hmap]; exact h.nodup, ?_⟩
  · intro s' hs'
    rcases List.mem_or_eq_of_mem_set hs' with hs' | rfl
    · exact h.registered s' hs'
    · exact (h.registered s hmem).nextPacket off now
  · intro t
    have hseen : some s.triple ∈ seen := (h.mem_iff _).mp (List.mem_map_of_mem hmem)
    rw [hmap, h.mem_iff, List.mem_append, List.mem_singleton]
    constructor
    · exact Or.inl
    · rintro (ht | ht)
      · exact ht
      · rw [ht]
        exact hseen

/-! ## One arrival -/

variable [DecidableEq Module] {configured : List (TsnStream Module)}

/--
A plain arrival of a triple that was seen goes to the stream of that triple; one of a new triple
registers a stream for it.
-/
theorem plain_arrival (hconf : ∀ s ∈ configured, s.externalSourceModule = none)
    (h : OnePerTriple site seen external) {arrival : Int × Packet Address}
    (hplain : Plain env site forwardingTable arrival)
    (hstep : adaptSchedule env site forwardingTable (configured ++ external) arrival =
      .ok streams') :
    (∃ j s offset, external[j]? = some s ∧
      some s.triple = arrivalTriple env site forwardingTable arrival ∧
      streams' = configured ++ external.set j (s.nextPacket offset arrival.1)) ∨
    (arrivalTriple env site forwardingTable arrival ∉ seen ∧ ∃ s, Registered site s ∧
      some s.triple = arrivalTriple env site forwardingTable arrival ∧
      streams' = configured ++ (external ++ [s])) := by
  obtain ⟨hwlan, hsender, pcp, m, hrule, hm⟩ := hplain
  have htriple := Plain.triple hrule hm
  rw [adaptSchedule_of_rule hwlan hrule] at hstep
  split at hstep
  · next hnone =>
    -- no stream passes, so the triple is new
    right
    obtain ⟨s, d, rfl, hsource, hd, hs⟩ := registerStream_ok hstep
    rw [destinationOf, ModuleTree.getFullName, (env.tree.findModuleByPath_child _ _).mpr hm,
      Option.some.injEq] at hd
    subst hd
    refine ⟨?_, s, ⟨hsource, ?_, m, ?_, hm⟩, ?_, ?_⟩
    · intro hseen
      rw [htriple, ← h.mem_iff] at hseen
      obtain ⟨s', hs', hs't⟩ := List.mem_map.mp hseen
      have hno := List.findIdx?_eq_none_iff.mp hnone s' (List.mem_append_right _ hs')
      rw [decide_eq_false_iff_not, isCorrectStream_iff (h.registered s' hs') hm] at hno
      exact hno hs't
    · rw [show s.externalSourceModule = _ from congrArg Prod.fst hs]
      exact hsender
    · exact congrArg (fun t : Triple Module => t.2.2) hs
    · rw [htriple, hs]
    · rw [List.append_assoc]
  · next i hsome =>
    left
    obtain ⟨j, s, offset, -, hj, hpass, -, rfl⟩ := updateStream_external hconf hsome hstep
    refine ⟨j, s, offset, hj, ?_, rfl⟩
    rw [htriple, (isCorrectStream_iff (h.registered s (List.mem_of_getElem? hj)) hm).mp hpass]

/-! ## Runs -/

theorem plain_run (hconf : ∀ s ∈ configured, s.externalSourceModule = none) :
    ∀ {arrivals : List (Int × Packet Address)} {seen : List (Option (Triple Module))}
      {external : List (TsnStream Module)}, OnePerTriple site seen external →
      (∀ a ∈ arrivals, Plain env site forwardingTable a) →
      run (adaptSchedule env site forwardingTable) arrivals (configured ++ external) =
        .ok streams →
      ∃ external', streams = configured ++ external' ∧
        OnePerTriple site (seen ++ arrivals.map (arrivalTriple env site forwardingTable)) external'
  | [], seen, external, h, _, hrun => by
    cases hrun
    exact ⟨external, rfl, by simpa using h⟩
  | a :: arrivals, seen, external, h, hplain, hrun => by
    obtain ⟨streams₁, hstep, hrest⟩ := run_cons_ok hrun
    have hplain' : ∀ b ∈ arrivals, Plain env site forwardingTable b :=
      fun b hb => hplain b (List.mem_cons_of_mem _ hb)
    rw [List.map_cons, ← List.singleton_append, ← List.append_assoc]
    rcases plain_arrival hconf h (hplain a List.mem_cons_self) hstep with
      ⟨j, s, offset, hj, hs, rfl⟩ | ⟨hnew, s, hreg, hs, rfl⟩
    · have h' := h.update hj offset a.1
      rw [hs] at h'
      exact plain_run hconf h' hplain' hrest
    · have h' := h.register hreg (by rw [hs]; exact hnew)
      rw [hs] at h'
      exact plain_run hconf h' hplain' hrest

theorem OnePerTriple.length_eq (h : OnePerTriple site seen external)
    (hsome : ∀ t ∈ seen, t ≠ none) : external.length = seen.dedup.length := by
  have hnodup : (external.map (some ∘ TsnStream.triple)).Nodup := by
    rw [← List.map_map]
    exact h.nodup.map (Option.some_injective _)
  have hperm : (external.map (some ∘ TsnStream.triple)).Perm seen.dedup := by
    rw [List.perm_ext_iff_of_nodup hnodup (List.nodup_dedup _)]
    intro t
    rw [List.mem_dedup, ← List.map_map]
    constructor
    · intro ht
      obtain ⟨t', ht', rfl⟩ := List.mem_map.mp ht
      exact (h.mem_iff t').mp ht'
    · intro ht
      obtain ⟨t', rfl⟩ := Option.ne_none_iff_exists'.mp (hsome t ht)
      exact List.mem_map_of_mem ((h.mem_iff t').mpr ht)
  rw [← hperm.length_eq, List.length_map]

/--
**One external stream for each triple.** After plain arrivals the external streams have different
triples and there are as many as different triples arrived; the next plain arrival of a triple that
was seen goes to its stream.
-/
theorem one_stream_per_triple (hconf : ∀ s ∈ configured, s.externalSourceModule = none)
    {arrivals : List (Int × Packet Address)}
    (hplain : ∀ a ∈ arrivals, Plain env site forwardingTable a)
    (hrun : run (adaptSchedule env site forwardingTable) arrivals configured = .ok streams) :
    ∃ external, streams = configured ++ external ∧
      (external.map TsnStream.triple).Nodup ∧
      external.length = (arrivals.map (arrivalTriple env site forwardingTable)).dedup.length ∧
      ∀ a, Plain env site forwardingTable a →
        arrivalTriple env site forwardingTable a ∈
          arrivals.map (arrivalTriple env site forwardingTable) →
        ∀ streams', adaptSchedule env site forwardingTable streams a = .ok streams' →
          ∃ j s offset, external[j]? = some s ∧
            some s.triple = arrivalTriple env site forwardingTable a ∧
            streams' = configured ++ external.set j (s.nextPacket offset a.1) := by
  have hstart : OnePerTriple site [] ([] : List (TsnStream Module)) :=
    ⟨by simp, by simp, by simp⟩
  rw [← List.append_nil configured] at hrun
  obtain ⟨external, rfl, h⟩ := plain_run hconf hstart hplain hrun
  rw [List.nil_append] at h
  refine ⟨external, rfl, h.nodup, h.length_eq ?_, fun a ha hseen streams' hstep => ?_⟩
  · intro t ht
    obtain ⟨a, ha, rfl⟩ := List.mem_map.mp ht
    obtain ⟨-, -, pcp, m, hrule, hm⟩ := hplain a ha
    rw [Plain.triple hrule hm]
    simp
  · rcases plain_arrival hconf h ha hstep with hold | ⟨hnew, -⟩
    · exact hold
    · exact absurd hseen hnew

/-- The rule leads to a child of the car. -/
theorem one_stream_per_triple_child :
    ∃ streams, run (adaptSchedule carSurroundings carSite [carRule "msg" "dev"])
        [(0, carPacket "msg"), (7, carPacket "msg")] [] = .ok streams ∧
      streams.length = 1 := by
  have hplain : ∀ a ∈ [((0 : Int), carPacket "msg"), (7, carPacket "msg")],
      Plain carSurroundings carSite [carRule "msg" "dev"] a := by
    intro a ha
    simp only [List.mem_cons, List.not_mem_nil, or_false] at ha
    rcases ha with rfl | rfl
    · exact ⟨rfl, by decide, 0, 8, by rfl, by rfl⟩
    · exact ⟨rfl, by decide, 0, 8, by rfl, by rfl⟩
  have hok : (run (adaptSchedule carSurroundings carSite [carRule "msg" "dev"])
      [(0, carPacket "msg"), (7, carPacket "msg")] []).isOk = true := by decide +kernel
  obtain ⟨streams, hrun⟩ := exists_of_isOk hok
  obtain ⟨external, rfl, -, hlength, -⟩ := one_stream_per_triple (by simp) hplain hrun
  refine ⟨_, hrun, ?_⟩
  rw [hlength]
  decide +kernel

/-! ## Arrivals that are not plain -/

/-- A sender that is not known, or a text that is no full name, registers a stream each time. -/
theorem nested_arrival_registers {arrival : Int × Packet Address} {pcp : Int} {text : String}
    (hwlan : arrival.2.inboundInterface = .wlan0)
    (hrule : findRule arrival.2.name forwardingTable = .ok (pcp, text))
    (hnested : env.findHostWithAddress arrival.1 arrival.2.srcAddr = none ∨
      ∀ m, env.tree.getFullName m ≠ text)
    (hstep : adaptSchedule env site forwardingTable streams arrival = .ok streams') :
    ∃ s, streams' = streams ++ [s] ∧
      some s.triple = arrivalTriple env site forwardingTable arrival := by
  have hnone : findStream env site (env.findHostWithAddress arrival.1 arrival.2.srcAddr) pcp text
      streams = none := by
    rw [findStream, List.findIdx?_eq_none_iff]
    intro s _
    rw [decide_eq_false_iff_not]
    rintro ⟨-, -, ⟨hext, hsender⟩, hname⟩
    rcases hnested with hunknown | hnested
    · exact hext (by rw [← hsender, hunknown])
    · obtain ⟨m, -, hm⟩ := Option.map_eq_some_iff.mp hname
      exact hnested m hm
  rw [adaptSchedule_of_rule hwlan hrule, hnone] at hstep
  obtain ⟨s, m, rfl, -, hm, hs⟩ := registerStream_ok hstep
  refine ⟨s, rfl, ?_⟩
  rw [arrivalTriple, hrule]
  simp only [hm, hs]

/-- A rule that leads to a device of the unit registers a second stream with the same triple. -/
theorem nested_destination_registers_twice :
    (∀ a ∈ [((0 : Int), carPacket "msg"), (7, carPacket "msg")],
      arrivalTriple carSurroundings carSite [carRule "msg" "unit.dev"] a =
        some (some 9, 0, some 7)) ∧
    ∃ streams, run (adaptSchedule carSurroundings carSite [carRule "msg" "unit.dev"])
        [(0, carPacket "msg"), (7, carPacket "msg")] [] = .ok streams ∧
      ¬ (streams.map TsnStream.triple).Nodup := by
  have htriples : (run (adaptSchedule carSurroundings carSite [carRule "msg" "unit.dev"])
      [(0, carPacket "msg"), (7, carPacket "msg")] []).map (List.map TsnStream.triple) =
      .ok [(some 9, 0, some 7), (some 9, 0, some 7)] := by decide +kernel
  obtain ⟨streams, hrun, heq⟩ := map_eq_ok.mp htriples
  refine ⟨?_, streams, hrun, by rw [heq]; decide⟩
  simp only [List.forall_mem_cons, List.not_mem_nil, false_imp_iff, implies_true, and_true]
  decide +kernel

end CooperativeTsn
