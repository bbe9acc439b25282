import CooperativeTsn.App.StreamPerTriple
import Mathlib.Data.List.TakeWhile

/-!
# Reservation and forwarding

`adaptSchedule` picks the stream of a packet by the last name of its destination, `processPacket`
forwards the packet to the module at the whole path. A stream whose destination lies deeper in the
car takes the packets of a rule that names a child of the car alike.

* `chosenStream` — the stream that `adaptSchedule` updates or registers
* `agree_iff` — one packet
* `agreement_iff` — every packet of a run
-/

namespace CooperativeTsn

open Infra.Runs

variable {Module Address : Type} {env : Surroundings Module Address}
  {site : Site env.tree} {forwardingTable : ValueMap} {streams streams' : List (TsnStream Module)}

/-! ## The two lookups of a rule -/

/-- Both loops stop at the same rule. -/
theorem findTarget_eq {carPath name : String} : ∀ {rules : ValueMap} {path : String} {port : Int},
    findTarget carPath name rules = .ok (some (path, port)) →
    ∀ {pcp : Int} {text : String}, findRule name rules = .ok (pcp, text) →
    path = carPath ++ "." ++ text
  | [], path, port, h, _, _, _ => by cases h
  | (key, value) :: rules, path, port, h, pcp, text, h' => by
    simp only [findTarget, bind_eq_ok] at h
    obtain ⟨rule, hrule, h⟩ := h
    rw [findRule] at h'
    by_cases hkey : contains name key = true
    · rw [if_pos hkey] at h h'
      simp only [bind_eq_ok, pure_eq_ok, Option.some.injEq, Prod.mk.injEq] at h
      simp only [bind_eq_ok, pure_eq_ok, Prod.mk.injEq] at h'
      obtain ⟨destination, hd, _, -, rfl, -⟩ := h
      obtain ⟨rule', hrule', _, -, destination', hd', -, rfl⟩ := h'
      rw [hrule, Except.ok.injEq] at hrule'
      rw [← hrule', hd, Except.ok.injEq] at hd'
      rw [hd']
    · rw [if_neg hkey] at h h'
      exact findTarget_eq h h'

/-! ## The target -/

theorem modname_of_chars {path : String} (h : ∀ c ∈ path.toList, c ∉ addressSeparators) :
    modname path = path := by
  rw [modname, List.takeWhile_eq_self_iff.mpr, String.ofList_toList]
  simpa using h

/-- The target of a forwarded packet is at the path that the rule names, below the car. -/
theorem processPacket_ok {packet : Packet Address} {forwarded : Forwarded Module}
    (hwlan : packet.inboundInterface = .wlan0)
    (h : processPacket env site forwardingTable packet = .ok forwarded) {pcp : Int} {text : String}
    (hrule : findRule packet.name forwardingTable = .ok (pcp, text)) :
    ∃ target port, forwarded = .toInternal target port ∧
      env.tree.findModuleByPath (modname (env.tree.getFullPath site.car ++ "." ++ text)) =
        some target := by
  simp only [processPacket, hwlan, bind_eq_ok, require_eq_ok, pure_eq_ok] at h
  obtain ⟨rule, hfind, ⟨path, port⟩, rfl, target, hresolve, rfl⟩ := h
  rw [findTarget_eq hfind hrule, resolve, require_eq_ok] at hresolve
  exact ⟨target, port, rfl, hresolve⟩

/-! ## The chosen stream -/

variable [DecidableEq Module]

/-- The stream that took the packet, in the list that `adaptSchedule` leaves. -/
def chosenStream (env : Surroundings Module Address) (site : Site env.tree)
    (forwardingTable : ValueMap) (streams : List (TsnStream Module))
    (arrival : Int × Packet Address) (streams' : List (TsnStream Module)) :
    Option (TsnStream Module) :=
  match findRule arrival.2.name forwardingTable with
  | .error _ => none
  | .ok (pcp, text) =>
    match findStream env site (env.findHostWithAddress arrival.1 arrival.2.srcAddr) pcp text
      streams with
    | none => streams'[streams.length]?
    | some i => streams'[i]?

/-- A packet is taken in and forwarded; what is left are the streams. -/
def receivePacket (env : Surroundings Module Address) (site : Site env.tree)
    (forwardingTable : ValueMap) (streams : List (TsnStream Module))
    (arrival : Int × Packet Address) : Except SimError (List (TsnStream Module)) :=
  (socketDataArrived env site forwardingTable streams arrival).map Prod.fst

/--
The stream of the packet has the destination that the packet is forwarded to, the priority of its
rule and the host of its sender.
-/
def Agree (env : Surroundings Module Address) (site : Site env.tree) (forwardingTable : ValueMap)
    (streams : List (TsnStream Module)) (arrival : Int × Packet Address)
    (streams' : List (TsnStream Module)) : Prop :=
  ∃ target port pcp text s,
    processPacket env site forwardingTable arrival.2 = .ok (.toInternal target port) ∧
    findRule arrival.2.name forwardingTable = .ok (pcp, text) ∧
    chosenStream env site forwardingTable streams arrival streams' = some s ∧
    s.triple = (env.findHostWithAddress arrival.1 arrival.2.srcAddr, pcp, some target)

/--
The first stream for the sender and the priority whose destination has the name in the rule, if
there is one, leads to a child of the car.
-/
def FirstMatchIsChild (env : Surroundings Module Address) (site : Site env.tree)
    (forwardingTable : ValueMap) (streams : List (TsnStream Module))
    (arrival : Int × Packet Address) : Prop :=
  ∀ pcp text, findRule arrival.2.name forwardingTable = .ok (pcp, text) →
    ∀ i s, findStream env site (env.findHostWithAddress arrival.1 arrival.2.srcAddr) pcp text
      streams = some i → streams[i]? = some s →
    s.destinationModule.bind env.tree.getParentModule = some site.car

/-! ## One packet -/

theorem receivePacket_ok {arrival : Int × Packet Address}
    (hwlan : arrival.2.inboundInterface = .wlan0) (hlocal : env.isLoopback arrival.2.srcAddr = false)
    (h : receivePacket env site forwardingTable streams arrival = .ok streams') :
    ∃ pcp text target port, findRule arrival.2.name forwardingTable = .ok (pcp, text) ∧
      adaptSchedule env site forwardingTable streams arrival = .ok streams' ∧
      processPacket env site forwardingTable arrival.2 = .ok (.toInternal target port) ∧
      env.tree.findModuleByPath (modname (env.tree.getFullPath site.car ++ "." ++ text)) =
        some target := by
  obtain ⟨⟨s, forwarded⟩, harrived, rfl⟩ := map_eq_ok.mp h
  rw [socketDataArrived, hlocal, if_neg Bool.false_ne_true] at harrived
  simp only [bind_eq_ok, pure_eq_ok, Prod.mk.injEq] at harrived
  obtain ⟨streams₁, hadapt, _, hprocess, rfl, rfl⟩ := harrived
  have hadapt' := hadapt
  simp only [adaptSchedule, hwlan, bind_eq_ok] at hadapt'
  obtain ⟨⟨pcp, text⟩, hrule, -⟩ := hadapt'
  obtain ⟨target, port, rfl, htarget⟩ := processPacket_ok hwlan hprocess hrule
  exact ⟨pcp, text, target, port, hrule, hadapt, hprocess, htarget⟩

/-- **Reservation and forwarding agree on a packet iff the first match is a child of the car.** -/
theorem agree_iff {arrival : Int × Packet Address} (hwlan : arrival.2.inboundInterface = .wlan0)
    (hlocal : env.isLoopback arrival.2.srcAddr = false)
    (h : receivePacket env site forwardingTable streams arrival = .ok streams') :
    Agree env site forwardingTable streams arrival streams' ↔
      FirstMatchIsChild env site forwardingTable streams arrival := by
  obtain ⟨pcp, text, target, port, hrule, hadapt, hprocess, htarget⟩ := receivePacket_ok hwlan hlocal h
  have hagree : ∀ s, chosenStream env site forwardingTable streams arrival streams' = some s →
      s.externalSourceModule = env.findHostWithAddress arrival.1 arrival.2.srcAddr → s.pcp = pcp →
      (Agree env site forwardingTable streams arrival streams' ↔
        s.destinationModule = some target) := by
    intro s hs hext hpcp
    constructor
    · rintro ⟨target', port', pcp', text', s', hprocess', -, hs', htriple⟩
      rw [hprocess, Except.ok.injEq, Forwarded.toInternal.injEq] at hprocess'
      rw [hs, Option.some.injEq] at hs'
      rw [hs', hprocess'.1]
      exact congrArg (fun t : Triple Module => t.2.2) htriple
    · intro hdest
      exact ⟨target, port, pcp, text, s, hprocess, hrule, hs, by
        rw [TsnStream.triple, hext, hpcp, hdest]⟩
  rw [adaptSchedule_of_rule hwlan hrule] at hadapt
  split at hadapt
  · next hnone =>
    -- the new stream is resolved from the same text
    obtain ⟨s, m, rfl, -, hm, htriple⟩ := registerStream_ok hadapt
    rw [modname_of_chars (env.tree.findModuleByPath_chars hm), ← destinationOf, hm,
      Option.some.injEq] at htarget
    subst htarget
    simp only [TsnStream.triple, Prod.mk.injEq] at htriple
    rw [hagree s (by simp [chosenStream, hrule, hnone]) htriple.1 htriple.2.1]
    refine iff_of_true htriple.2.2 fun pcp' text' hrule' i s' hi _ => ?_
    rw [hrule, Except.ok.injEq, Prod.mk.injEq] at hrule'
    rw [← hrule'.1, ← hrule'.2, hnone] at hi
    cases hi
  · next i hi =>
    obtain ⟨s, offset, hget, -, rfl⟩ := updateStream_ok hadapt
    obtain ⟨hpcp, -, ⟨-, hsender⟩, hname⟩ := findStream_passes hi hget
    obtain ⟨hlt, -⟩ := List.getElem?_eq_some_iff.mp hget
    obtain ⟨d, hd, rfl⟩ := Option.map_eq_some_iff.mp hname
    have htriple := s.nextPacket_triple offset arrival.1
    simp only [TsnStream.triple, Prod.mk.injEq] at htriple
    obtain ⟨hext', hpcp', hdest'⟩ := htriple
    -- names and paths have no separators, so the whole path is resolved
    rw [modname_of_chars, ModuleTree.getFullName] at htarget
    · rw [hagree (s.nextPacket offset arrival.1) (by simp [chosenStream, hrule, hi, hlt])
        (by rw [hext', hsender]) (by rw [hpcp', hpcp]), hdest', hd, Option.some.injEq]
      have hchild := env.tree.findModuleByPath_child site.car d
      rw [htarget, Option.some.injEq] at hchild
      constructor
      · rintro rfl pcp' text' hrule' i' s' hi' hs'
        rw [hrule, Except.ok.injEq, Prod.mk.injEq] at hrule'
        rw [← hrule'.1, ← hrule'.2, hi, Option.some.injEq] at hi'
        rw [← hi', hget, Option.some.injEq] at hs'
        rw [← hs', hd]
        exact hchild.mp rfl
      · intro hfirst
        have := hfirst pcp _ hrule i s hi hget
        rw [hd] at this
        exact (hchild.mpr this).symm
    · intro c hc
      simp only [String.toList_append, List.mem_append] at hc
      rcases hc with (hc | hc) | hc
      · exact env.tree.getFullPath_not_separator site.car_parent c hc
      · have : c = '.' := by simpa using hc
        rw [this]
        decide
      · exact env.tree.getFullName_not_separator d c hc

/-! ## Every packet of a run -/

/--
**Reservation and forwarding agree on every packet of a run iff every first match is a child of the
car.**
-/
theorem agreement_iff {arrivals : List (Int × Packet Address)}
    (hexternal : ∀ a ∈ arrivals,
      a.2.inboundInterface = .wlan0 ∧ env.isLoopback a.2.srcAddr = false)
    (configured : List (TsnStream Module)) :
    AllSteps (receivePacket env site forwardingTable) (Agree env site forwardingTable) arrivals
        configured ↔
      AllSteps (receivePacket env site forwardingTable)
        (fun streams a _ => FirstMatchIsChild env site forwardingTable streams a) arrivals
        configured :=
  allSteps_congr fun _ a _ ha h => agree_iff (hexternal a ha).1 (hexternal a ha).2 h

/-- Two packets for a child of the car. -/
theorem agreement_child :
    AllSteps (receivePacket carSurroundings carSite [carRule "msg" "dev"])
      (Agree carSurroundings carSite [carRule "msg" "dev"])
      [(0, carPacket "msg"), (7, carPacket "msg")] [] := by
  have hexternal : ∀ a ∈ [((0 : Int), carPacket "msg"), (7, carPacket "msg")],
      a.2.inboundInterface = .wlan0 ∧ carSurroundings.isLoopback a.2.srcAddr = false := by
    simp [carPacket, carSurroundings]
  refine (agreement_iff hexternal []).mpr fun s₁ h₁ => ⟨fun pcp text _ i s hi => ?_, fun s₂ h₂ =>
    ⟨fun pcp text _ i s _ hs => ?_, trivial⟩⟩
  · simp [findStream] at hi
  · have hdest : (receivePacket carSurroundings carSite [carRule "msg" "dev"] []
        (0, carPacket "msg")).map (List.map TsnStream.destinationModule) = .ok [some 8] := by
      decide +kernel
    rw [h₁, Except.map, Except.ok.injEq] at hdest
    have hmem := List.mem_map_of_mem (f := TsnStream.destinationModule) (List.mem_of_getElem? hs)
    rw [hdest, List.mem_singleton] at hmem
    rw [hmem]
    rfl

/-- The packet for the car's own device is reserved for the device of the unit. -/
theorem nested_first_match_disagrees :
    ¬ AllSteps (receivePacket carSurroundings carSite [carRule "a" "unit.dev", carRule "b" "dev"])
      (Agree carSurroundings carSite [carRule "a" "unit.dev", carRule "b" "dev"])
      [(0, carPacket "a"), (7, carPacket "b")] [] := by
  intro hall
  have hfirst : (receivePacket carSurroundings carSite
      [carRule "a" "unit.dev", carRule "b" "dev"] [] (0, carPacket "a")).map (fun streams =>
        (findStream carSurroundings carSite (some 9) 0 "dev" streams,
          streams.map TsnStream.destinationModule,
          (receivePacket carSurroundings carSite [carRule "a" "unit.dev", carRule "b" "dev"]
            streams (7, carPacket "b")).isOk)) = .ok (some 0, [some 7], true) := by
    decide +kernel
  obtain ⟨s₁, h₁, heq⟩ := map_eq_ok.mp hfirst
  obtain ⟨hfind, hdest, hok⟩ : _ ∧ _ ∧ _ := by simpa only [Prod.mk.injEq] using heq
  obtain ⟨s₂, h₂⟩ := exists_of_isOk hok
  obtain ⟨hagree, -⟩ := (hall s₁ h₁).2 s₂ h₂
  rw [agree_iff rfl rfl h₂] at hagree
  obtain ⟨s, hs, hs7⟩ : ∃ s, s₁[0]? = some s ∧ s.destinationModule = some 7 := by
    have := congrArg (fun l => l[0]?) hdest
    simpa using this
  have hparent := hagree 0 "dev" (by rfl) 0 s hfind hs
  rw [hs7] at hparent
  exact absurd hparent (by decide)

end CooperativeTsn
