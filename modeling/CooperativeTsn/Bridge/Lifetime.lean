import CooperativeTsn.Bridge.Routes

/-!
# The life of a route

A route that a registration installed at a bridge, under all events that write to the table:
registrations, learning, time and changes of multicast groups. Learning takes a route only if its
entry does not have the largest time; a change of a multicast group in the car takes all routes of
its bridges.

* `keepsRoute_iff` — a step keeps a route iff it meets the condition
* `route_lives_iff` — a route can be looked up in every later state iff every step meets it
-/

namespace CooperativeTsn

open Infra Infra.Aging Infra.Runs MacForwardingTable ForwardingAutoConfigurator
  MacForwardingTableConfigurator

variable {Nic Car Host Mac Group : Type}

/-- The registration installs the port for the address at the bridge in the host. -/
def Installs (net : Network Nic Car Host Mac Group) (s : BridgeState Nic Car Host Mac Group)
    (value : Nic) (host : Host) (m : Mac) (port : Int) : Prop :=
  value ∉ s.registeredNics ∧ port ≠ -1 ∧ ∃ a b last, Pair s value a b ∧ host ∈ net.bridges a ∧
    m ∈ net.macs b ∧ (net.interfaces a).getLast? = some last ∧
      s.lookup host last.macAddress = port

/-- A change of the multicast group writes the table of the host again. -/
def Rewrites (net : Network Nic Car Host Mac Group) (s : BridgeState Nic Car Host Mac Group)
    (car : Car) (node : Host) (interface : String) (host : Host) : Prop :=
  host ∈ net.topology car ∧
    ((s.configurations car host).isSome = true ∨ Reaches net.toLayout car node interface host)

/--
The condition on a step, for a route. What a registration installs is written more than once, or in
place of an older entry, or new entries are not aged yet. Learning for the same address sees the
same port or an entry with the largest time. The entry is not aged at the time to which the clock
advances. A change of a multicast group does not write the table again, or the rules of the car have
the route and new entries are not aged yet.
-/
def KeepsRoute (net : Network Nic Car Host Mac Group) (host : Host) (m : Mac) (port : Int)
    (s : BridgeState Nic Car Host Mac Group) [DecidableEq Mac] [DecidableEq Group] :
    BridgeEvent Nic Car Host Mac Group → Prop
  | .registerNic value => value ∉ s.registeredNics → ∀ a b, Pair s value a b →
      host ∈ net.bridges a → m ∈ net.macs b → Lasting net s a host m
  | .learn host' interfaceId address vid => host' = host → (vid, address) = (0, m) →
      interfaceId = port ∨ ∀ entry, (s.tables host).forwardingTable (0, m) = some entry →
        entry.time = maxTime
  | .advance time => ∀ entry, (s.tables host).forwardingTable (0, m) = some entry →
      entry.Alive ((s.tables host).horizon time)
  | .multicastChange car node interface _ => Rewrites net s car node interface host →
      (s.tables host).configuredPort ((s.configurations car host).getD []) 0 m = some port ∧
        s.horizon host < newEntryTime

/-! ## One step -/

section

variable [DecidableEq Car] [DecidableEq Host] [DecidableEq Mac] [DecidableEq Group]
  [LinearOrder Nic] {net : Network Nic Car Host Mac Group}
  {s s' : BridgeState Nic Car Host Mac Group} {a b value : Nic} {host : Host} {m : Mac} {port : Int}

/-- The route between two registered network cards can be looked up. -/
structure HasRoute (net : Network Nic Car Host Mac Group) (a b : Nic) (host : Host) (m : Mac)
    (port : Int) (s : BridgeState Nic Car Host Mac Group) : Prop where
  source : a ∈ s.registeredNics
  destination : b ∈ s.registeredNics
  lookup : s.lookup host m = port

/-- Learning keeps the route iff it does not take its entry. -/
theorem lookup_learn (hport : port ≠ -1) (hlookup : s.lookup host m = port) {host' : Host}
    {interfaceId : Int} {address : Mac} {vid : Nat}
    (hstep : step net s (.learn host' interfaceId address vid) = .ok s') :
    s'.lookup host m = port ↔ KeepsRoute net host m port s (.learn host' interfaceId address vid) := by
  obtain ⟨hnow, -, htable, hframe⟩ := step_learn hstep
  by_cases hhost : host' = host
  · subst hhost
    obtain ⟨entry, hentry, halive, hvalue⟩ := (lookup_eq_iff hport).mp hlookup
    have hsame : (s.tables host').SameSettings (s'.tables host') := htable ▸ sameSettings_learn
    have hlearned : (s'.tables host').forwardingTable (0, m) = some
        (if (0, m) = (vid, address) ∧ entry.time ≠ maxTime then ⟨interfaceId, s.now⟩ else entry) :=
      htable ▸ forwardingTable_learn hentry halive
    have hfresh : s.horizon host' < s.now := by
      have := (s.tables host').agingTime_pos
      rw [BridgeState.horizon, MacForwardingTable.horizon]
      omega
    rw [lookup_eq_iff hport, BridgeState.horizon, hsame.horizon, hnow, hlearned]
    simp only [Option.some.injEq, exists_eq_left', KeepsRoute, forall_const, hentry, forall_eq']
    -- the entry of the route is overwritten only if it is of this address and can age
    by_cases hkey : (0, m) = (vid, address) ∧ entry.time ≠ maxTime
    · rw [if_pos hkey]
      exact ⟨fun h _ => .inl h.2, fun h => ⟨hfresh, (h hkey.1.symm).resolve_right hkey.2⟩⟩
    · rw [if_neg hkey]
      refine ⟨fun _ heq => ?_, fun _ => ⟨halive, hvalue⟩⟩
      by_contra hnot
      rw [not_or] at hnot
      exact hkey ⟨heq.symm, hnot.2⟩
  · refine ⟨fun _ heq => absurd heq hhost, fun _ => ?_⟩
    have hother := hframe host (Ne.symm hhost)
    rw [← hlookup]
    exact lookup_congr hnow (hother ▸ .refl _) (by rw [hother])

theorem lookup_advance (hport : port ≠ -1) (hlookup : s.lookup host m = port) {time : Int}
    (hstep : step net s (.advance time) = .ok s') :
    s'.lookup host m = port ↔ KeepsRoute net host m port s (.advance time) := by
  obtain ⟨-, hnow, -, htables⟩ := advanceTo_ok hstep
  obtain ⟨entry, hentry, -, hvalue⟩ := (lookup_eq_iff hport).mp hlookup
  rw [lookup_eq_iff hport, BridgeState.horizon, htables, hnow, hentry]
  simp only [Option.some.injEq, exists_eq_left', KeepsRoute, hentry, forall_eq']
  exact ⟨fun h => h.1, fun h => ⟨h, hvalue⟩⟩

/-- A table that is written again has the route iff the rules have it. -/
theorem lookup_multicastChange (hport : port ≠ -1) (hlookup : s.lookup host m = port) {car : Car}
    {node : Host} {interface : String} {group : Group}
    (hstep : step net s (.multicastChange car node interface group) = .ok s') :
    s'.lookup host m = port ↔
      KeepsRoute net host m port s (.multicastChange car node interface group) := by
  obtain ⟨hnow, -, configurations, hextend, hconfigure⟩ := step_multicastChange hstep
  by_cases hrewrites : Rewrites net s car node interface host
  · obtain ⟨hhost, hrules⟩ := id hrewrites
    obtain ⟨hsome, hports⟩ := extendConfiguration_ok hextend hhost
    obtain ⟨hsame, hentries⟩ := configureMacForwardingTables_ok hconfigure hhost (hsome.mpr hrules)
    rw [lookup_eq_iff hport, BridgeState.horizon, hsame.horizon, hnow, hentries, hports]
    simp only [Option.map_eq_some_iff, KeepsRoute, hrewrites, forall_const]
    constructor
    · rintro ⟨_, ⟨_, hconfigured, rfl⟩, halive, rfl⟩
      exact ⟨hconfigured, halive⟩
    · rintro ⟨hconfigured, halive⟩
      exact ⟨_, ⟨port, hconfigured, rfl⟩, halive, rfl⟩
  · have htable : s'.tables host = s.tables host := by
      refine configureMacForwardingTables_frame hconfigure ?_
      by_cases hhost : host ∈ net.topology car
      · refine .inr (Option.not_isSome_iff_eq_none.mp fun hrules => hrewrites ⟨hhost, ?_⟩)
        exact (extendConfiguration_ok hextend hhost).1.mp hrules
      · exact .inl hhost
    refine ⟨fun _ h => absurd h hrewrites, fun _ => ?_⟩
    rw [← hlookup]
    exact lookup_congr hnow (htable ▸ .refl _) (by rw [htable])

/-- Registrations write no route between network cards that are registered. -/
theorem lookup_registerNic (h : HasRoute net a b host m port s) (hhost : host ∈ net.bridges a)
    (hm : m ∈ net.macs b) (hstep : step net s (.registerNic value) = .ok s') :
    s'.lookup host m = port ∧ KeepsRoute net host m port s (.registerNic value) := by
  by_cases hknown : value ∈ s.registeredNics
  · obtain rfl := registerNic_known hknown hstep
    exact ⟨h.lookup, fun hnew => absurd hknown hnew⟩
  · have hreg := registerNic_ok hknown hstep
    have hnot := not_writes_of_registered hknown h.source h.destination hhost hm
    refine ⟨?_, fun _ a' b' hpair hhost' hm' => absurd ⟨a', b', hpair, hhost', hm'⟩ hnot⟩
    rw [← h.lookup]
    exact lookup_congr hreg.now (hreg.sameSettings host) (hreg.frame host 0 m fun hw => hnot hw.2)

/-- **A step keeps a route iff it meets the condition.** -/
theorem keepsRoute_iff (hport : port ≠ -1) (hhost : host ∈ net.bridges a) (hm : m ∈ net.macs b)
    (h : HasRoute net a b host m port s) {e : BridgeEvent Nic Car Host Mac Group}
    (hstep : step net s e = .ok s') :
    s'.lookup host m = port ↔ KeepsRoute net host m port s e := by
  cases e with
  | registerNic value =>
    obtain ⟨hlookup, hkeeps⟩ := lookup_registerNic h hhost hm hstep
    exact ⟨fun _ => hkeeps, fun _ => hlookup⟩
  | learn => exact lookup_learn hport h.lookup hstep
  | advance => exact lookup_advance hport h.lookup hstep
  | multicastChange => exact lookup_multicastChange hport h.lookup hstep

/-- No step forgets a registered network card. -/
theorem mem_registeredNics_step {e : BridgeEvent Nic Car Host Mac Group} {nic : Nic}
    (hnic : nic ∈ s.registeredNics) (hstep : step net s e = .ok s') : nic ∈ s'.registeredNics := by
  cases e with
  | registerNic value =>
    by_cases hknown : value ∈ s.registeredNics
    · exact registerNic_known hknown hstep ▸ hnic
    · exact ((registerNic_ok hknown hstep).mem nic).mpr (.inr hnic)
  | learn => exact (step_learn hstep).2.1 ▸ hnic
  | advance => exact (advanceTo_ok hstep).2.2.1 ▸ hnic
  | multicastChange => exact (step_multicastChange hstep).2.1 ▸ hnic

/-! ## All runs -/

/-- The registration that installs a route leaves it to be found iff it meets the condition. -/
theorem installs_iff (hinstalls : Installs net s value host m port)
    (hstep : step net s (.registerNic value) = .ok s') :
    (s'.lookup host m = port ↔ KeepsRoute net host m port s (.registerNic value)) ∧
      ∃ a b, host ∈ net.bridges a ∧ m ∈ net.macs b ∧ a ∈ s'.registeredNics ∧
        b ∈ s'.registeredNics := by
  obtain ⟨hnew, hport, a, b, last, hpair, hhost, hm, hlast, hlookup⟩ := hinstalls
  have hreg := registerNic_ok hnew hstep
  constructor
  · rw [lookup_of_registers hreg hpair hhost hm hlast hport]
    constructor
    · rintro ⟨-, hlasting⟩ _ a' b' _ hhost' _
      exact bridges_unique hhost hhost' ▸ hlasting
    · intro hkeeps
      exact ⟨hlookup, hkeeps hnew a b hpair hhost hm⟩
  · refine ⟨a, b, hhost, hm, ?_⟩
    rw [hreg.mem, hreg.mem]
    rcases hpair with ⟨ha, hb⟩ | ⟨ha, hb⟩
    · exact ⟨.inr ha, .inl hb⟩
    · exact ⟨.inl ha, .inr hb⟩

/-- **An installed route is found in every later state iff every step meets the condition.** -/
theorem route_lives_iff (hinstalls : Installs net s value host m port)
    (events : List (BridgeEvent Nic Car Host Mac Group)) :
    AllSteps (step net) (fun _ _ s' => s'.lookup host m = port) (.registerNic value :: events) s ↔
      AllSteps (step net) (fun s e _ => KeepsRoute net host m port s e)
        (.registerNic value :: events) s := by
  have hport : port ≠ -1 := hinstalls.2.1
  refine forall_congr' fun s' => imp_congr_right fun hstep => ?_
  obtain ⟨hfirst, a, b, hhost, hm, ha, hb⟩ := installs_iff hinstalls hstep
  dsimp only
  rw [← hfirst]
  refine and_congr_right fun hlookup => ?_
  refine allSteps_iff (I := HasRoute net a b host m port)
    (fun s e s' _ hI hstep => keepsRoute_iff hport hhost hm hI hstep)
    (fun s e s' _ hI hstep hfound => ?_) ⟨ha, hb, hlookup⟩
  exact ⟨mem_registeredNics_step hI.source hstep, mem_registeredNics_step hI.destination hstep,
    hfound⟩

end

/-- The route to the second car outlives traffic from another port. -/
theorem route_survives_learning : ∃ s, step twoCars twoCarsStart (.registerNic 0) = .ok s ∧
    AllSteps (step twoCars) (fun _ _ s' => s'.lookup 0 4 = 101)
      [.registerNic 1, .learn 0 102 4 0] s := by
  obtain ⟨s, hs, hstate⟩ := exists_of_any (x := step twoCars twoCarsStart (.registerNic 0))
    (p := fun s => decide (s.registeredNics = [0] ∧ s.lookup 0 2 = 101 ∧
      (step twoCars s (.registerNic 1)).toOption.any (fun s₁ => decide
        ((s₁.tables 0).forwardingTable (0, 4) = some ⟨101, maxTime⟩)) = true)) (by decide +kernel)
  obtain ⟨hregistered, hport, hwritten⟩ := of_decide_eq_true hstate
  have hinstalls : Installs twoCars s 1 0 4 101 := by
    refine ⟨by rw [hregistered]; decide, by decide, 0, 1, ⟨false, 2⟩, ?_, by decide, by decide, rfl,
      hport⟩
    rw [Pair, hregistered]
    decide
  refine ⟨s, hs, (route_lives_iff hinstalls [.learn 0 102 4 0]).mpr fun s₁ h₁ => ⟨?_, ?_⟩⟩
  · exact fun _ _ _ _ _ _ => .inl (show 2 ≤ 3 by decide)
  · have hentry := of_decide_eq_true (of_any hwritten h₁)
    refine fun s₂ _ => ⟨fun _ _ => .inr fun entry h => ?_, trivial⟩
    rw [hentry, Option.some.injEq] at h
    rw [← h]

/-- A new member of a multicast group in the first car takes the route to the second car. -/
theorem multicast_change_loses_route :
    ∃ s s', step twoCars twoCarsStart (.registerNic 0) = .ok s ∧ Installs twoCars s 1 0 4 101 ∧
      run (step twoCars) [.registerNic 1, .multicastChange 0 2 "eth0" ()] s = .ok s' ∧
      s'.lookup 0 4 = -1 := by
  obtain ⟨s, hs, hstate⟩ := exists_of_any (x := step twoCars twoCarsStart (.registerNic 0))
    (p := fun s => decide (s.registeredNics = [0] ∧ s.lookup 0 2 = 101 ∧
      (run (step twoCars) [.registerNic 1, .multicastChange 0 2 "eth0" ()] s).toOption.any
        (fun s' => decide (s'.lookup 0 4 = -1)) = true)) (by decide +kernel)
  obtain ⟨hregistered, hport, hlost⟩ := of_decide_eq_true hstate
  obtain ⟨s', hrun, hs'⟩ := exists_of_any hlost
  refine ⟨s, s', hs, ?_, hrun, of_decide_eq_true hs'⟩
  refine ⟨by rw [hregistered]; decide, by decide, 0, 1, ⟨false, 2⟩, ?_, by decide, by decide, rfl,
    hport⟩
  rw [Pair, hregistered]
  decide

end CooperativeTsn
