import CooperativeTsn.Bridge.Routes

/-!
# Routes after registrations

Once all cars have registered, every bridge of a car should have the port of its network card for
the addresses of all other cars. A registration takes the port of the last interface of the network
card, and the entries that the configuration wrote are aged after 119 s.

* `routesKept_step` — what a step under the condition keeps
* `keepsRoutes_of_complete` — a step that leaves complete routes meets the condition
* `routes_complete_iff` — the routes are complete in every state iff every step meets the condition
-/

namespace CooperativeTsn

open Infra Infra.Aging Infra.Runs MacForwardingTable ForwardingAutoConfigurator

variable {Nic Car Host Mac Group : Type}

/-- The events between which the routes are written. -/
def BridgeEvent.isRegistration : BridgeEvent Nic Car Host Mac Group → Bool
  | .registerNic _ => true
  | .advance _ => true
  | _ => false

/--
In each bridge of each registered network card, the lookup of every address of every other one
returns a port that the table returned in the first state for an interface of its own network card.
-/
def RoutesComplete (net : Network Nic Car Host Mac Group)
    (s₀ s : BridgeState Nic Car Host Mac Group) : Prop :=
  ∀ a ∈ s.registeredNics, ∀ b ∈ s.registeredNics, a ≠ b → ∀ host ∈ net.bridges a,
    ∀ m ∈ net.macs b, s.lookup host m ≠ -1 ∧
      ∃ interface ∈ net.interfaces a, s₀.lookup host interface.macAddress = s.lookup host m

/--
The condition on a step. A new registration finds, in every table that it writes to, a port for the
last interface of the network card there, and what it writes can be found. No route is aged at the
time to which the clock advances.
-/
def KeepsRoutes (net : Network Nic Car Host Mac Group) (s : BridgeState Nic Car Host Mac Group) :
    BridgeEvent Nic Car Host Mac Group → Prop
  | .registerNic value => value ∉ s.registeredNics → ∀ a b, Pair s value a b →
      ∀ host ∈ net.bridges a, ∀ m ∈ net.macs b,
        (∃ last, (net.interfaces a).getLast? = some last ∧ s.lookup host last.macAddress ≠ -1) ∧
          Lasting net s a host m
  | .advance time => ∀ a ∈ s.registeredNics, ∀ b ∈ s.registeredNics, a ≠ b →
      ∀ host ∈ net.bridges a, ∀ m ∈ net.macs b, ∀ entry,
        (s.tables host).forwardingTable (0, m) = some entry →
          entry.Alive ((s.tables host).horizon time)
  | _ => True

/-! ## What registrations keep -/

/-- Registrations write no entry for the addresses of a car to its own bridges. -/
structure StartsFrom (net : Network Nic Car Host Mac Group)
    (s₀ s : BridgeState Nic Car Host Mac Group) : Prop where
  now_le : s₀.now ≤ s.now
  sameSettings : ∀ host, (s₀.tables host).SameSettings (s.tables host)
  own : ∀ a, ∀ host ∈ net.bridges a, ∀ interface ∈ net.interfaces a,
    (s.tables host).forwardingTable (0, interface.macAddress) =
      (s₀.tables host).forwardingTable (0, interface.macAddress)

/-- Every route has the port of the last interface. -/
structure RoutesKept (net : Network Nic Car Host Mac Group)
    (s₀ s : BridgeState Nic Car Host Mac Group) : Prop extends StartsFrom net s₀ s where
  routes : ∀ a ∈ s.registeredNics, ∀ b ∈ s.registeredNics, a ≠ b → ∀ host ∈ net.bridges a,
    ∀ m ∈ net.macs b, s.lookup host m ≠ -1 ∧ ∃ last, (net.interfaces a).getLast? = some last ∧
      s₀.lookup host last.macAddress = s.lookup host m

section

variable {net : Network Nic Car Host Mac Group} {s₀ s s' : BridgeState Nic Car Host Mac Group}
  {a b value : Nic} {host : Host} {m : Mac}

theorem RoutesKept.complete (h : RoutesKept net s₀ s) : RoutesComplete net s₀ s := by
  intro a ha b hb hne host hhost m hm
  obtain ⟨hfound, last, hlast, hport⟩ := h.routes a ha b hb hne host hhost m hm
  exact ⟨hfound, last, List.mem_of_getLast? hlast, hport⟩

/-- A port that is found for an address of the network card itself was there from the start. -/
theorem StartsFrom.lookup_own (h : StartsFrom net s₀ s) (hhost : host ∈ net.bridges a)
    {interface : NetworkInterface Mac} (hinterface : interface ∈ net.interfaces a)
    (hfound : s.lookup host interface.macAddress ≠ -1) :
    s₀.lookup host interface.macAddress = s.lookup host interface.macAddress := by
  obtain ⟨entry, hentry, halive, hvalue⟩ := (lookup_eq_iff hfound).mp rfl
  refine (lookup_eq_iff hfound).mpr ⟨entry, ?_, ?_, hvalue⟩
  · rw [← h.own a host hhost interface hinterface, hentry]
  · have hnow := h.now_le
    rw [Entry.Alive, BridgeState.horizon, (h.sameSettings host).horizon,
      MacForwardingTable.horizon] at halive
    rw [Entry.Alive, BridgeState.horizon, MacForwardingTable.horizon]
    omega

theorem StartsFrom.refl (net : Network Nic Car Host Mac Group)
    (s : BridgeState Nic Car Host Mac Group) : StartsFrom net s s :=
  ⟨le_rfl, fun _ => .refl _, fun _ _ _ _ _ => rfl⟩

theorem StartsFrom.register (h : StartsFrom net s₀ s) (hnew : value ∉ s.registeredNics)
    (hreg : Registers net s value s') : StartsFrom net s₀ s' := by
  refine ⟨hreg.now ▸ h.now_le, fun host => (h.sameSettings host).trans (hreg.sameSettings host),
    fun a host hhost interface hinterface => ?_⟩
  rw [hreg.frame host 0 _ fun hw => not_writes_own hhost hinterface hnew hw.2]
  exact h.own a host hhost interface hinterface

theorem RoutesKept.register (h : RoutesKept net s₀ s) (hnew : value ∉ s.registeredNics)
    (hreg : Registers net s value s') (hkeeps : KeepsRoutes net s (.registerNic value)) :
    RoutesKept net s₀ s' := by
  refine ⟨h.toStartsFrom.register hnew hreg, ?_⟩
  intro a ha b hb hne host hhost m hm
  by_cases hold : a ∈ s.registeredNics ∧ b ∈ s.registeredNics
  · have hnot : ¬ Writes net s value host m :=
      not_writes_of_registered hnew hold.1 hold.2 hhost hm
    rw [lookup_congr hreg.now (hreg.sameSettings host)
      (hreg.frame host 0 m fun hw => hnot hw.2)]
    exact h.routes a hold.1 b hold.2 hne host hhost m hm
  · have hpair : Pair s value a b := by
      rcases (hreg.mem a).mp ha with rfl | ha
      · rcases (hreg.mem b).mp hb with rfl | hb
        · exact absurd rfl hne
        · exact .inr ⟨rfl, hb⟩
      · rcases (hreg.mem b).mp hb with rfl | hb
        · exact .inl ⟨ha, rfl⟩
        · exact absurd ⟨ha, hb⟩ hold
    obtain ⟨⟨last, hlast, hfound⟩, hlasting⟩ := hkeeps hnew a b hpair host hhost m hm
    have hlookup := (lookup_of_registers hreg hpair hhost hm hlast hfound).mpr ⟨rfl, hlasting⟩
    rw [hlookup]
    exact ⟨hfound, last, hlast,
      h.toStartsFrom.lookup_own hhost (List.mem_of_getLast? hlast) hfound⟩

theorem routesKept_start (h : s₀.registeredNics = []) : RoutesKept net s₀ s₀ := by
  refine ⟨.refl net s₀, fun a ha => ?_⟩
  rw [h] at ha
  exact absurd ha List.not_mem_nil

variable [DecidableEq Car] [DecidableEq Host] [DecidableEq Mac] [DecidableEq Group]
  [LinearOrder Nic]

/-- **A step under the condition keeps the routes.** -/
theorem routesKept_step {e : BridgeEvent Nic Car Host Mac Group} (he : e.isRegistration = true)
    (h : RoutesKept net s₀ s) (hkeeps : KeepsRoutes net s e) (hstep : step net s e = .ok s') :
    RoutesKept net s₀ s' := by
  match e, he with
  | .registerNic value, _ =>
    by_cases hknown : value ∈ s.registeredNics
    · exact registerNic_known hknown hstep ▸ h
    · exact h.register hknown (registerNic_ok hknown hstep) hkeeps
  | .advance time, _ =>
    obtain ⟨hle, hnow, hregistered, htables⟩ := advanceTo_ok hstep
    refine ⟨⟨?_, htables ▸ h.sameSettings, htables ▸ h.own⟩, ?_⟩
    · have := h.now_le
      omega
    · intro a ha b hb hne host hhost m hm
      rw [hregistered] at ha hb
      obtain ⟨hfound, last, hlast, hport⟩ := h.routes a ha b hb hne host hhost m hm
      obtain ⟨entry, hentry, -, hvalue⟩ := (lookup_eq_iff hfound).mp rfl
      have halive := hkeeps a ha b hb hne host hhost m hm entry hentry
      have hlookup : s'.lookup host m = s.lookup host m := by
        refine (lookup_eq_iff hfound).mpr ⟨entry, by rw [htables, hentry], ?_, hvalue⟩
        rw [BridgeState.horizon, htables, hnow]
        exact halive
      rw [hlookup]
      exact ⟨hfound, last, hlast, hport⟩

/-- **A step that leaves complete routes meets the condition.** -/
theorem keepsRoutes_of_complete {e : BridgeEvent Nic Car Host Mac Group}
    (hstep : step net s e = .ok s') (hcomplete : RoutesComplete net s₀ s') :
    KeepsRoutes net s e := by
  match e with
  | .registerNic value =>
    intro hnew a b hpair host hhost m hm
    have hreg := registerNic_ok hnew hstep
    have hne : a ≠ b := by
      rintro rfl
      rcases hpair with ⟨ha, rfl⟩ | ⟨rfl, hb⟩
      · exact hnew ha
      · exact hnew hb
    have hmem : a ∈ s'.registeredNics ∧ b ∈ s'.registeredNics := by
      rw [hreg.mem, hreg.mem]
      rcases hpair with ⟨ha, hb⟩ | ⟨ha, hb⟩
      · exact ⟨.inr ha, .inl hb⟩
      · exact ⟨.inl ha, .inr hb⟩
    -- afterwards both are registered, so the route between them is one of those that are complete
    obtain ⟨hfound, interface, hinterface, -⟩ :=
      hcomplete a hmem.1 b hmem.2 hne host hhost m hm
    obtain ⟨last, hlast⟩ : ∃ last, (net.interfaces a).getLast? = some last :=
      ⟨_, List.getLast?_eq_some_getLast (List.ne_nil_of_mem hinterface)⟩
    obtain ⟨hport, hlasting⟩ := (lookup_of_registers hreg hpair hhost hm hlast hfound).mp rfl
    exact ⟨⟨last, hlast, hport ▸ hfound⟩, hlasting⟩
  | .advance time =>
    obtain ⟨-, hnow, hregistered, htables⟩ := advanceTo_ok hstep
    intro a ha b hb hne host hhost m hm entry hentry
    rw [← hregistered] at ha hb
    obtain ⟨hfound, -⟩ := hcomplete a ha b hb hne host hhost m hm
    obtain ⟨entry', hentry', halive, -⟩ := (lookup_eq_iff hfound).mp rfl
    rw [htables, hentry, Option.some.injEq] at hentry'
    rw [BridgeState.horizon, htables, hnow] at halive
    exact hentry' ▸ halive
  | .learn .. => exact trivial
  | .multicastChange .. => exact trivial

/-! ## All runs -/

/--
**The routes are complete after every step of a run iff every step meets the condition**, and in the
end they are those of the first state, whatever the order of the registrations.
-/
theorem routes_complete_iff (hstart : s₀.registeredNics = [])
    {events : List (BridgeEvent Nic Car Host Mac Group)}
    (hevents : ∀ e ∈ events, e.isRegistration = true) :
    (AllSteps (step net) (fun _ _ s' => RoutesComplete net s₀ s') events s₀ ↔
        AllSteps (step net) (fun s e _ => KeepsRoutes net s e) events s₀) ∧
      ∀ s, run (step net) events s₀ = .ok s →
        AllSteps (step net) (fun s e _ => KeepsRoutes net s e) events s₀ →
        ∀ a ∈ s.registeredNics, ∀ b ∈ s.registeredNics, a ≠ b → ∀ host ∈ net.bridges a,
          ∀ m ∈ net.macs b, ∃ last, (net.interfaces a).getLast? = some last ∧
            s.lookup host m = s₀.lookup host last.macAddress := by
  constructor
  · refine allSteps_iff (I := RoutesKept net s₀) (fun s e s' he hI hstep => ?_)
      (fun s e s' he hI hstep hcomplete => ?_) (routesKept_start hstart)
    · exact ⟨keepsRoutes_of_complete hstep,
        fun hkeeps => (routesKept_step (hevents e he) hI hkeeps hstep).complete⟩
    · exact routesKept_step (hevents e he) hI (keepsRoutes_of_complete hstep hcomplete) hstep
  · intro s hrun hall a ha b hb hne host hhost m hm
    have hkept := run_invariant_of_allSteps (I := RoutesKept net s₀)
      (fun s e s' he hI hkeeps hstep => routesKept_step (hevents e he) hI hkeeps hstep)
      (routesKept_start hstart) hall hrun
    obtain ⟨-, last, hlast, hport⟩ := hkept.routes a ha b hb hne host hhost m hm
    exact ⟨last, hlast, hport.symm⟩

end

theorem routes_complete_at_start :
    AllSteps (step twoCars) (fun _ _ s' => RoutesComplete twoCars twoCarsStart s')
      [.registerNic 0, .registerNic 1] twoCarsStart := by
  refine (routes_complete_iff rfl (by decide)).1.mpr fun s₁ h₁ => ⟨?_, ?_⟩
  · rintro - a b (⟨ha, -⟩ | ⟨-, hb⟩)
    · exact absurd ha List.not_mem_nil
    · exact absurd hb List.not_mem_nil
  intro s₂ _
  have hs₁ := of_any (x := step twoCars twoCarsStart (.registerNic 0))
    (p := fun s => decide (s.registeredNics = [0] ∧ s.lookup 0 2 = 101 ∧ s.lookup 1 4 = 101))
    (by decide +kernel) h₁
  obtain ⟨hregistered, hport₀, hport₁⟩ := of_decide_eq_true hs₁
  have hlasting : ∀ a host m, Lasting twoCars s₁ a host m := fun _ _ _ =>
    .inl (show 2 ≤ 3 by decide)
  refine ⟨?_, trivial⟩
  intro _ a b hpair host hhost m _
  refine ⟨?_, hlasting a host m⟩
  rw [Pair, hregistered] at hpair
  rcases hpair with ⟨ha, -⟩ | ⟨rfl, -⟩
  · obtain rfl := List.mem_singleton.mp ha
    obtain rfl : host = 0 := by revert hhost; revert host; decide
    exact ⟨⟨false, 2⟩, rfl, by rw [hport₀]; decide⟩
  · obtain rfl : host = 1 := by revert hhost; revert host; decide
    exact ⟨⟨false, 4⟩, rfl, by rw [hport₁]; decide⟩

/-- At 119 s the entries of the configuration are aged, and the second car gets no route. -/
theorem late_registration_finds_no_route :
    twoCarsStart.lookup 0 2 = 101 ∧ ∃ s, run (step twoCars)
        [.registerNic 0, .advance (119 * SimTime.sec), .registerNic 1] twoCarsStart = .ok s ∧
      ¬ RoutesComplete twoCars twoCarsStart s := by
  obtain ⟨s, hrun, hs⟩ := exists_of_any (x := run (step twoCars)
      [.registerNic 0, .advance (119 * SimTime.sec), .registerNic 1] twoCarsStart)
    (p := fun s => decide (s.registeredNics = [0, 1] ∧ s.lookup 0 4 = -1)) (by decide +kernel)
  obtain ⟨hregistered, hlookup⟩ := of_decide_eq_true hs
  refine ⟨by decide, s, hrun, fun hcomplete => ?_⟩
  refine (hcomplete 0 ?_ 1 ?_ (by decide) 0 (by decide) 4 (by decide)).1 hlookup
  · rw [hregistered]
    decide
  · rw [hregistered]
    decide

end CooperativeTsn
