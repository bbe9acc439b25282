import CooperativeTsn.Bridge.Network

/-!
# Routes

The entry that a registration writes for a foreign address, and when it can be found.

* `lookup_of_registers` — the lookup of an address that a registration wrote
* `not_writes_of_registered` — a route between registered network cards is not written again
-/

namespace CooperativeTsn

open Infra.Aging Infra.Runs MacForwardingTable ForwardingAutoConfigurator

variable {Nic Car Host Mac Group : Type}

/-- The lookup at the current time. -/
def BridgeState.lookup (s : BridgeState Nic Car Host Mac Group) (host : Host) (m : Mac) : Int :=
  (s.tables host).getUnicastAddressForwardingInterface s.now m 0

/-- Entries up to this time are aged. -/
def BridgeState.horizon (s : BridgeState Nic Car Host Mac Group) (host : Host) : Int :=
  (s.tables host).horizon s.now

section

variable {net : Network Nic Car Host Mac Group} {s s' : BridgeState Nic Car Host Mac Group}
  {a b value : Nic} {host : Host} {m : Mac} {port : Int}

theorem lookup_eq_iff (hport : port ≠ -1) : s.lookup host m = port ↔
    ∃ entry, (s.tables host).forwardingTable (0, m) = some entry ∧
      entry.Alive (s.horizon host) ∧ entry.value = port := by
  rw [BridgeState.lookup, getUnicast_eq_iff hport, find_eq_some]
  rfl

/-- A lookup depends on the entry of the address and on the time. -/
theorem lookup_congr (hnow : s'.now = s.now) (hsame : (s.tables host).SameSettings (s'.tables host))
    (hentry : (s'.tables host).forwardingTable (0, m) = (s.tables host).forwardingTable (0, m)) :
    s'.lookup host m = s.lookup host m := by
  rw [BridgeState.lookup, BridgeState.lookup, getUnicast_eq_find, getUnicast_eq_find, hnow,
    hsame.horizon, find_congr hentry]

/-! ## The entries that a registration writes -/

/-- What a registration writes for the address can be found: it is written more than once, or in
place of an older entry, or new entries are not aged yet. -/
def Lasting (net : Network Nic Car Host Mac Group) (s : BridgeState Nic Car Host Mac Group)
    (a : Nic) (host : Host) (m : Mac) : Prop :=
  2 ≤ (net.interfaces a).length ∨ (s.tables host).forwardingTable (0, m) ≠ none ∨
    s.horizon host < newEntryTime

theorem installedEntry_alive_iff {last : NetworkInterface Mac}
    (hlast : (net.interfaces a).getLast? = some last) :
    (installedEntry s.now (net.interfaces a) last (s.tables host) m).Alive (s.horizon host) ↔
      Lasting net s a host m := by
  have hlength : 1 ≤ (net.interfaces a).length :=
    List.length_pos_of_mem (List.mem_of_getLast? hlast)
  rw [Lasting]
  by_cases hnew : (s.tables host).forwardingTable (0, m) = none ∧ (net.interfaces a).length = 1
  · rw [installedEntry, if_pos hnew]
    refine ⟨fun h => .inr (.inr h), ?_⟩
    rintro (h | h | h)
    · omega
    · exact absurd hnew.1 h
    · exact h
  · rw [installedEntry, if_neg hnew]
    refine ⟨fun _ => ?_, fun _ => alive_of_maxTime rfl s.now_le⟩
    by_cases hnone : (s.tables host).forwardingTable (0, m) = none
    · have : (net.interfaces a).length ≠ 1 := fun h => hnew ⟨hnone, h⟩
      exact .inl (by omega)
    · exact .inr (.inl hnone)

/-- The lookup of an address that a registration wrote. -/
theorem lookup_of_registers (h : Registers net s value s') (hpair : Pair s value a b)
    (hhost : host ∈ net.bridges a) (hm : m ∈ net.macs b) {last : NetworkInterface Mac}
    (hlast : (net.interfaces a).getLast? = some last) (hport : port ≠ -1) :
    s'.lookup host m = port ↔ s.lookup host last.macAddress = port ∧ Lasting net s a host m := by
  have hentry := h.written a b host m last hpair hhost hm hlast
  have hhorizon : s'.horizon host = s.horizon host := by
    rw [BridgeState.horizon, BridgeState.horizon, h.now, (h.sameSettings host).horizon]
  rw [lookup_eq_iff hport, ← installedEntry_alive_iff hlast, hhorizon]
  constructor
  · rintro ⟨entry, hsome, halive, hvalue⟩
    rw [hentry, Option.some.injEq] at hsome
    subst hsome
    exact ⟨hvalue, halive⟩
  · rintro ⟨hvalue, halive⟩
    exact ⟨_, hentry, halive, hvalue⟩

theorem macs_unique (ha : m ∈ net.macs a) (hb : m ∈ net.macs b) : a = b := by
  by_contra hne
  obtain ⟨i, hi, rfl⟩ := List.mem_map.mp ha
  exact net.macs_apart a b hne i (List.mem_of_mem_filter hi) hb

/-- A route between registered network cards is not written again. -/
theorem not_writes_of_registered (hnew : value ∉ s.registeredNics) (ha : a ∈ s.registeredNics)
    (hb : b ∈ s.registeredNics) (hhost : host ∈ net.bridges a) (hm : m ∈ net.macs b) :
    ¬ Writes net s value host m := by
  rintro ⟨a', b', hpair, hhost', hm'⟩
  obtain rfl := bridges_unique hhost hhost'
  obtain rfl := macs_unique hm hm'
  rcases hpair with ⟨-, rfl⟩ | ⟨rfl, -⟩
  · exact hnew hb
  · exact hnew ha

/-- Nor is the entry of an address of the car's own network card. -/
theorem not_writes_own {interface : NetworkInterface Mac} (hhost : host ∈ net.bridges a)
    (hinterface : interface ∈ net.interfaces a) (hnew : value ∉ s.registeredNics) :
    ¬ Writes net s value host interface.macAddress := by
  rintro ⟨a', b', hpair, hhost', hm'⟩
  obtain rfl := bridges_unique hhost hhost'
  refine net.macs_apart a b' (fun heq => ?_) interface hinterface hm'
  subst heq
  rcases hpair with ⟨ha, rfl⟩ | ⟨rfl, hb⟩
  · exact hnew ha
  · exact hnew hb

end

end CooperativeTsn
