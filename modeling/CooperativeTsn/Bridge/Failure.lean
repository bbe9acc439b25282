import CooperativeTsn.Bridge.Network

/-!
# Registrations that fail

`registerNic` returns whether it has registered the network card. It returns false for one that is
known, and for one without a `MacForwardingTableConfigurator`. The second is found out last, after
the network card has been added to the set and the tables of all others have been written.

* `registerNicResult_ok` — when it returns false
* `failed_registration_clean_iff` — when a call that returns false changes nothing
-/

namespace CooperativeTsn

open Infra.Runs ForwardingAutoConfigurator

variable {Nic Car Host Mac Group : Type} [DecidableEq Host] [DecidableEq Mac] [DecidableEq Group]
  [LinearOrder Nic]

section

variable {layout : Layout Nic Car Host Mac Group} {value : Nic}
  {s s' : BridgeState Nic Car Host Mac Group} {b : Bool}

omit [LinearOrder Nic] in
theorem addExisting_result {now : Int} {mcastMac : Group} {existing : List Mac}
    {tables tables' : Host → MacForwardingTable Mac Group}
    (h : addExisting layout now mcastMac existing value tables = .ok (b, tables')) :
    b = false ↔ existing ≠ [] ∧ layout.configurator value = none := by
  rw [addExisting] at h
  split at h
  · next hnil =>
    rw [pure_eq_ok, Prod.mk.injEq] at h
    rw [← h.1]
    simp [hnil]
  · next hne =>
    split at h
    · next hnone =>
      rw [pure_eq_ok, Prod.mk.injEq] at h
      rw [← h.1]
      simp [hne, hnone]
    · next hsome =>
      simp only [bind_eq_ok, pure_eq_ok, Prod.mk.injEq] at h
      obtain ⟨_, -, rfl, -⟩ := h
      simp [hsome]

/-- When it returns false. -/
theorem registerNicResult_ok (h : registerNicResult layout value s = .ok (b, s')) :
    (value ∈ s.registeredNics ∧ b = false ∧ s' = s) ∨
      (value ∉ s.registeredNics ∧ value ∈ s'.registeredNics ∧
        (b = false ↔ s.registeredNics.flatMap layout.macs ≠ [] ∧
          layout.configurator value = none)) := by
  simp only [registerNicResult, bind_eq_ok, require_eq_ok] at h
  obtain ⟨existing, hexisting, mcastMac, -, h⟩ := h
  by_cases hknown : value ∈ s.registeredNics
  · rw [dif_pos hknown, pure_eq_ok, Prod.mk.injEq] at h
    exact .inl ⟨hknown, h.1.symm, h.2.symm⟩
  · rw [dif_neg hknown] at h
    simp only [bind_eq_ok, pure_eq_ok, Prod.mk.injEq] at h
    obtain ⟨_, -, _, -, ⟨result, tables⟩, hresult, rfl, rfl⟩ := h
    refine .inr ⟨hknown, (List.mem_orderedInsert _).mpr (.inl rfl), ?_⟩
    rw [← existingNicMacs_ok hexisting]
    exact addExisting_result hresult

/-- The network card can still be registered, once it has a configurator. -/
def CanRetry (value : Nic) (s : BridgeState Nic Car Host Mac Group) : Prop :=
  ∀ (layout : Layout Nic Car Host Mac Group) (later later' : BridgeState Nic Car Host Mac Group) b,
    layout.configurator value ≠ none → later.registeredNics = s.registeredNics →
      registerNicResult layout value later = .ok (b, later') → b = true

/-- The registered network cards and all tables are what they were, and a new one can retry. -/
structure FailsCleanly (value : Nic) (s s' : BridgeState Nic Car Host Mac Group) : Prop where
  registeredNics : s'.registeredNics = s.registeredNics
  tables : s'.tables = s.tables
  retry : value ∉ s.registeredNics → CanRetry value s'

/--
**A call that returns false changes nothing iff** the network card is known, has a configurator, or
is the first one with addresses.
-/
theorem failed_registration_clean_iff (h : registerNicResult layout value s = .ok (b, s')) :
    (b = false → FailsCleanly value s s') ↔
      value ∈ s.registeredNics ∨ layout.configurator value ≠ none ∨
        ∀ nic ∈ s.registeredNics, layout.macs nic = [] := by
  have hmacs : s.registeredNics.flatMap layout.macs = [] ↔
      ∀ nic ∈ s.registeredNics, layout.macs nic = [] := List.flatMap_eq_nil_iff
  rw [← hmacs]
  rcases registerNicResult_ok h with ⟨hknown, -, rfl⟩ | ⟨hnew, hmem, hfalse⟩
  · exact ⟨fun _ => .inl hknown, fun _ _ => ⟨rfl, rfl, fun hnew => absurd hknown hnew⟩⟩
  · constructor
    · intro hclean
      by_contra hbad
      simp only [not_or, not_not] at hbad
      have hsame := (hclean (hfalse.mpr ⟨hbad.2.2, hbad.2.1⟩)).registeredNics
      exact hnew (hsame ▸ hmem)
    · intro hgood hb
      obtain ⟨hmacs, hnone⟩ := hfalse.mp hb
      rcases hgood with hknown | hsome | hnil
      · exact absurd hknown hnew
      · exact absurd hnone hsome
      · exact absurd hnil hmacs

end

/-! ## Two cars -/

/-- The first car has registered. -/
def firstRegistered : BridgeState (Fin 2) (Fin 2) (Fin 4) Nat Unit :=
  { twoCarsStart with registeredNics := [0], nodup := List.nodup_singleton 0 }

/-- A second call for the same network card fails, and changes nothing. -/
theorem known_registration_clean :
    ∃ s', registerNicResult twoCars.toLayout 0 firstRegistered = .ok (false, s') ∧
      FailsCleanly 0 firstRegistered s' := by
  have h : registerNicResult twoCars.toLayout 0 firstRegistered = .ok (false, firstRegistered) :=
    rfl
  exact ⟨_, h, (failed_registration_clean_iff h).mpr (.inl List.mem_cons_self) rfl⟩

/-- The second car has no configurator yet. -/
def oneConfigurator : Layout (Fin 2) (Fin 2) (Fin 4) Nat Unit :=
  { twoCars.toLayout with configurator := fun nic => if nic = 0 then some 0 else none }

/--
The call for the second car returns false. The car stays in the set, its address is in the table of
the first car, and the call that follows when there is a configurator returns false as well.
-/
theorem failed_registration_leaves_traces :
    ∃ s', registerNicResult oneConfigurator 1 firstRegistered = .ok (false, s') ∧
      s'.registeredNics = [0, 1] ∧
      (firstRegistered.tables 0).forwardingTable (0, 4) = none ∧
      ((s'.tables 0).forwardingTable (0, 4)).map (·.value) = some 101 ∧
      registerNicResult twoCars.toLayout 1 s' = .ok (false, s') ∧
      ¬ FailsCleanly 1 firstRegistered s' := by
  obtain ⟨⟨b, s'⟩, h, hs'⟩ : ∃ r, registerNicResult oneConfigurator 1 firstRegistered = .ok r ∧
      decide (r.1 = false ∧ r.2.registeredNics = [0, 1] ∧
        ((r.2.tables 0).forwardingTable (0, 4)).map (·.value) = some 101) = true :=
    exists_of_any (by decide +kernel)
  obtain ⟨rfl, hregistered, htable⟩ := of_decide_eq_true hs'
  have hknown : 1 ∈ s'.registeredNics := by
    rw [hregistered]
    decide
  have hexisting : existingNicMacs twoCars.toLayout s'.registeredNics = .ok [1, 2, 3, 4] := by
    rw [hregistered]
    rfl
  refine ⟨s', h, hregistered, rfl, htable, ?_, fun hclean => ?_⟩
  · rw [registerNicResult, hexisting]
    simp only [bind, Except.bind, require, dif_pos hknown]
    rfl
  · have hsame := hclean.registeredNics
    rw [hregistered] at hsame
    exact absurd hsame (by decide)

end CooperativeTsn
