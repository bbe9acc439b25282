import CooperativeTsn.Infra.Runs
import Mathlib.Data.List.Nodup

/-!
# Updates of a family, one member after the other

A loop that goes through a list of keys and replaces the value of each key by one that it computes
from the old value, and may fail.

* `updateEach_frame` — the other members stay
* `updateEach_mem` — a member of the list has its computed value
* `exists_updateEach_ok` — the loop succeeds if every computation does
* `foldl_update` — a loop that does not look at the old values
-/

namespace Infra.Updates

open Infra.Runs

variable {Key Value Error : Type} [DecidableEq Key]

def updateEach (f : Key → Value → Except Error Value) :
    List Key → (Key → Value) → Except Error (Key → Value)
  | [], t => pure t
  | k :: ks, t => do
    let v ← f k (t k)
    updateEach f ks (Function.update t k v)

variable {f : Key → Value → Except Error Value} {k : Key}

theorem updateEach_frame : ∀ {ks : List Key} {t t' : Key → Value}, k ∉ ks →
    updateEach f ks t = .ok t' → t' k = t k
  | [], t, t', _, h => by
    rw [updateEach, pure_eq_ok] at h
    rw [h]
  | k₀ :: ks, t, t', hk, h => by
    simp only [updateEach, bind_eq_ok] at h
    obtain ⟨v, -, h⟩ := h
    rw [List.mem_cons, not_or] at hk
    rw [updateEach_frame hk.2 h, Function.update_of_ne hk.1]

theorem updateEach_mem : ∀ {ks : List Key} {t t' : Key → Value}, ks.Nodup → k ∈ ks →
    updateEach f ks t = .ok t' → f k (t k) = .ok (t' k)
  | [], _, _, _, hk, _ => absurd hk List.not_mem_nil
  | k₀ :: ks, t, t', hnodup, hk, h => by
    simp only [updateEach, bind_eq_ok] at h
    obtain ⟨v, hv, h⟩ := h
    rw [List.nodup_cons] at hnodup
    rcases List.mem_cons.mp hk with rfl | hk
    · rw [updateEach_frame hnodup.1 h, Function.update_self, hv]
    · have hne : k ≠ k₀ := fun heq => hnodup.1 (heq ▸ hk)
      rw [← updateEach_mem hnodup.2 hk h, Function.update_of_ne hne]

theorem exists_updateEach_ok : ∀ {ks : List Key} {t : Key → Value},
    (∀ k ∈ ks, ∀ v, ∃ v', f k v = .ok v') → ∃ t', updateEach f ks t = .ok t'
  | [], t, _ => ⟨t, rfl⟩
  | k :: ks, t, h => by
    obtain ⟨v, hv⟩ := h k List.mem_cons_self (t k)
    obtain ⟨t', ht'⟩ := exists_updateEach_ok (t := Function.update t k v) fun k' hk' =>
      h k' (List.mem_cons_of_mem _ hk')
    refine ⟨t', ?_⟩
    simp only [updateEach, bind_eq_ok]
    exact ⟨v, hv, ht'⟩

/-- The loop succeeds if the computations on the old values do. -/
theorem updateEach_ok : ∀ {ks : List Key} {t : Key → Value}, ks.Nodup →
    (∀ k ∈ ks, ∃ v, f k (t k) = .ok v) → ∃ t', updateEach f ks t = .ok t'
  | [], t, _, _ => ⟨t, rfl⟩
  | k :: ks, t, hnodup, h => by
    rw [List.nodup_cons] at hnodup
    obtain ⟨v, hv⟩ := h k List.mem_cons_self
    have hrest : ∀ k' ∈ ks, ∃ v', f k' (Function.update t k v k') = .ok v' := by
      intro k' hk'
      rw [Function.update_of_ne fun heq : k' = k => hnodup.1 (heq ▸ hk')]
      exact h k' (List.mem_cons_of_mem _ hk')
    obtain ⟨t', ht'⟩ := updateEach_ok hnodup.2 hrest
    refine ⟨t', ?_⟩
    simp only [updateEach, bind_eq_ok]
    exact ⟨v, hv, ht'⟩

/-- A loop may do more than what it is known for. -/
theorem updateEach_mono {g : Key → Value → Except Error Value} : ∀ {ks : List Key} {t t' : Key → Value},
    (∀ k v v', f k v = .ok v' → g k v = .ok v') → updateEach f ks t = .ok t' →
    updateEach g ks t = .ok t'
  | [], _, _, _, h => h
  | k :: ks, t, t', hle, h => by
    simp only [updateEach, bind_eq_ok] at h ⊢
    obtain ⟨v, hv, h⟩ := h
    exact ⟨v, hle k _ v hv, updateEach_mono hle h⟩

theorem foldl_update (v : Key → Value) : ∀ (ks : List Key) (t : Key → Value),
    ks.foldl (fun t k => Function.update t k (v k)) t k = if k ∈ ks then v k else t k
  | [], _ => rfl
  | k₀ :: ks, t => by
    rw [List.foldl_cons, foldl_update v ks]
    by_cases hk : k ∈ ks
    · rw [if_pos hk, if_pos (List.mem_cons_of_mem _ hk)]
    · rw [if_neg hk]
      by_cases heq : k = k₀
      · subst heq
        rw [if_pos List.mem_cons_self, Function.update_self]
      · rw [if_neg (fun h => (List.mem_cons.mp h).elim heq hk), Function.update_of_ne heq]

end Infra.Updates
