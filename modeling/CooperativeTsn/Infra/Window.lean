import Mathlib.Data.List.Basic

/-!
# Bounded windows

A list that keeps the newest `cap` entries, newest first. `push` drops the oldest entry of a full
window before it adds the new one. A window that starts full of a filler holds, after any number of
pushes, the newest entries followed by what is left of the filler.

A window that is sampled every `cap` pushes shows each entry in one sample: in the first that comes
after the entry (`mem_newest_of_first`) and in no other (`newest_disjoint`).
-/

namespace Infra.Window

variable {α : Type _}

/-- Adds an entry in front; a full window loses its oldest entry first. -/
def push (cap : Nat) (x : α) (l : List α) : List α :=
  x :: if l.length = cap then l.dropLast else l

theorem push_eq_take {cap : Nat} {l : List α} (h : l.length = cap) (hc : 0 < cap) (x : α) :
    push cap x l = (x :: l).take cap := by
  rw [push, if_pos h, List.dropLast_eq_take, h]
  obtain ⟨n, rfl⟩ : ∃ n, cap = n + 1 := ⟨cap - 1, by omega⟩
  simp

theorem length_push {cap : Nat} {l : List α} (h : l.length = cap) (hc : 0 < cap) (x : α) :
    (push cap x l).length = cap := by
  rw [push_eq_take h hc, List.length_take, List.length_cons, h]
  omega

/-- A full window after any number of pushes. -/
theorem foldl_push {cap : Nat} (hc : 0 < cap) :
    ∀ (xs l : List α), l.length = cap →
      xs.foldl (fun l x => push cap x l) l = (xs.reverse ++ l).take cap
  | [], l, h => by simp [← h]
  | x :: xs, l, h => by
    rw [List.foldl_cons, foldl_push hc xs _ (length_push h hc x), push_eq_take h hc,
      List.reverse_cons, List.append_assoc, List.singleton_append, List.take_append,
      List.take_append, List.take_take]
    congr 2
    omega

/-- The filler that is left behind the newest entries. -/
theorem take_append_replicate (cap : Nat) (xs : List α) (z : α) :
    (xs ++ List.replicate cap z).take cap
      = xs.take cap ++ List.replicate (cap - xs.length) z := by
  rw [List.take_append, List.take_replicate]
  congr 2
  omega

/-! ## Positions -/

/-- The positions of the newest of `n` entries, newest first. -/
def newest (cap n : Nat) : List Nat := (List.range n).reverse.take cap

theorem newest_eq (cap n : Nat) :
    newest cap n = (List.range' (n - min cap n) (min cap n)).reverse := by
  rw [newest, List.take_reverse, List.length_range, List.range_eq_range', List.drop_range']
  congr 2 <;> omega

theorem mem_newest {cap n i : Nat} : i ∈ newest cap n ↔ i < n ∧ n ≤ i + cap := by
  rw [newest_eq, List.mem_reverse, List.mem_range'_1]
  omega

theorem map_newest (f : Nat → α) (cap n : Nat) :
    (newest cap n).map f = ((List.range n).map f).reverse.take cap := by
  rw [newest, List.map_take, List.map_reverse]

/-- Two samples of the same phase have no entry in common. -/
theorem newest_disjoint {cap m n : Nat} (hphase : m % cap = n % cap) (hne : m ≠ n) :
    (newest cap m).Disjoint (newest cap n) := by
  intro i hm hn
  rw [mem_newest] at hm hn
  rcases Nat.lt_or_gt_of_ne hne with hlt | hlt
  · have := Nat.sub_mod_eq_zero_of_mod_eq hphase.symm
    have := Nat.le_of_dvd (by omega) (Nat.dvd_of_mod_eq_zero this)
    omega
  · have := Nat.sub_mod_eq_zero_of_mod_eq hphase
    have := Nat.le_of_dvd (by omega) (Nat.dvd_of_mod_eq_zero this)
    omega

/-- The first sample of a phase behind an entry holds it. -/
theorem mem_newest_of_first {cap phase n i : Nat} (hcap : 0 < cap) (hn : n % cap = phase)
    (hi : i < n) (hfirst : ∀ m, i < m → m < n → m % cap ≠ phase) : i ∈ newest cap n := by
  rw [mem_newest]
  refine ⟨hi, ?_⟩
  by_contra hlt
  refine hfirst (n - cap) (by omega) (by omega) ?_
  rw [← hn, ← Nat.mod_eq_sub_mod (by omega)]

end Infra.Window
