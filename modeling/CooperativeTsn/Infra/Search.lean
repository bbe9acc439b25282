/-!
# Search with a sentinel

A running search for the best entry of a list in which one value, `z`, stands for "nothing found
yet". Entries equal to `z` are skipped. `r x y` says that `x` is better than `y`.
-/

namespace Infra.Search

variable {α : Type _} [DecidableEq α] (z : α) (r : α → α → Prop) [DecidableRel r]

/-- One round: a better entry, or the first one, replaces the best so far. -/
def step (best x : α) : α := if x = z then best else if r x best ∨ best = z then x else best

@[simp] theorem step_sentinel (best : α) : step z r best z = best := if_pos rfl

theorem step_cases (best x : α) :
    step z r best x = best ∧ (x = z ∨ best ≠ z ∧ ¬ r x best) ∨
      step z r best x = x ∧ x ≠ z ∧ (r x best ∨ best = z) := by
  by_cases hx : x = z
  · exact Or.inl ⟨by rw [step, if_pos hx], Or.inl hx⟩
  · by_cases hr : r x best ∨ best = z
    · exact Or.inr ⟨by rw [step, if_neg hx, if_pos hr], hx, hr⟩
    · refine Or.inl ⟨by rw [step, if_neg hx, if_neg hr], Or.inr ⟨?_, ?_⟩⟩
      · exact fun h => hr (Or.inr h)
      · exact fun h => hr (Or.inl h)

/-- The search of a list. -/
def search (l : List α) : α := l.foldl (step z r) z

theorem foldl_step_replicate (n : Nat) (best : α) :
    (List.replicate n z).foldl (step z r) best = best := by
  induction n with
  | zero => rfl
  | succ n ih => rw [List.replicate_succ, List.foldl_cons, step_sentinel, ih]

/-- Sentinels behind the list change nothing. -/
theorem search_append_replicate (l : List α) (n : Nat) :
    search z r (l ++ List.replicate n z) = search z r l := by
  rw [search, List.foldl_append, foldl_step_replicate]
  rfl

theorem foldl_step_mem : ∀ (l : List α) (best : α),
    l.foldl (step z r) best = best ∨ l.foldl (step z r) best ∈ l
  | [], _ => Or.inl rfl
  | x :: l, best => by
    rw [List.foldl_cons]
    rcases foldl_step_mem l (step z r best x) with h | h
    · rcases step_cases z r best x with ⟨hs, _⟩ | ⟨hs, _⟩
      · exact Or.inl (h.trans hs)
      · exact Or.inr (by rw [h, hs]; exact List.mem_cons_self)
    · exact Or.inr (List.mem_cons_of_mem _ h)

theorem foldl_step_ne : ∀ (l : List α) (best : α), (best ≠ z ∨ ∃ x ∈ l, x ≠ z) →
    l.foldl (step z r) best ≠ z
  | [], _, h => by simpa using h
  | x :: l, best, h => by
    rw [List.foldl_cons]
    refine foldl_step_ne l _ ?_
    rcases step_cases z r best x with ⟨hs, hx⟩ | ⟨hs, hx, _⟩
    · rw [hs]
      rcases hx with rfl | ⟨hb, _⟩
      · simpa using h
      · exact Or.inl hb
    · exact Or.inl (by rwa [hs])

/-- Nothing in the list is better than what the search ends with. -/
theorem foldl_step_best (hirr : ∀ a, ¬ r a a) (htrans : ∀ a b c, ¬ r a b → ¬ r b c → ¬ r a c)
    (hasymm : ∀ a b, r a b → ¬ r b a) : ∀ (l : List α) (best : α),
    (∀ x ∈ l, x ≠ z → ¬ r x (l.foldl (step z r) best)) ∧
      (best ≠ z → ¬ r best (l.foldl (step z r) best))
  | [], best => ⟨by simp, fun _ => hirr best⟩
  | x :: l, best => by
    rw [List.foldl_cons]
    obtain ⟨hl, hb⟩ := foldl_step_best hirr htrans hasymm l (step z r best x)
    constructor
    · intro y hy hne
      rcases List.mem_cons.mp hy with rfl | hy
      · rcases step_cases z r best y with ⟨hs, h⟩ | ⟨hs, _⟩
        · obtain ⟨hbz, hnr⟩ := h.resolve_left hne
          rw [hs] at hb ⊢
          exact htrans _ _ _ hnr (hb hbz)
        · rw [hs] at hb ⊢
          exact hb hne
      · exact hl y hy hne
    · intro hne
      rcases step_cases z r best x with ⟨hs, _⟩ | ⟨hs, hx, h⟩
      · rw [hs] at hb ⊢
        exact hb hne
      · rw [hs] at hb ⊢
        exact htrans _ _ _ (hasymm _ _ (h.resolve_right hne)) (hb hx)

end Infra.Search
