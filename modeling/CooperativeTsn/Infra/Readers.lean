import Mathlib.Data.List.Forall2
import Mathlib.Data.List.Infix
import Mathlib.Data.List.TakeWhile
import Mathlib.Logic.Relation

/-!
# Readers

A reader relates a text to what is left of it. It may leave different rests of one text, so a reader
says what a pattern means and leaves open in which order a matcher tries things.

* `sequence_append`, `sequence_suffix` — readers one after the other
* `many_iff_tails` — any number of symbols
* `run_iff` — all symbols of a kind
-/

namespace Infra.Readers

variable {α : Type _}

/-- What may be left of a text. -/
abbrev Reader (α : Type _) := List α → List α → Prop

/-- A reader leaves the end of the text. -/
def Reader.Forward (r : Reader α) : Prop := ∀ s t, r s t → t <:+ s

/-! ## Readers in a row -/

/-- All readers, one after the other. -/
def sequence : List (Reader α) → Reader α
  | [] => Eq
  | r :: rs => Relation.Comp r (sequence rs)

variable {r : Reader α} {rs rs' : List (Reader α)} {s t : List α}

theorem sequence_cons : sequence (r :: rs) s t ↔ ∃ u, r s u ∧ sequence rs u t := Iff.rfl

theorem sequence_singleton : sequence [r] s t ↔ r s t := by
  rw [sequence_cons]
  constructor
  · rintro ⟨u, h, rfl⟩
    exact h
  · intro h
    exact ⟨t, h, rfl⟩

/-- **Two rows make one row.** -/
theorem sequence_append :
    sequence (rs ++ rs') s t ↔ ∃ u, sequence rs s u ∧ sequence rs' u t := by
  induction rs generalizing s with
  | nil =>
    constructor
    · intro h
      exact ⟨s, rfl, h⟩
    · rintro ⟨u, rfl, h⟩
      exact h
  | cons r rs ih =>
    rw [List.cons_append, sequence_cons]
    constructor
    · rintro ⟨u, hr, h⟩
      obtain ⟨v, hrs, hrs'⟩ := ih.mp h
      exact ⟨v, ⟨u, hr, hrs⟩, hrs'⟩
    · rintro ⟨v, ⟨u, hr, hrs⟩, hrs'⟩
      exact ⟨u, hr, ih.mpr ⟨v, hrs, hrs'⟩⟩

theorem sequence_suffix (h : ∀ r ∈ rs, r.Forward) : (sequence rs).Forward := by
  induction rs with
  | nil =>
    rintro s t rfl
    exact List.suffix_rfl
  | cons r rs ih =>
    rintro s t ⟨u, hr, hrs⟩
    have hrest := ih (fun r' hr' => h r' (List.mem_cons_of_mem _ hr')) u t hrs
    exact hrest.trans (h r List.mem_cons_self s u hr)

/-! ## One symbol, a word -/

/-- One symbol of a kind. -/
def symbol (kind : α → Prop) : Reader α := fun s t => ∃ c, kind c ∧ s = c :: t

@[simp] theorem symbol_nil {kind : α → Prop} : ¬ symbol kind [] t := by
  rintro ⟨c, -, h⟩
  cases h

@[simp] theorem symbol_cons {kind : α → Prop} {c : α} :
    symbol kind (c :: s) t ↔ kind c ∧ s = t := by
  constructor
  · rintro ⟨d, hd, h⟩
    cases h
    exact ⟨hd, rfl⟩
  · rintro ⟨hc, rfl⟩
    exact ⟨c, hc, rfl⟩

theorem symbol_suffix (kind : α → Prop) : (symbol kind).Forward := by
  rintro s t ⟨c, -, rfl⟩
  exact List.suffix_cons c t

/-- A word, with symbols that count as the same. -/
def word (same : α → α → Prop) (w : List α) : Reader α :=
  fun s t => ∃ w', List.Forall₂ same w w' ∧ s = w' ++ t

theorem word_suffix (same : α → α → Prop) (w : List α) : (word same w).Forward := by
  rintro s t ⟨w', -, rfl⟩
  exact List.suffix_append w' t

@[simp] theorem word_nil {same : α → α → Prop} : word same [] s t ↔ s = t := by
  constructor
  · rintro ⟨w', h, rfl⟩
    cases h
    rfl
  · rintro rfl
    exact ⟨[], .nil, rfl⟩

theorem word_cons {same : α → α → Prop} {c : α} {w : List α} :
    word same (c :: w) s t ↔ ∃ d u, s = d :: u ∧ same c d ∧ word same w u t := by
  constructor
  · rintro ⟨w', h, rfl⟩
    cases h with
    | cons hsame hrest => exact ⟨_, _, rfl, hsame, _, hrest, rfl⟩
  · rintro ⟨d, u, rfl, hsame, w', hrest, rfl⟩
    exact ⟨d :: w', .cons hsame hrest, rfl⟩

/-- A word in front of the text. -/
theorem word_eq {w : List α} : word Eq w s t ↔ s = w ++ t := by
  constructor
  · rintro ⟨w', h, rfl⟩
    rw [List.forall₂_eq_eq_eq] at h
    rw [h]
  · rintro rfl
    exact ⟨w, List.forall₂_refl w, rfl⟩

/-! ## Any number of symbols -/

/-- Any number of symbols of a kind. -/
def many (kind : α → Prop) : Reader α := fun s t => ∃ w, (∀ c ∈ w, kind c) ∧ s = w ++ t

variable {kind : α → Prop}

theorem many_suffix (kind : α → Prop) : (many kind).Forward := by
  rintro s t ⟨w, -, rfl⟩
  exact List.suffix_append w t

/-- Symbols of every kind: any end of the text may be left. -/
theorem many_true : many (fun _ : α => True) s t ↔ t <:+ s := by
  constructor
  · exact many_suffix _ s t
  · rintro ⟨w, rfl⟩
    exact ⟨w, fun _ _ => trivial, rfl⟩

/-- What a matcher that tries one end of the text after the other finds. -/
theorem many_iff_tails : many kind s t ↔ t ∈ s.tails ∧ ∀ c ∈ s.take (s.length - t.length), kind c := by
  rw [List.mem_tails]
  constructor
  · rintro ⟨w, hw, rfl⟩
    rw [List.length_append, Nat.add_sub_cancel, List.take_left]
    exact ⟨List.suffix_append w t, hw⟩
  · rintro ⟨⟨w, rfl⟩, hw⟩
    rw [List.length_append, Nat.add_sub_cancel, List.take_left] at hw
    exact ⟨w, hw, rfl⟩

/-! ## All symbols of a kind -/

/-- Symbols of a kind, at least one and as many as there are, and what they spell. -/
def run (kind : α → Prop) (spells : List α → Prop) : Reader α := fun s t =>
  ∃ w, w ≠ [] ∧ (∀ c ∈ w, kind c) ∧ (∀ c ∈ t.head?, ¬ kind c) ∧ spells w ∧ s = w ++ t

theorem run_suffix (kind : α → Prop) (spells : List α → Prop) : (run kind spells).Forward := by
  rintro s t ⟨w, -, -, -, -, rfl⟩
  exact List.suffix_append w t

/-- **A run is what `takeWhile` takes**, so only one rest is left. -/
theorem run_iff {p : α → Bool} {spells : List α → Prop} :
    run (fun c => p c = true) spells s t ↔
      s.head?.any p = true ∧ spells (s.takeWhile p) ∧ t = s.dropWhile p := by
  constructor
  · rintro ⟨w, hne, hw, ht, hspells, rfl⟩
    have hdrop : t.dropWhile p = t := by
      cases t with
      | nil => rfl
      | cons c t => exact List.dropWhile_cons_of_neg (ht c rfl)
    have htake : t.takeWhile p = [] := by
      cases t with
      | nil => rfl
      | cons c t => exact List.takeWhile_cons_of_neg (ht c rfl)
    rw [List.takeWhile_append_of_pos hw, List.dropWhile_append_of_pos hw, hdrop, htake,
      List.append_nil]
    refine ⟨?_, hspells, rfl⟩
    cases w with
    | nil => exact absurd rfl hne
    | cons c w => exact hw c List.mem_cons_self
  · rintro ⟨hhead, hspells, rfl⟩
    refine ⟨s.takeWhile p, ?_, fun c hc => List.mem_takeWhile_imp hc, ?_, hspells,
      (List.takeWhile_append_dropWhile).symm⟩
    · cases s with
      | nil => cases hhead
      | cons c s =>
        have hc : p c = true := hhead
        rw [List.takeWhile_cons_of_pos hc]
        exact List.cons_ne_nil _ _
    · intro c hc
      have hnot := List.head?_dropWhile_not p s
      rw [Option.mem_def.mp hc] at hnot
      exact Bool.eq_false_iff.mp hnot

end Infra.Readers
