import Mathlib.Algebra.Order.Monoid.Unbundled.Basic
import Mathlib.Data.List.Basic

/-!
# Reservations of a resource

Reservations are intervals of time that keep a gap from each other. A new one goes to the first
place that is free: as long as a reservation is in the way, it starts behind that one.

* `settle_apart` — the place that is found keeps the gap from all reservations
* `settle_le` — no earlier place does
* `Clear.append` — a table without clashes, with one more reservation
-/

namespace Infra.Reservation

variable {T : Type _} [Add T] [LinearOrder T]

/-! ## Intervals -/

structure Booking (T : Type _) where
  start : T
  stop : T
deriving DecidableEq, Repr

/-- One ends a gap before the other one starts. -/
def Booking.Apart (gap : T) (a b : Booking T) : Prop :=
  a.stop + gap ≤ b.start ∨ b.stop + gap ≤ a.start

instance (gap : T) (a b : Booking T) : Decidable (a.Apart gap b) :=
  inferInstanceAs (Decidable (a.stop + gap ≤ b.start ∨ b.stop + gap ≤ a.start))

theorem Booking.Apart.symm {gap : T} {a b : Booking T} (h : a.Apart gap b) : b.Apart gap a :=
  Or.symm h

/-- The interval of this length. -/
def span (length t : T) : Booking T := ⟨t, t + length⟩

/-! ## The first place -/

/-- The first reservation that is in the way. -/
def obstacle (gap length : T) (reserved : List (Booking T)) (t : T) : Option (Booking T) :=
  reserved.find? fun a => ¬ a.Apart gap (span length t)

/-- Moves the start behind what is in the way, at most this often. -/
def settle (gap length : T) (reserved : List (Booking T)) : Nat → T → T
  | 0, t => t
  | rounds + 1, t =>
    match obstacle gap length reserved t with
    | none => t
    | some a => settle gap length reserved rounds (a.stop + gap)

variable {gap length t t' : T} {reserved : List (Booking T)} {a : Booking T}

theorem obstacle_eq_none :
    obstacle gap length reserved t = none ↔ ∀ a ∈ reserved, a.Apart gap (span length t) := by
  rw [obstacle, List.find?_eq_none]
  simp only [decide_eq_true_eq, not_not]

/-- What is in the way neither ends a gap before the start nor starts a gap behind the end. -/
theorem obstacle_eq_some (h : obstacle gap length reserved t = some a) :
    a ∈ reserved ∧ t < a.stop + gap ∧ a.start < t + length + gap := by
  have hclash := List.find?_some h
  rw [decide_eq_true_eq, Booking.Apart, not_or, not_le, not_le] at hclash
  exact ⟨List.mem_of_find?_eq_some h, hclash⟩

theorem le_settle (gap length : T) (reserved : List (Booking T)) :
    ∀ (rounds : Nat) (t : T), t ≤ settle gap length reserved rounds t
  | 0, t => le_refl t
  | rounds + 1, t => by
    rw [settle]
    cases hobstacle : obstacle gap length reserved t with
    | none => exact le_refl t
    | some a =>
      exact (obstacle_eq_some hobstacle).2.1.le.trans (le_settle gap length reserved rounds _)

/-- The reservations that may be in the way from a time on. -/
def ahead (gap : T) (reserved : List (Booking T)) (t : T) : List (Booking T) :=
  reserved.filter fun a => t < a.stop + gap

omit [Add T] [LinearOrder T] in
/-- A filter that lets less through. -/
theorem length_filter_lt {p q : T → Bool} {l : List T} {x : T} (hle : ∀ y, q y = true → p y = true)
    (hx : x ∈ l) (hp : p x = true) (hq : q x = false) :
    (l.filter q).length < (l.filter p).length := by
  have hfilter : l.filter q = (l.filter p).filter q := by
    rw [List.filter_filter]
    refine List.filter_congr fun y _ => ?_
    rw [Bool.eq_iff_iff, Bool.and_eq_true]
    exact ⟨fun hy => ⟨hy, hle y hy⟩, And.left⟩
  rw [hfilter, List.length_filter_lt_length_iff_exists]
  refine ⟨x, List.mem_filter.mpr ⟨hx, hp⟩, ?_⟩
  rw [hq]
  exact Bool.false_ne_true

/-- Behind a reservation there are fewer than before. -/
theorem ahead_length_lt (ha : a ∈ reserved) (ht : t < a.stop + gap) :
    (ahead gap reserved (a.stop + gap)).length < (ahead gap reserved t).length := by
  refine length_filter_lt (fun b hb => ?_) ha (decide_eq_true ht)
    (decide_eq_false (lt_irrefl _))
  rw [decide_eq_true_eq] at hb ⊢
  exact ht.trans hb

/-- **The place that is found keeps the gap from every reservation.** -/
theorem settle_apart : ∀ {rounds : Nat} {t : T}, (ahead gap reserved t).length ≤ rounds →
    ∀ a ∈ reserved, a.Apart gap (span length (settle gap length reserved rounds t))
  | 0, t, hrounds, a, ha => by
    rw [Nat.le_zero, List.length_eq_zero_iff, ahead, List.filter_eq_nil_iff] at hrounds
    have hbefore := hrounds a ha
    rw [decide_eq_true_eq, not_lt] at hbefore
    exact Or.inl hbefore
  | rounds + 1, t, hrounds, a, ha => by
    rw [settle]
    cases hobstacle : obstacle gap length reserved t with
    | none => exact obstacle_eq_none.mp hobstacle a ha
    | some b =>
      obtain ⟨hb, hlt, -⟩ := obstacle_eq_some hobstacle
      have hfewer := ahead_length_lt hb hlt
      exact settle_apart (by omega) a ha

theorem ahead_length_le (gap : T) (reserved : List (Booking T)) (t : T) :
    (ahead gap reserved t).length ≤ reserved.length := List.length_filter_le _ _

/-- A place before the reservation that is in the way is none. -/
theorem stop_le_of_apart [AddRightMono T] (ht : t ≤ t') (hclash : a.start < t + length + gap)
    (h : a.Apart gap (span length t')) : a.stop + gap ≤ t' := by
  rcases h with h | h
  · exact h
  · have hle : t + length + gap ≤ t' + length + gap := by gcongr
    exact absurd (hclash.trans_le (hle.trans h)) (lt_irrefl _)

/-- **No place that keeps the gap is passed over.** -/
theorem settle_le [AddRightMono T] : ∀ {rounds : Nat} {t t' : T}, t ≤ t' →
    (∀ a ∈ reserved, a.Apart gap (span length t')) →
    settle gap length reserved rounds t ≤ t'
  | 0, t, t', ht, _ => ht
  | rounds + 1, t, t', ht, h => by
    rw [settle]
    cases hobstacle : obstacle gap length reserved t with
    | none => exact ht
    | some a =>
      obtain ⟨ha, -, hclash⟩ := obstacle_eq_some hobstacle
      exact settle_le (stop_le_of_apart ht hclash (h a ha)) h

/-! ## Tables without clashes -/

/-- All reservations of a table keep the gap from each other. -/
def Clear (gap : T) (reserved : List (Booking T)) : Prop := reserved.Pairwise (Booking.Apart gap)

theorem Clear.append (h : Clear gap reserved) (ha : ∀ b ∈ reserved, b.Apart gap a) :
    Clear gap (reserved ++ [a]) := by
  rw [Clear, List.pairwise_append]
  exact ⟨h, List.pairwise_singleton _ _, fun b hb c hc => (List.mem_singleton.mp hc) ▸ ha b hb⟩

end Infra.Reservation
