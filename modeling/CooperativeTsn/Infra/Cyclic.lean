import Mathlib.Data.Int.ModEq

/-!
# Arcs of a cycle

An arc starts at some time, is `len` long and is read modulo the cycle. A point lies on the arc
when the way forward from the start to the point, round the cycle, is at most `len`. Two points are
close when one is congruent to a point near the other.
-/

namespace Infra.Cyclic

/-- `x` lies on the arc of length `len` that starts at `start`. -/
def OnArc (cycle start len x : Int) : Prop := (x - start) % cycle ≤ len

/-- The arc contains every point of the interval from `a` to `b`. -/
def Covers (cycle start len a b : Int) : Prop :=
  ∀ x, a ≤ x → x ≤ b → OnArc cycle start len x

instance (cycle start len x : Int) : Decidable (OnArc cycle start len x) :=
  inferInstanceAs (Decidable (_ ≤ _))

/-- Only the residue of the start matters. -/
theorem OnArc.congr_start {cycle s s' len x : Int} (h : s ≡ s' [ZMOD cycle]) :
    OnArc cycle s len x ↔ OnArc cycle s' len x := by
  have hx : (x - s) % cycle = (x - s') % cycle := (Int.ModEq.refl x).sub h
  rw [OnArc, OnArc, hx]

theorem Covers.congr_start {cycle s s' len a b : Int} (h : s ≡ s' [ZMOD cycle]) :
    Covers cycle s len a b ↔ Covers cycle s' len a b :=
  forall_congr' fun _ => imp_congr_right fun _ => imp_congr_right fun _ => OnArc.congr_start h

/-- An interval that lies on the line between the ends of the arc is covered. -/
theorem covers_of_le {cycle start len a b : Int} (hc : 0 < cycle) (ha : start ≤ a)
    (hb : b ≤ start + len) : Covers cycle start len a b := by
  intro x hax hxb
  have hq : 0 ≤ cycle * ((x - start) / cycle) :=
    Int.mul_nonneg (by omega) (Int.ediv_nonneg (by omega) (by omega))
  have hd : (x - start) % cycle = x - start - cycle * ((x - start) / cycle) := Int.emod_def _ _
  show (x - start) % cycle ≤ len
  omega

/-- An arc as long as the cycle covers everything. -/
theorem covers_of_cycle_le {cycle start len a b : Int} (hc : 0 < cycle) (hlen : cycle ≤ len) :
    Covers cycle start len a b :=
  fun x _ _ => (Int.emod_lt_of_pos (x - start) hc).le.trans hlen

/--
An interval that begins at the origin of the cycle, before the start of the arc, is covered exactly
when the arc runs on past the end of the cycle far enough: up to the end of the interval, or up to
its own start.
-/
theorem covers_zero_iff {cycle start len b : Int} (hs : 0 < start) (hsc : start ≤ cycle)
    (hb : 0 ≤ b) (hbl : b ≤ start + len) :
    Covers cycle start len 0 b ↔ cycle + min b (start - 1) ≤ start + len := by
  constructor
  · intro h
    have hx := h (min b (start - 1)) (by omega) (by omega)
    have hmod : (min b (start - 1) - start) % cycle = min b (start - 1) - start + cycle := by
      rw [← Int.add_emod_right]
      exact Int.emod_eq_of_lt (by omega) (by omega)
    rw [OnArc, hmod] at hx
    omega
  · intro h x h0 hxb
    rw [OnArc]
    by_cases hlt : x < start
    · have hmod : (x - start) % cycle = x - start + cycle := by
        rw [← Int.add_emod_right]
        exact Int.emod_eq_of_lt (by omega) (by omega)
      omega
    · exact covers_of_le (a := start) (by omega) (by omega) hbl x (by omega) hxb

/-! ## Points that are close -/

/-- Round the cycle, `x` and `y` are less than `tolerance` apart. -/
def Near (cycle tolerance x y : Int) : Prop :=
  ∃ e, -tolerance < e ∧ e < tolerance ∧ x ≡ y + e [ZMOD cycle]

/-- Only the residues matter. -/
theorem Near.congr_right {cycle tolerance x y y' : Int} (h : Near cycle tolerance x y)
    (hy : y ≡ y' [ZMOD cycle]) : Near cycle tolerance x y' := by
  obtain ⟨e, hlo, hhi, he⟩ := h
  exact ⟨e, hlo, hhi, he.trans (hy.add_right e)⟩

end Infra.Cyclic
