import Mathlib.Data.Int.ModEq
import Mathlib.Algebra.BigOperators.Group.List.Basic

/-!
# Two-level waveforms

A list of durations describes a signal that starts at some level and flips after each of them.
`levelAt` is its value at a position. Past the last duration the signal keeps its last level.

* `levelAt_segment` — the level within one duration
* `levelAt_append_singleton` — a last duration that is added changes nothing before its end
* `levelAt_mergeLast` — adding the last duration to the first one and starting as much later gives
  the same signal round the cycle
-/

namespace Infra.Waveform

/-- The value, at position `x`, of the signal that starts at `b`. -/
def levelAt (b : Bool) : List Int → Int → Bool
  | [], _ => b
  | d :: ds, x => if x < d then b else levelAt (!b) ds (x - d)

/-- The level after `n` flips. -/
def flips (b : Bool) (n : Nat) : Bool := b ^^ decide (n % 2 = 1)

@[simp] theorem flips_zero (b : Bool) : flips b 0 = b := by simp [flips]

theorem flips_succ (b : Bool) (n : Nat) : flips b (n + 1) = !flips b n := by
  rcases Nat.mod_two_eq_zero_or_one n with h | h <;> simp [flips, h, Nat.add_mod]

theorem flips_not (b : Bool) (n : Nat) : flips (!b) n = !flips b n := by
  cases b <;> simp [flips]

theorem flips_of_even {n : Nat} (h : n % 2 = 0) (b : Bool) : flips b n = b := by simp [flips, h]

/-! ## Appending durations -/

theorem sum_nonneg_of_pos {ds : List Int} (h : ∀ d ∈ ds, 0 < d) : 0 ≤ ds.sum := by
  induction ds with
  | nil => simp
  | cons d ds ih =>
    have h1 := h d List.mem_cons_self
    have h2 := ih fun x hx => h x (List.mem_cons_of_mem _ hx)
    rw [List.sum_cons]
    omega

/-- The durations before the position only count by their sum and their number. -/
theorem levelAt_append_of_le : ∀ (ds es : List Int) (b : Bool) (x : Int), (∀ d ∈ ds, 0 < d) →
    ds.sum ≤ x → levelAt b (ds ++ es) x = levelAt (flips b ds.length) es (x - ds.sum)
  | [], es, b, x, _, _ => by simp
  | d :: ds, es, b, x, hpos, hx => by
    have hds := sum_nonneg_of_pos fun y hy => hpos y (List.mem_cons_of_mem _ hy)
    rw [List.sum_cons] at hx
    rw [List.cons_append, levelAt, if_neg (by omega),
      levelAt_append_of_le ds es _ _ (fun y hy => hpos y (List.mem_cons_of_mem _ hy)) (by omega),
      flips_not, List.length_cons, flips_succ, List.sum_cons, Int.sub_sub]

/-- The durations behind the position do not count. -/
theorem levelAt_append_of_lt : ∀ (ds es : List Int) (b : Bool) (x : Int), 0 ≤ x →
    x < ds.sum → levelAt b (ds ++ es) x = levelAt b ds x
  | [], _, _, x, h0, hx => by
    rw [List.sum_nil] at hx
    omega
  | d :: ds, es, b, x, h0, hx => by
    rw [List.sum_cons] at hx
    rw [List.cons_append, levelAt, levelAt]
    split
    · rfl
    · exact levelAt_append_of_lt ds es _ _ (by omega) (by omega)

/-- Past all durations. -/
theorem levelAt_of_le {ds : List Int} (h : ∀ d ∈ ds, 0 < d) {x : Int} (hx : ds.sum ≤ x) (b : Bool) :
    levelAt b ds x = flips b ds.length := by
  have := levelAt_append_of_le ds [] b x h hx
  rwa [List.append_nil] at this

/-- A last duration changes nothing before its end. -/
theorem levelAt_append_singleton {ds : List Int} (h : ∀ d ∈ ds, 0 < d) {e x : Int} (h0 : 0 ≤ x)
    (hx : x < ds.sum + e) (b : Bool) : levelAt b (ds ++ [e]) x = levelAt b ds x := by
  by_cases hlt : x < ds.sum
  · exact levelAt_append_of_lt ds [e] b x h0 hlt
  · rw [levelAt_append_of_le ds [e] b x h (by omega), levelAt_of_le h (by omega), levelAt,
      if_pos (by omega)]

/-- The level within the duration number `j`. -/
theorem levelAt_segment {ds : List Int} (h : ∀ d ∈ ds, 0 < d) {j : Nat} (hj : j < ds.length)
    {x : Int} (h1 : (ds.take j).sum ≤ x) (h2 : x < (ds.take (j + 1)).sum) (b : Bool) :
    levelAt b ds x = flips b j := by
  have htake : ds.take (j + 1) = ds.take j ++ [ds[j]] := List.take_succ_eq_append_getElem hj
  have hpos : ∀ d ∈ ds.take j, 0 < d := fun d hd => h d (List.mem_of_mem_take hd)
  have hlen : (ds.take j).length = j := by rw [List.length_take]; omega
  have h0 : 0 ≤ x := Int.le_trans (sum_nonneg_of_pos hpos) h1
  conv_lhs => rw [← List.take_append_drop (j + 1) ds]
  rw [levelAt_append_of_lt _ _ _ _ h0 h2, htake,
    levelAt_append_singleton hpos h0 (by rwa [htake, List.sum_append, List.sum_singleton] at h2),
    levelAt_of_le hpos h1, hlen]

/-! ## Merging the last duration into the first -/

/--
When an odd number of durations is made even by adding the last one to the first, the signal that
starts that much later in the merged list is the signal of the whole list.
-/
theorem levelAt_mergeLast {d l : Int} {mid : List Int} (hd : 0 < d) (hl : 0 < l)
    (hmid : ∀ e ∈ mid, 0 < e) (hodd : mid.length % 2 = 1) {x : Int} (h0 : 0 ≤ x)
    (hx : x < d + mid.sum + l) (b : Bool) :
    levelAt b ((d + l) :: mid) ((l + x) % (d + mid.sum + l)) = levelAt b (d :: mid ++ [l]) x := by
  have hsum := sum_nonneg_of_pos hmid
  have hpos : ∀ e ∈ d :: mid, 0 < e := by
    intro e he
    rcases List.mem_cons.mp he with rfl | he
    · exact hd
    · exact hmid e he
  rw [levelAt_append_singleton hpos h0 (by rwa [List.sum_cons])]
  by_cases hwrap : x < d + mid.sum
  · rw [Int.emod_eq_of_lt (by omega) (by omega), levelAt, levelAt]
    by_cases hxd : x < d
    · rw [if_pos (by omega), if_pos hxd]
    · rw [if_neg (by omega), if_neg hxd]
      congr 1
      omega
  · have hmod : (l + x) % (d + mid.sum + l) = x - (d + mid.sum) := by
      rw [← Int.sub_emod_right]
      rw [Int.emod_eq_of_lt (by omega) (by omega)]
      omega
    rw [hmod, levelAt, if_pos (by omega), levelAt_of_le hpos (by rw [List.sum_cons]; omega),
      flips_of_even (by rw [List.length_cons]; omega)]

end Infra.Waveform
