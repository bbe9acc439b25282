import Mathlib.Data.List.Induction
import Mathlib.Data.List.Nodup

/-!
# Maps as lists of pairs

A map in which every key occurs once, filled entry by entry: either the last value of a key counts,
or the values of a key are collected.

* `lookup_assignAll` — the last value counts
* `lookup_collect` — all values of a key, in their order
-/

namespace Infra.Assoc

variable {α β : Type} [DecidableEq α]

def assign (key : α) (value : β) (l : List (α × β)) : List (α × β) :=
  (key, value) :: l.filter (·.1 ≠ key)

theorem lookup_filter_ne {key k : α} (h : k ≠ key) : ∀ l : List (α × β),
    (l.filter (·.1 ≠ key)).lookup k = l.lookup k
  | [] => rfl
  | (key', value) :: l => by
    by_cases hkey : key' = key
    · subst hkey
      rw [List.filter_cons_of_neg (by simp), lookup_filter_ne h, List.lookup_cons,
        beq_eq_false_iff_ne.mpr h]
    · rw [List.filter_cons_of_pos (by simpa using hkey), List.lookup_cons, List.lookup_cons,
        lookup_filter_ne h]

theorem lookup_assign (key : α) (value : β) (l : List (α × β)) (k : α) :
    (assign key value l).lookup k = if k = key then some value else l.lookup k := by
  rw [assign, List.lookup_cons]
  by_cases h : k = key
  · rw [if_pos h, beq_iff_eq.mpr h]
  · rw [if_neg h, beq_eq_false_iff_ne.mpr h]
    exact lookup_filter_ne h l

/-- Every entry replaces the value of its key. -/
def assignAll (entries : List (α × β)) : List (α × β) :=
  entries.foldl (fun l entry => assign entry.1 entry.2 l) []

theorem lookup_foldl_assign (k : α) : ∀ (entries l : List (α × β)),
    (entries.foldl (fun l entry => assign entry.1 entry.2 l) l).lookup k =
      (entries.reverse ++ l).lookup k
  | [], l => rfl
  | (key, value) :: entries, l => by
    rw [List.foldl_cons, lookup_foldl_assign, List.reverse_cons, List.append_assoc,
      List.lookup_append, List.lookup_append, lookup_assign, List.singleton_append, List.lookup_cons]
    by_cases h : k = key
    · rw [if_pos h, beq_iff_eq.mpr h]
    · rw [if_neg h, beq_eq_false_iff_ne.mpr h]

theorem lookup_assignAll (entries : List (α × β)) (k : α) :
    (assignAll entries).lookup k = entries.reverse.lookup k := by
  rw [assignAll, lookup_foldl_assign, List.append_nil]

/-- The values of a key are put together. -/
def collect (entries : List (α × List β)) : List (α × List β) :=
  entries.foldl (fun l entry => assign entry.1 ((l.lookup entry.1).getD [] ++ entry.2) l) []

/-- The values of a key, in the order of the entries. -/
def valuesAt (k : α) (entries : List (α × List β)) : List β :=
  (entries.filter (·.1 = k)).flatMap (·.2)

theorem valuesAt_of_not_mem {k : α} {entries : List (α × List β)}
    (h : k ∉ entries.map Prod.fst) : valuesAt k entries = [] := by
  have hnone : entries.filter (·.1 = k) = [] := by
    rw [List.filter_eq_nil_iff]
    intro entry hentry heq
    exact h (List.mem_map.mpr ⟨entry, hentry, by simpa using heq⟩)
  rw [valuesAt, hnone, List.flatMap_nil]

theorem lookup_collect (k : α) (entries : List (α × List β)) :
    (collect entries).lookup k =
      if k ∈ entries.map Prod.fst then some (valuesAt k entries) else none := by
  induction entries using List.reverseRecOn with
  | nil => rfl
  | append_singleton entries entry ih =>
    obtain ⟨key, values⟩ := entry
    rw [collect, List.foldl_append, ← collect, List.foldl_cons, List.foldl_nil, lookup_assign]
    by_cases h : k = key
    · subst h
      have happend : valuesAt k (entries ++ [(k, values)]) = valuesAt k entries ++ values := by
        simp [valuesAt, List.filter_append]
      have hkey : k ∈ (entries ++ [(k, values)]).map Prod.fst := by simp
      rw [if_pos rfl, ih, if_pos hkey, happend]
      split
      · rfl
      · next hnot => rw [valuesAt_of_not_mem hnot, Option.getD_none]
    · have hmem : k ∈ (entries ++ [(key, values)]).map Prod.fst ↔ k ∈ entries.map Prod.fst := by
        rw [List.map_append, List.mem_append]
        exact or_iff_left (by simpa using h)
      have hvalues : valuesAt k (entries ++ [(key, values)]) = valuesAt k entries := by
        simp [valuesAt, List.filter_append, Ne.symm h]
      rw [if_neg h, ih, hvalues]
      exact if_congr hmem.symm rfl rfl

/-! ## Keys that occur once -/

theorem lookup_of_nodup {k : α} {v : β} : ∀ {l : List (α × β)}, (l.map Prod.fst).Nodup →
    (k, v) ∈ l → l.lookup k = some v
  | (key, value) :: l, hnodup, hmem => by
    rw [List.map_cons, List.nodup_cons] at hnodup
    rw [List.lookup_cons]
    rcases List.mem_cons.mp hmem with heq | hmem
    · obtain ⟨rfl, rfl⟩ := Prod.mk.inj heq
      simp
    · have hne : k ≠ key := fun h => hnodup.1 (List.mem_map.mpr ⟨(k, v), hmem, h⟩)
      rw [beq_eq_false_iff_ne.mpr hne]
      exact lookup_of_nodup hnodup.2 hmem

theorem mem_of_lookup {k : α} {v : β} {l : List (α × β)} (h : l.lookup k = some v) :
    (k, v) ∈ l := by
  obtain ⟨l₁, l₂, rfl, -⟩ := List.lookup_eq_some_iff.mp h
  simp

theorem lookup_assignAll_of_nodup {entries : List (α × β)} {k : α} {v : β}
    (hnodup : (entries.map Prod.fst).Nodup) (hmem : (k, v) ∈ entries) :
    (assignAll entries).lookup k = some v := by
  rw [lookup_assignAll]
  refine lookup_of_nodup ?_ (List.mem_reverse.mpr hmem)
  rw [List.map_reverse]
  exact List.nodup_reverse.mpr hnodup

theorem valuesAt_of_nodup {k : α} {values : List β} {entries : List (α × List β)}
    (hnodup : (entries.map Prod.fst).Nodup) (hmem : (k, values) ∈ entries) :
    valuesAt k entries = values := by
  obtain ⟨before, after, rfl⟩ := List.append_of_mem hmem
  rw [List.map_append, List.map_cons, List.nodup_middle, List.nodup_cons] at hnodup
  have hnone : ∀ l : List (α × List β), (∀ entry ∈ l, entry ∈ before ++ after) →
      l.filter (·.1 = k) = [] := by
    intro l hl
    rw [List.filter_eq_nil_iff]
    intro entry hentry heq
    refine hnodup.1 ?_
    rw [← List.map_append, List.mem_map]
    exact ⟨entry, hl entry hentry, by simpa using heq⟩
  rw [valuesAt, List.filter_append, List.filter_cons_of_pos (by simp),
    hnone before fun _ h => List.mem_append_left _ h, hnone after fun _ h => List.mem_append_right _ h]
  simp

theorem lookup_collect_of_nodup {k : α} {values : List β} {entries : List (α × List β)}
    (hnodup : (entries.map Prod.fst).Nodup) (hmem : (k, values) ∈ entries) :
    (collect entries).lookup k = some values := by
  rw [lookup_collect, if_pos (List.mem_map_of_mem (f := Prod.fst) hmem),
    valuesAt_of_nodup hnodup hmem]

/-! ## The first one with a key -/

section

variable {γ : Type} [DecidableEq γ] {f : α → γ} {l : List α} {i : Nat} {a : α}

omit [DecidableEq α] in
theorem findIdx?_eq_some_iff {k : γ} : l.findIdx? (fun a => f a = k) = some i ↔
    ∃ a, l[i]? = some a ∧ f a = k ∧ ∀ j < i, ∀ b, l[j]? = some b → f b ≠ k := by
  rw [List.findIdx?_eq_some_iff_getElem]
  simp only [decide_eq_true_eq]
  constructor
  · rintro ⟨hi, hkey, hbefore⟩
    refine ⟨l[i], List.getElem?_eq_getElem hi, hkey, fun j hj b hb => ?_⟩
    obtain ⟨hj', rfl⟩ := List.getElem?_eq_some_iff.mp hb
    exact hbefore j hj
  · rintro ⟨a, ha, hkey, hbefore⟩
    obtain ⟨hi, rfl⟩ := List.getElem?_eq_some_iff.mp ha
    exact ⟨hi, hkey, fun j hj => hbefore j hj _ (List.getElem?_eq_getElem (Nat.lt_trans hj hi))⟩

omit [DecidableEq α] in
/-- With different keys every element is the first one with its key. -/
theorem findIdx?_of_nodup (hnodup : (l.map f).Nodup) (ha : l[i]? = some a) :
    l.findIdx? (fun b => f b = f a) = some i := by
  refine findIdx?_eq_some_iff.mpr ⟨a, ha, rfl, fun j hj b hb heq => ?_⟩
  obtain ⟨hi, rfl⟩ := List.getElem?_eq_some_iff.mp ha
  obtain ⟨hj', rfl⟩ := List.getElem?_eq_some_iff.mp hb
  have hij : j = i := (List.getElem?_inj (by simpa using hj') hnodup).mp (by simpa [hj', hi] using heq)
  omega

omit [DecidableEq α] in
/-- An element of which no earlier one has the key. -/
theorem find?_eq_some_of_first (ha : l[i]? = some a)
    (hbefore : ∀ j < i, ∀ b, l[j]? = some b → f b ≠ f a) :
    l.find? (fun b => f b = f a) = some a := by
  obtain ⟨hi, rfl⟩ := List.getElem?_eq_some_iff.mp ha
  rw [List.find?_eq_some_iff_getElem]
  refine ⟨by simp, i, hi, rfl, fun j hj => ?_⟩
  simpa using hbefore j hj _ (List.getElem?_eq_getElem (Nat.lt_trans hj hi))

omit [DecidableEq α] in
/-- With different keys an element is found by its key. -/
theorem find?_of_nodup (hnodup : (l.map f).Nodup) (ha : a ∈ l) :
    l.find? (fun b => f b = f a) = some a := by
  obtain ⟨b, hb⟩ : ∃ b, l.find? (fun b => f b = f a) = some b := by
    rw [← Option.isSome_iff_exists, List.find?_isSome]
    exact ⟨a, ha, by simp⟩
  have hkey : f b = f a := by simpa using List.find?_some hb
  rw [hb, List.inj_on_of_nodup_map hnodup (List.mem_of_find?_eq_some hb) ha hkey]

omit [DecidableEq α] in
/-- With different keys there is one element to erase at most. -/
theorem eraseP_of_nodup {k : γ} : ∀ {l : List α}, (l.map f).Nodup →
    l.eraseP (fun b => f b = k) = l.filter fun b => f b ≠ k
  | [], _ => rfl
  | a :: l, hnodup => by
    rw [List.map_cons, List.nodup_cons] at hnodup
    by_cases hk : f a = k
    · have hrest : l.filter (fun b => f b ≠ k) = l := by
        rw [List.filter_eq_self]
        intro b hb
        have hne : f b ≠ k := fun heq =>
          hnodup.1 (by rw [hk, ← heq]; exact List.mem_map_of_mem hb)
        simpa using hne
      rw [List.eraseP_cons_of_pos (by simpa using hk), List.filter_cons_of_neg (by simpa using hk),
        hrest]
    · rw [List.eraseP_cons_of_neg (by simpa using hk), List.filter_cons_of_pos (by simpa using hk),
        eraseP_of_nodup hnodup.2]

end

end Infra.Assoc
