import Mathlib.Logic.Function.Basic

/-!
# Tables whose entries age

A table maps keys to values with a time stamp. An entry with a stamp up to the horizon is aged:
it is still in the table, but it is not found. A purge takes the aged entries out.

* `find_eq_some` — what is found is the value of an entry that has not aged
* `purge_eq_some` — a purge leaves the entries that have not aged
-/

namespace Infra.Aging

variable {Key Value : Type*}

structure Entry (Value : Type*) where
  value : Value
  time : Int
deriving DecidableEq, Repr

/-- The entry has a stamp behind the horizon. -/
def Entry.Alive (horizon : Int) (e : Entry Value) : Prop := horizon < e.time

instance (horizon : Int) (e : Entry Value) : Decidable (e.Alive horizon) :=
  inferInstanceAs (Decidable (_ < _))

abbrev Table (Key Value : Type*) := Key → Option (Entry Value)

def find (horizon : Int) (t : Table Key Value) (k : Key) : Option Value :=
  ((t k).filter fun e => e.Alive horizon).map Entry.value

def purge (horizon : Int) (t : Table Key Value) : Table Key Value :=
  fun k => (t k).filter fun e => e.Alive horizon

variable {t : Table Key Value} {k : Key} {e : Entry Value} {v : Value} {h : Int}

theorem find_eq_some : find h t k = some v ↔ ∃ e, t k = some e ∧ e.Alive h ∧ e.value = v := by
  simp only [find, Option.map_eq_some_iff, Option.filter_eq_some_iff, decide_eq_true_eq, and_assoc]

/-- Only the entry of the key counts. -/
theorem find_congr {t' : Table Key Value} (hk : t k = t' k) : find h t k = find h t' k := by
  rw [find, find, hk]

theorem purge_eq_some : purge h t k = some e ↔ t k = some e ∧ e.Alive h := by
  rw [purge, Option.filter_eq_some_iff, decide_eq_true_eq]

end Infra.Aging
