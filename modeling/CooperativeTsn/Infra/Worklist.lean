import Mathlib.Algebra.Group.Action.Defs
import Mathlib.Algebra.GroupWithZero.Nat
import Mathlib.Algebra.Order.BigOperators.Group.List
import Mathlib.Algebra.Order.Group.Nat
import Mathlib.Data.List.Basic

/-!
# Working off a list of tasks

Tasks are visited first in, first out. A visit changes the state, and may add tasks or fail.

* `workOff_invariant` — what every visit keeps holds in the end
* `exists_workOff` — if tasks only add a bounded number of tasks of lower rank, the list gets empty
-/

namespace Infra.Worklist

variable {State Task Error : Type}

/-- Works off the tasks, with this many visits at most. -/
def workOff (unfinished : Error) (visit : State → Task → Except Error (State × List Task)) :
    Nat → List Task → State → Except Error State
  | _, [], s => .ok s
  | 0, _ :: _, _ => .error unfinished
  | fuel + 1, task :: tasks, s =>
    match visit s task with
    | .error e => .error e
    | .ok (s, added) => workOff unfinished visit fuel (tasks ++ added) s

variable {unfinished : Error} {visit : State → Task → Except Error (State × List Task)}
  {s s' : State} {task : Task} {tasks added : List Task} {fuel : Nat}

@[simp] theorem workOff_nil : workOff unfinished visit fuel [] s = .ok s := by
  cases fuel <;> rfl

theorem workOff_cons_of_ok (h : visit s task = .ok (s', added)) :
    workOff unfinished visit (fuel + 1) (task :: tasks) s =
      workOff unfinished visit fuel (tasks ++ added) s' := by
  rw [workOff, h]

/-- The first visit of a list that is worked off. -/
theorem workOff_cons_ok (h : workOff unfinished visit fuel (task :: tasks) s = .ok s') :
    ∃ fuel' s₁ added, fuel = fuel' + 1 ∧ visit s task = .ok (s₁, added) ∧
      workOff unfinished visit fuel' (tasks ++ added) s₁ = .ok s' := by
  cases fuel with
  | zero => cases h
  | succ fuel =>
    rw [workOff] at h
    cases hvisit : visit s task with
    | error e =>
      rw [hvisit] at h
      cases h
    | ok r =>
      rw [hvisit] at h
      exact ⟨fuel, r.1, r.2, rfl, rfl, h⟩

/-- What every visit of a task keeps holds in the end. -/
theorem workOff_invariant {I : State → Prop} {P : Task → Prop}
    (hvisit : ∀ s task s' added, visit s task = .ok (s', added) → I s → P task →
      I s' ∧ ∀ task' ∈ added, P task') :
    ∀ {fuel : Nat} {tasks : List Task} {s s' : State},
      workOff unfinished visit fuel tasks s = .ok s' → I s → (∀ task ∈ tasks, P task) → I s'
  | fuel, [], s, s', h, hI, _ => by
    rw [workOff_nil, Except.ok.injEq] at h
    exact h ▸ hI
  | fuel, task :: tasks, s, s', h, hI, hP => by
    obtain ⟨fuel', s₁, added, rfl, hfirst, hrest⟩ := workOff_cons_ok h
    obtain ⟨hI₁, hadded⟩ := hvisit s task s₁ added hfirst hI (hP task List.mem_cons_self)
    refine workOff_invariant hvisit hrest hI₁ fun task' htask' => ?_
    rcases List.mem_append.mp htask' with hold | hnew
    · exact hP task' (List.mem_cons_of_mem _ hold)
    · exact hadded task' hnew

/-- A task of rank `r` stands for as many visits as a tree of this height can have. -/
def cost (b : Nat) (rank : Task → Nat) (tasks : List Task) : Nat :=
  (tasks.map fun task => (b + 1) ^ rank task).sum

theorem cost_append (b : Nat) (rank : Task → Nat) (tasks tasks' : List Task) :
    cost b rank (tasks ++ tasks') = cost b rank tasks + cost b rank tasks' := by
  rw [cost, List.map_append, List.sum_append, cost, cost]

/-- What a visit adds costs less than the visit. -/
theorem cost_added_lt {b : Nat} {rank : Task → Nat} (hlength : added.length ≤ b)
    (hrank : ∀ task' ∈ added, rank task' < rank task) :
    cost b rank added < (b + 1) ^ rank task := by
  cases hr : rank task with
  | zero =>
    cases added with
    | nil => simp [cost]
    | cons task' added =>
      have := hrank task' List.mem_cons_self
      omega
  | succ r =>
    have hle : cost b rank added ≤ added.length * (b + 1) ^ r := by
      refine (List.sum_le_card_nsmul _ ((b + 1) ^ r) fun x hx => ?_).trans_eq ?_
      · obtain ⟨task', htask', rfl⟩ := List.mem_map.mp hx
        have := hrank task' htask'
        exact Nat.pow_le_pow_right (by omega) (by omega)
      · rw [List.length_map, smul_eq_mul]
    have hpos : 0 < (b + 1) ^ r := Nat.pow_pos (by omega)
    calc cost b rank added ≤ added.length * (b + 1) ^ r := hle
      _ ≤ b * (b + 1) ^ r := Nat.mul_le_mul_right _ hlength
      _ < (b + 1) ^ r * (b + 1) := by
        rw [Nat.mul_comm]
        exact Nat.mul_lt_mul_of_pos_left (by omega) hpos
      _ = (b + 1) ^ (r + 1) := (Nat.pow_succ ..).symm

/-- **Tasks that only add a bounded number of tasks of lower rank are worked off.** -/
theorem exists_workOff {b : Nat} {rank : Task → Nat} {P : Task → Prop}
    (hvisit : ∀ s task, P task → ∃ s' added, visit s task = .ok (s', added) ∧ added.length ≤ b ∧
      ∀ task' ∈ added, P task' ∧ rank task' < rank task) :
    ∀ {fuel : Nat} {tasks : List Task} (s : State), (∀ task ∈ tasks, P task) →
      cost b rank tasks ≤ fuel → ∃ s', workOff unfinished visit fuel tasks s = .ok s'
  | fuel, [], s, _, _ => ⟨s, workOff_nil⟩
  | 0, task :: tasks, s, _, hfuel => by
    have hpos : 0 < (b + 1) ^ rank task := Nat.pow_pos (by omega)
    rw [cost, List.map_cons, List.sum_cons] at hfuel
    omega
  | fuel + 1, task :: tasks, s, hP, hfuel => by
    obtain ⟨s₁, added, hfirst, hlength, hadded⟩ := hvisit s task (hP task List.mem_cons_self)
    have hlt := cost_added_lt (b := b) hlength fun task' htask' => (hadded task' htask').2
    rw [cost, List.map_cons, List.sum_cons, ← cost] at hfuel
    rw [workOff_cons_of_ok hfirst]
    refine exists_workOff hvisit s₁ (fun task' htask' => ?_) (by rw [cost_append]; omega)
    rcases List.mem_append.mp htask' with hold | hnew
    · exact hP task' (List.mem_cons_of_mem _ hold)
    · exact (hadded task' hnew).1

/-- More visits than needed change nothing. -/
theorem workOff_more : ∀ {fuel : Nat} {tasks : List Task} {s : State} (more : Nat),
    workOff unfinished visit fuel tasks s = .ok s' →
    workOff unfinished visit (fuel + more) tasks s = .ok s'
  | fuel, [], s, more, h => by
    rw [workOff_nil] at h ⊢
    exact h
  | fuel, task :: tasks, s, more, h => by
    obtain ⟨fuel', s₁, added, rfl, hfirst, hrest⟩ := workOff_cons_ok h
    rw [Nat.add_right_comm, workOff_cons_of_ok hfirst]
    exact workOff_more more hrest

end Infra.Worklist
