import Mathlib.Data.List.Forall2

/-!
# Computations that may fail, and runs of a step function

A step function takes a state and an event to the next state, or fails. A run takes the events of a
list in turn and stops at the first failure.

* `bind_eq_ok` — a sequence succeeds iff its parts do
* `run_simulates` — a run follows its abstraction
* `run_invariant`, `run_of_mem` — what every step keeps, a run keeps
* `run_invariant_of_allSteps` — what every step with a property keeps, a run of them keeps
* `allSteps_iff` — a property of all steps can be exchanged step by step
* `allAttempts_iff` — the same for the events that a run comes to, also the one that fails
-/

namespace Infra.Runs

variable {State Event Error : Type*}

/-! ## Sequences -/

section

variable {α β : Type}

theorem bind_eq_ok {x : Except Error α} {f : α → Except Error β} {b : β} :
    (x >>= f) = .ok b ↔ ∃ a, x = .ok a ∧ f a = .ok b := by
  cases x <;> simp [bind, Except.bind]

theorem pure_eq_ok {a b : α} : (pure a : Except Error α) = .ok b ↔ a = b := by
  simp [pure, Except.pure]

theorem bind_eq_error {x : Except Error α} {f : α → Except Error β} {e : Error} :
    (x >>= f) = .error e ↔ x = .error e ∨ ∃ a, x = .ok a ∧ f a = .error e := by
  cases x <;> simp [bind, Except.bind]

theorem pure_ne_error {a : α} {e : Error} : (pure a : Except Error α) ≠ .error e := by
  simp [pure, Except.pure]

theorem mapError_eq_ok {Error' : Type*} {x : Except Error α} {f : Error → Error'} {a : α} :
    x.mapError f = .ok a ↔ x = .ok a := by
  cases x <;> simp [Except.mapError]

theorem mapError_eq_error {Error' : Type*} {x : Except Error α} {f : Error → Error'} {e : Error'} :
    x.mapError f = .error e ↔ ∃ e', x = .error e' ∧ f e' = e := by
  cases x <;> simp [Except.mapError]

/-- Goes on if the condition holds. -/
def ensure (p : Prop) [Decidable p] (e : Error) : Except Error Unit :=
  if p then .ok () else .error e

theorem ensure_eq_ok {p : Prop} [Decidable p] {e : Error} {u : Unit} :
    ensure p e = .ok u ↔ p := by
  by_cases hp : p <;> simp [ensure, hp]

/-- The value, if there is one. -/
def require (e : Error) : Option α → Except Error α
  | some a => .ok a
  | none => .error e

theorem require_eq_ok {o : Option α} {e : Error} {a : α} : require e o = .ok a ↔ o = some a := by
  cases o <;> simp [require]

theorem exists_of_isOk {x : Except Error α} (h : x.isOk = true) : ∃ a, x = .ok a := by
  cases x with
  | error e => cases h
  | ok a => exact ⟨a, rfl⟩

/-- A result that passes a check. -/
theorem exists_of_any {x : Except Error α} {p : α → Bool} (h : x.toOption.any p = true) :
    ∃ a, x = .ok a ∧ p a = true := by
  cases x with
  | error e => cases h
  | ok a => exact ⟨a, rfl, h⟩

theorem of_any {x : Except Error α} {p : α → Bool} (h : x.toOption.any p = true) {a : α}
    (ha : x = .ok a) : p a = true := by
  subst ha
  exact h

/-- The value behind a mapped result. -/
theorem map_eq_ok {x : Except Error α} {f : α → β} {b : β} :
    x.map f = .ok b ↔ ∃ a, x = .ok a ∧ f a = b := by
  cases x <;> simp [Except.map]

/-- The results of a list, one for each element. -/
theorem mapM_eq_ok {f : α → Except Error β} : ∀ {as : List α} {bs : List β},
    as.mapM f = .ok bs ↔ List.Forall₂ (fun a b => f a = .ok b) as bs
  | [], bs => by
    rw [List.mapM_nil, pure_eq_ok, List.forall₂_nil_left_iff, eq_comm]
  | a :: as, bs => by
    simp only [List.mapM_cons, bind_eq_ok, pure_eq_ok, List.forall₂_cons_left_iff, mapM_eq_ok]
    constructor
    · rintro ⟨b, hb, bs', hbs, rfl⟩
      exact ⟨b, bs', hb, hbs, rfl⟩
    · rintro ⟨b, bs', hb, hbs, rfl⟩
      exact ⟨b, hb, bs', hbs, rfl⟩

/-- A computation that agrees with a function where it succeeds. -/
theorem mapM_eq_map {f : α → Except Error β} {g : α → β} (hg : ∀ a b, f a = .ok b → b = g a)
    {as : List α} {bs : List β} (h : as.mapM f = .ok bs) : bs = as.map g := by
  have hall := mapM_eq_ok.mp h
  clear h
  induction hall with
  | nil => rfl
  | cons hab _ ih => rw [List.map_cons, hg _ _ hab, ih]

/-- Two computations of which one succeeds where the other does. -/
theorem mapM_forall₂ {γ : Type} {f : α → Except Error β} {g : α → Except Error γ}
    {R : γ → β → Prop} (hfg : ∀ a b, f a = .ok b → ∃ c, g a = .ok c ∧ R c b) {as : List α}
    {bs : List β} (h : as.mapM f = .ok bs) : ∃ cs, as.mapM g = .ok cs ∧ List.Forall₂ R cs bs := by
  simp only [mapM_eq_ok] at h ⊢
  induction h with
  | nil => exact ⟨[], .nil, .nil⟩
  | cons hab _ ih =>
    obtain ⟨c, hc, hcb⟩ := hfg _ _ hab
    obtain ⟨cs, hcs, hall⟩ := ih
    exact ⟨c :: cs, .cons hc hcs, .cons hcb hall⟩

/-- A property of all results, element by element. -/
theorem forall_mem_flatten_iff {R : α → List β → Prop} {P : β → Prop} {Q : α → Prop}
    (hRQ : ∀ a bs, R a bs → ((∀ b ∈ bs, P b) ↔ Q a)) {as : List α} {bss : List (List β)}
    (h : List.Forall₂ R as bss) : (∀ b ∈ bss.flatten, P b) ↔ ∀ a ∈ as, Q a := by
  induction h with
  | nil => simp
  | cons hab _ ih =>
    rw [List.flatten_cons, List.forall_mem_append, hRQ _ _ hab, ih, List.forall_mem_cons]

theorem mapM_map_of_ok {γ : Type} {f : β → Except Error γ} {g : α → β} {h : α → γ}
    (hfg : ∀ a, f (g a) = .ok (h a)) : ∀ as : List α, (as.map g).mapM f = .ok (as.map h)
  | [] => rfl
  | a :: as => by
    simp only [List.map_cons, List.mapM_cons, bind_eq_ok, pure_eq_ok]
    exact ⟨_, hfg a, _, mapM_map_of_ok hfg as, rfl⟩

theorem mapM_getElem? {f : α → Except Error β} {as : List α} {bs : List β}
    (h : as.mapM f = .ok bs) {i : Nat} {a : α} (ha : as[i]? = some a) :
    ∃ b, bs[i]? = some b ∧ f a = .ok b := by
  obtain ⟨hlength, hget⟩ := List.forall₂_iff_get.mp (mapM_eq_ok.mp h)
  obtain ⟨hi, rfl⟩ := List.getElem?_eq_some_iff.mp ha
  exact ⟨bs[i], List.getElem?_eq_getElem (hlength ▸ hi), hget i hi (hlength ▸ hi)⟩

theorem exists_of_mapM_error {f : α → Except Error β} {e : Error} : ∀ {as : List α},
    as.mapM f = .error e → ∃ a ∈ as, f a = .error e
  | [], h => by cases h
  | a :: as, h => by
    rw [List.mapM_cons] at h
    cases ha : f a with
    | error e' =>
      rw [ha] at h
      cases h
      exact ⟨a, List.mem_cons_self, ha⟩
    | ok b =>
      cases has : as.mapM f with
      | error e' =>
        rw [ha, has] at h
        cases h
        obtain ⟨a', ha', he⟩ := exists_of_mapM_error has
        exact ⟨a', List.mem_cons_of_mem _ ha', he⟩
      | ok bs =>
        rw [ha, has] at h
        cases h

theorem getElem?_of_mapM {f : α → Except Error β} {as : List α} {bs : List β}
    (h : as.mapM f = .ok bs) {i : Nat} {b : β} (hb : bs[i]? = some b) :
    ∃ a, as[i]? = some a ∧ f a = .ok b := by
  obtain ⟨hlength, hget⟩ := List.forall₂_iff_get.mp (mapM_eq_ok.mp h)
  obtain ⟨hi, rfl⟩ := List.getElem?_eq_some_iff.mp hb
  exact ⟨as[i], List.getElem?_eq_getElem (hlength ▸ hi), hget i (hlength ▸ hi) hi⟩

/-- A list can be mapped iff all its elements can. -/
theorem exists_mapM_ok {f : α → Except Error β} : ∀ {as : List α},
    (∃ bs, as.mapM f = .ok bs) ↔ ∀ a ∈ as, ∃ b, f a = .ok b
  | [] => by simp [pure, Except.pure]
  | a :: as => by
    rw [List.forall_mem_cons, ← exists_mapM_ok]
    simp only [List.mapM_cons, bind_eq_ok, pure_eq_ok]
    constructor
    · rintro ⟨_, b, hb, bs, hbs, -⟩
      exact ⟨⟨b, hb⟩, bs, hbs⟩
    · rintro ⟨⟨b, hb⟩, bs, hbs⟩
      exact ⟨b :: bs, b, hb, bs, hbs, rfl⟩

/-- A list whose elements can be mapped, with what is known of the result for each position. -/
theorem exists_mapM_of_getElem? {γ : Type} {f : α → Except Error β} {p : β → γ} {q : Nat → γ}
    {as : List α} (h : ∀ i a, as[i]? = some a → ∃ b, f a = .ok b ∧ p b = q i) :
    ∃ bs, as.mapM f = .ok bs ∧ bs.map p = (List.range as.length).map q := by
  obtain ⟨bs, hbs⟩ := exists_mapM_ok.mpr fun a ha => by
    obtain ⟨i, hi⟩ := List.mem_iff_getElem?.mp ha
    obtain ⟨b, hb, -⟩ := h i a hi
    exact ⟨b, hb⟩
  have hlength := (List.forall₂_iff_get.mp (mapM_eq_ok.mp hbs)).1
  refine ⟨bs, hbs, List.ext_getElem (by simp [hlength]) fun i hi hi' => ?_⟩
  rw [List.getElem_map, List.getElem_map, List.getElem_range]
  obtain ⟨a, ha, hb⟩ := getElem?_of_mapM hbs (List.getElem?_eq_getElem (by simpa using hi))
  obtain ⟨b, hb', hpq⟩ := h i a ha
  rw [hb, Except.ok.injEq] at hb'
  rw [hb', hpq]

end

/-! ## Runs -/

def run (step : State → Event → Except Error State) : List Event → State → Except Error State
  | [], s => .ok s
  | e :: es, s =>
    match step s e with
    | .error x => .error x
    | .ok s => run step es s

variable {step : State → Event → Except Error State} {s s' : State} {e : Event} {es : List Event}

@[simp] theorem run_nil (s : State) : run step [] s = .ok s := rfl

theorem run_cons_ok (h : run step (e :: es) s = .ok s') :
    ∃ s₁, step s e = .ok s₁ ∧ run step es s₁ = .ok s' := by
  rw [run] at h
  split at h
  · cases h
  · next s₁ hs => exact ⟨s₁, hs, h⟩

theorem run_cons_of_ok {s₁ : State} (h : step s e = .ok s₁) :
    run step (e :: es) s = run step es s₁ := by
  rw [run, h]

/-- What a step does in the abstract, a run does. -/
theorem run_simulates {Abs : Type*} {next : Abs → Event → Abs} {R : State → Abs → Prop}
    (hstep : ∀ s a e s', R s a → step s e = .ok s' → R s' (next a e)) {a : Abs} (hR : R s a)
    (h : run step es s = .ok s') : R s' (es.foldl next a) := by
  induction es generalizing s a with
  | nil =>
    cases h
    exact hR
  | cons e es ih =>
    obtain ⟨s₁, hs, hrun⟩ := run_cons_ok h
    exact ih (hstep s a e s₁ hR hs) hrun

/-! ## Properties of all steps -/

/-- Every step that the run takes has the property. -/
def AllSteps (step : State → Event → Except Error State) (P : State → Event → State → Prop) :
    List Event → State → Prop
  | [], _ => True
  | e :: es, s => ∀ s', step s e = .ok s' → P s e s' ∧ AllSteps step P es s'

/-- What every step with the property keeps, a run of such steps keeps. -/
theorem run_invariant_of_allSteps {I : State → Prop} {P : State → Event → State → Prop}
    (hstep : ∀ s e s', e ∈ es → I s → P s e s' → step s e = .ok s' → I s') (hI : I s)
    (hall : AllSteps step P es s) (h : run step es s = .ok s') : I s' := by
  induction es generalizing s with
  | nil =>
    cases h
    exact hI
  | cons e es ih =>
    obtain ⟨s₁, hs, hrun⟩ := run_cons_ok h
    obtain ⟨hP, hall⟩ := hall s₁ hs
    exact ih (fun s e s' he => hstep s e s' (List.mem_cons_of_mem _ he))
      (hstep s e s₁ List.mem_cons_self hI hP hs) hall hrun

theorem allSteps_of_forall {P : State → Event → State → Prop} (hP : ∀ s e s', P s e s') :
    AllSteps step P es s := by
  induction es generalizing s with
  | nil => trivial
  | cons e es ih => exact fun s' _ => ⟨hP s e s', ih⟩

/-- What every step keeps, a run keeps. -/
theorem run_invariant {I : State → Prop}
    (hstep : ∀ s e s', e ∈ es → I s → step s e = .ok s' → I s') (hI : I s)
    (h : run step es s = .ok s') : I s' :=
  run_invariant_of_allSteps (P := fun _ _ _ => True) (fun s e s' he hI _ => hstep s e s' he hI) hI
    (allSteps_of_forall fun _ _ _ => trivial) h

/-- What one event brings about, and all others keep, holds in the end. -/
theorem run_of_mem {Q : State → Prop} (he : e ∈ es)
    (hmake : ∀ s s', step s e = .ok s' → Q s')
    (hkeep : ∀ s e s', e ∈ es → Q s → step s e = .ok s' → Q s')
    (h : run step es s = .ok s') : Q s' := by
  induction es generalizing s with
  | nil => cases he
  | cons e' es ih =>
    obtain ⟨s₁, hs, hrun⟩ := run_cons_ok h
    have hrest : ∀ s e s', e ∈ es → Q s → step s e = .ok s' → Q s' :=
      fun s e s' he => hkeep s e s' (List.mem_cons_of_mem _ he)
    rcases List.mem_cons.mp he with rfl | he
    · exact run_invariant hrest (hmake s s₁ hs) hrun
    · exact ih he hrest hrun

/-- A property of all steps can be exchanged step by step, under an invariant that it keeps. -/
theorem allSteps_iff {I : State → Prop} {P Q : State → Event → State → Prop}
    (hPQ : ∀ s e s', e ∈ es → I s → step s e = .ok s' → (P s e s' ↔ Q s e s'))
    (hnext : ∀ s e s', e ∈ es → I s → step s e = .ok s' → P s e s' → I s') (hI : I s) :
    AllSteps step P es s ↔ AllSteps step Q es s := by
  induction es generalizing s with
  | nil => exact Iff.rfl
  | cons e es ih =>
    have hrest : ∀ s', step s e = .ok s' → P s e s' →
        (AllSteps step P es s' ↔ AllSteps step Q es s') := fun s' hs hP =>
      ih (fun s e s' he => hPQ s e s' (List.mem_cons_of_mem _ he))
        (fun s e s' he => hnext s e s' (List.mem_cons_of_mem _ he))
        (hnext s e s' List.mem_cons_self hI hs hP)
    refine forall_congr' fun s' => imp_congr_right fun hs => ?_
    rw [← hPQ s e s' List.mem_cons_self hI hs]
    exact and_congr_right (hrest s' hs)

theorem allSteps_congr {P Q : State → Event → State → Prop}
    (hPQ : ∀ s e s', e ∈ es → step s e = .ok s' → (P s e s' ↔ Q s e s')) :
    AllSteps step P es s ↔ AllSteps step Q es s :=
  allSteps_iff (I := fun _ => True) (fun s e s' he _ => hPQ s e s' he)
    (fun _ _ _ _ _ _ _ => trivial) trivial

/-! ## Events that a run comes to -/

/-- Every event that the run comes to has the property, whether its step fails or not. -/
def AllAttempts (step : State → Event → Except Error State) (P : State → Event → Prop) :
    List Event → State → Prop
  | [], _ => True
  | e :: es, s => P s e ∧ ∀ s', step s e = .ok s' → AllAttempts step P es s'

theorem allSteps_iff_allAttempts {P : State → Event → State → Prop} :
    AllSteps step P es s ↔ AllAttempts step (fun s e => ∀ s', step s e = .ok s' → P s e s') es s := by
  induction es generalizing s with
  | nil => exact Iff.rfl
  | cons e es ih =>
    simp only [AllSteps, AllAttempts, ih]
    exact ⟨fun h => ⟨fun s' hs => (h s' hs).1, fun s' hs => (h s' hs).2⟩,
      fun h s' hs => ⟨h.1 s' hs, h.2 s' hs⟩⟩

/-- A run does not end with an error iff no event that it comes to does. -/
theorem run_ne_error_iff {x : Error} :
    run step es s ≠ .error x ↔ AllAttempts step (fun s e => step s e ≠ .error x) es s := by
  induction es generalizing s with
  | nil => simp [AllAttempts]
  | cons e es ih =>
    rw [AllAttempts, run]
    cases he : step s e with
    | error y => simp
    | ok s₁ => simpa using ih

theorem allAttempts_forall {ι : Type*} {P : ι → State → Event → Prop} :
    AllAttempts step (fun s e => ∀ i, P i s e) es s ↔ ∀ i, AllAttempts step (P i) es s := by
  induction es generalizing s with
  | nil => simp [AllAttempts]
  | cons e es ih =>
    simp only [AllAttempts, ih]
    exact ⟨fun h i => ⟨h.1 i, fun s' hs => h.2 s' hs i⟩,
      fun h => ⟨fun i => (h i).1, fun s' hs i => (h i).2 s' hs⟩⟩

theorem allAttempts_and {P Q : State → Event → Prop} :
    AllAttempts step (fun s e => P s e ∧ Q s e) es s ↔
      AllAttempts step P es s ∧ AllAttempts step Q es s := by
  induction es generalizing s with
  | nil => simp [AllAttempts]
  | cons e es ih =>
    simp only [AllAttempts, ih]
    exact ⟨fun h => ⟨⟨h.1.1, fun s' hs => (h.2 s' hs).1⟩, h.1.2, fun s' hs => (h.2 s' hs).2⟩,
      fun h => ⟨⟨h.1.1, h.2.1⟩, fun s' hs => ⟨h.1.2 s' hs, h.2.2 s' hs⟩⟩⟩

/-- A stronger property of the events that a run comes to, under an invariant that it keeps. -/
theorem allAttempts_mono {I : State → Prop} {P Q : State → Event → Prop}
    (hPQ : ∀ s e, I s → P s e → Q s e)
    (hnext : ∀ s e s', I s → P s e → step s e = .ok s' → I s') (hI : I s)
    (hP : AllAttempts step P es s) : AllAttempts step Q es s := by
  induction es generalizing s with
  | nil => trivial
  | cons e es ih =>
    exact ⟨hPQ s e hI hP.1, fun s' hs => ih (hnext s e s' hI hP.1 hs) (hP.2 s' hs)⟩

/--
A property of the events that a run comes to can be exchanged event by event, under what is known of
them and an invariant that the property keeps.
-/
theorem allAttempts_iff {I : State → Prop} {A P Q : State → Event → Prop}
    (hA : AllAttempts step A es s) (hPQ : ∀ s e, I s → A s e → (P s e ↔ Q s e))
    (hnext : ∀ s e s', I s → A s e → P s e → step s e = .ok s' → I s') (hI : I s) :
    AllAttempts step P es s ↔ AllAttempts step Q es s := by
  induction es generalizing s with
  | nil => exact Iff.rfl
  | cons e es ih =>
    obtain ⟨he, hes⟩ := hA
    rw [AllAttempts, AllAttempts, ← hPQ s e hI he]
    refine and_congr_right fun hP => forall_congr' fun s' => imp_congr_right fun hs => ?_
    exact ih (hes s' hs) (hnext s e s' hI he hP hs)

end Infra.Runs
