import CooperativeTsn.Infra.SimTime

/-!
# `PeriodicGate`

A gate that toggles whenever its change timer fires. The timer runs through the list of durations
again and again; `offset` says how far into the list the gate starts.

Durations are validated when they are read, so a gate only ever holds positive ones, in even number.
The clock is the simulation time. Scheduling priorities, the guard band and the packets that pass
are left out: they do not change when the gate is open.
-/

namespace CooperativeTsn

open Infra.SimTime

/-- The errors that setting up a gate can raise. -/
inductive GateError where
  /-- "Cannot find schedule for interface" -/
  | noScheduleForInterface
  /-- "Cannot find schedule for traffic class" -/
  | noScheduleForTrafficClass (gateIndex : Nat)
  /-- "Invalid slot start and/or duration" -/
  | invalidSlot
  /-- `ASSERT(duration >= 0)` -/
  | negativeGap
  /-- "The duration parameter must contain an even number of values" -/
  | oddDurations
  /-- "Unaccepted duration value (%s) at position %d" -/
  | unacceptedDuration (value : Int) (position : Nat)
deriving DecidableEq, Repr

/-- The durations of a gate. -/
structure Durations where
  values : List Int
  even : values.length % 2 = 0
  pos : ∀ d ∈ values, 0 < d
deriving DecidableEq

/-- `totalDuration` -/
def Durations.total (ds : Durations) : Int := ds.values.sum

/-- The first value that is not positive, with its position. -/
def firstUnaccepted (i : Nat) : List Int → Option (Int × Nat)
  | [] => none
  | d :: ds => if d ≤ 0 then some (d, i) else firstUnaccepted (i + 1) ds

theorem firstUnaccepted_eq_none : ∀ {l : List Int} {i : Nat},
    firstUnaccepted i l = none ↔ ∀ d ∈ l, 0 < d
  | [], _ => by simp [firstUnaccepted]
  | d :: l, i => by
    rw [firstUnaccepted]
    split
    · simp; omega
    · rw [firstUnaccepted_eq_none]
      simp; omega

/-- `PeriodicGate::readDurationsPar` -/
def readDurationsPar (par : List Int) : Except GateError Durations :=
  if heven : par.length % 2 = 0 then
    match hpos : firstUnaccepted 0 par with
    | some (d, i) => .error (.unacceptedDuration d i)
    | none => .ok ⟨par, heven, firstUnaccepted_eq_none.mp hpos⟩
  else .error .oddDurations

theorem readDurationsPar_of_valid {par : List Int} (heven : par.length % 2 = 0)
    (hpos : ∀ d ∈ par, 0 < d) : readDurationsPar par = .ok ⟨par, heven, hpos⟩ := by
  rw [readDurationsPar, dif_pos heven]
  split
  · next h =>
    rw [firstUnaccepted_eq_none.mpr hpos] at h
    cases h
  · rfl

theorem readDurationsPar_values {par : List Int} {ds : Durations}
    (h : readDurationsPar par = .ok ds) : ds.values = par := by
  rw [readDurationsPar] at h
  split at h
  · split at h
    · cases h
    · cases h
      rfl
  · cases h

/-! ## The gate -/

structure PeriodicGate where
  index : Nat
  isOpen : Bool
  initiallyOpen : Bool
  initialOffset : Int
  offset : Int
  durations : Durations
  /-- the time the change timer is scheduled for -/
  changeTimer : Option Int
deriving DecidableEq

namespace PeriodicGate

/-- `scheduleChangeTimer`, at time `now` -/
def scheduleChangeTimer (now : Int) (g : PeriodicGate) : PeriodicGate :=
  { g with
    index := (g.index + 1) % g.durations.values.length
    changeTimer := some (now + g.durations.values.getD g.index 0 - g.offset)
    offset := 0 }

/-- `open()` and `close()` -/
def processChangeTimer (g : PeriodicGate) : PeriodicGate := { g with isOpen := !g.isOpen }

/-- The change timer fires. -/
def handleMessage (now : Int) (g : PeriodicGate) : PeriodicGate :=
  (g.scheduleChangeTimer now).processChangeTimer

/--
The loop of `initializeGating` that skips whole durations, from the one at `index` on. It ends
before the list does, because the offset is below the total.
-/
def skipOffset : List Int → Nat → Bool → Int → Nat × Bool × Int
  | [], _, isOpen, offset => (0, isOpen, offset)
  | d :: ds, index, isOpen, offset =>
    if 0 < offset ∧ d ≤ offset then skipOffset ds (index + 1) (!isOpen) (offset - d)
    else (index, isOpen, offset)

/-- `initializeGating`, at time `now` -/
def initializeGating (now : Int) (g : PeriodicGate) : PeriodicGate :=
  let offset := if g.durations.total ≠ 0 then g.initialOffset.tmod g.durations.total else 0
  let (index, isOpen, offset) := skipOffset g.durations.values 0 g.initiallyOpen offset
  let g := { g with index := index, isOpen := isOpen, offset := offset, changeTimer := none }
  if g.durations.values.length > 0 then g.scheduleChangeTimer now else g

/-! ## Parameters -/

/-- `initialize`: a new gate, with the values of the ini file -/
def create (now : Int) (initiallyOpen : Bool) (offset : Int) (durations : Durations) :
    PeriodicGate :=
  ({ index := 0, isOpen := initiallyOpen, initiallyOpen := initiallyOpen, initialOffset := offset,
     offset := 0, durations := durations, changeTimer := none } : PeriodicGate).initializeGating now

/-- `handleParameterChange("initiallyOpen")` -/
def setInitiallyOpen (now : Int) (value : Bool) (g : PeriodicGate) : PeriodicGate :=
  ({ g with initiallyOpen := value }).initializeGating now

/-- `handleParameterChange("offset")` -/
def setOffset (now : Int) (value : Int) (g : PeriodicGate) : PeriodicGate :=
  ({ g with initialOffset := value }).initializeGating now

/-- `handleParameterChange("durations")` -/
def setDurations (now : Int) (value : List Int) (g : PeriodicGate) :
    Except GateError PeriodicGate :=
  (readDurationsPar value).map fun ds => ({ g with durations := ds }).initializeGating now

/-! ## Running -/

/-- Fires the timer, at most `fuel` times, as long as it is due at time `t`. -/
def fireUntil (t : Int) : Nat → PeriodicGate → PeriodicGate
  | 0, g => g
  | fuel + 1, g =>
    match g.changeTimer with
    | none => g
    | some a => if a ≤ t then fireUntil t fuel (g.handleMessage a) else g

/--
The gate at time `t`, after every event up to `t`. A firing moves the timer by at least a
picosecond, so the fuel lasts; `runUntil_onSegment` shows that no due event is left.
-/
def runUntil (t : Int) (g : PeriodicGate) : PeriodicGate :=
  match g.changeTimer with
  | none => g
  | some a => fireUntil t (t + 1 - a).toNat g

/-! ## Small lemmas -/

@[simp] theorem scheduleChangeTimer_initiallyOpen (now : Int) (g : PeriodicGate) :
    (g.scheduleChangeTimer now).initiallyOpen = g.initiallyOpen := rfl

@[simp] theorem scheduleChangeTimer_initialOffset (now : Int) (g : PeriodicGate) :
    (g.scheduleChangeTimer now).initialOffset = g.initialOffset := rfl

@[simp] theorem scheduleChangeTimer_durations (now : Int) (g : PeriodicGate) :
    (g.scheduleChangeTimer now).durations = g.durations := rfl

@[simp] theorem initializeGating_initiallyOpen (now : Int) (g : PeriodicGate) :
    (g.initializeGating now).initiallyOpen = g.initiallyOpen := by
  unfold initializeGating; dsimp only; split <;> rfl

@[simp] theorem initializeGating_initialOffset (now : Int) (g : PeriodicGate) :
    (g.initializeGating now).initialOffset = g.initialOffset := by
  unfold initializeGating; dsimp only; split <;> rfl

@[simp] theorem initializeGating_durations (now : Int) (g : PeriodicGate) :
    (g.initializeGating now).durations = g.durations := by
  unfold initializeGating; dsimp only; split <;> rfl

@[simp] theorem create_initiallyOpen (now : Int) (b : Bool) (offset : Int) (ds : Durations) :
    (create now b offset ds).initiallyOpen = b := by simp [create]

@[simp] theorem create_initialOffset (now : Int) (b : Bool) (offset : Int) (ds : Durations) :
    (create now b offset ds).initialOffset = offset := by simp [create]

@[simp] theorem create_durations (now : Int) (b : Bool) (offset : Int) (ds : Durations) :
    (create now b offset ds).durations = ds := by simp [create]

/-- A gate that starts over forgets where it was: only its parameters count. -/
theorem initializeGating_eq_create (now : Int) (g : PeriodicGate) :
    g.initializeGating now = create now g.initiallyOpen g.initialOffset g.durations := rfl

end PeriodicGate

end CooperativeTsn
