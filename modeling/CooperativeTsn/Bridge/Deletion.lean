import CooperativeTsn.Bridge.Network

/-!
# Network cards that leave

Cars come and go, and with them their network cards. `deleteNic` does nothing: a network card that
has left stays in the set of the registered ones, its addresses stay in the tables of the others,
and the next registration follows the pointer to a module that does not exist any more.

* `registeredExact_iff` — the set is right iff nobody leaves
* `memorySafe_iff` — no such pointer is followed iff nobody registers after somebody has left
* `tablesClean_iff` — the tables are right iff nobody leaves an address at a bridge of another car
* `bookkeeping_iff` — all three
-/

namespace CooperativeTsn

open Infra Infra.Runs MacForwardingTable ForwardingAutoConfigurator

variable {Nic Car Host Mac Group : Type}

/-! ## Signals -/

inductive NicSignal (Nic : Type) where
  | registerNic (value : Nic)
  | deleteNic (value : Nic)
deriving DecidableEq

def NicSignal.value : NicSignal Nic → Nic
  | .registerNic value => value
  | .deleteNic value => value

namespace TsnNic

/-- `TsnNic::initialize`; `staticRouting` is the stage `INITSTAGE_STATIC_ROUTING`. -/
def initializeStage (staticRouting stage : Nat) (nic : Nic) : List (NicSignal Nic) :=
  if stage = staticRouting then [.registerNic nic] else []

/-- `TsnNic::finish` -/
def finish (nic : Nic) : List (NicSignal Nic) := [.deleteNic nic]

/-- All that a network card emits: its `numInitStages` stages, then its end. -/
def emits (staticRouting : Nat) (nic : Nic) : List (NicSignal Nic) :=
  (List.range (staticRouting + 1)).flatMap (initializeStage staticRouting · nic) ++ finish nic

theorem emits_eq (staticRouting : Nat) (nic : Nic) :
    emits staticRouting nic = [.registerNic nic, .deleteNic nic] := by
  have hbefore : (List.range staticRouting).flatMap (initializeStage staticRouting · nic) = [] := by
    rw [List.flatMap_eq_nil_iff]
    intro stage hstage
    rw [List.mem_range] at hstage
    rw [initializeStage, if_neg hstage.ne]
  rw [emits, List.range_succ, List.flatMap_append, hbefore]
  simp [initializeStage, finish]

end TsnNic

/-- Every network card has emitted a part of what it emits, from its beginning on. -/
def EmittedInOrder [DecidableEq Nic] (staticRouting : Nat) (signals : List (NicSignal Nic)) : Prop :=
  ∀ nic, signals.filter (·.value = nic) <+: TsnNic.emits staticRouting nic

/-! ## The population -/

/-- `ForwardingAutoConfigurator::deleteNic` -/
def ForwardingAutoConfigurator.deleteNic (_value : Nic) (s : BridgeState Nic Car Host Mac Group) :
    Bool × BridgeState Nic Car Host Mac Group :=
  (false, s)

/-- The simulation together with what has happened. -/
structure Population (Nic Car Host Mac Group : Type) where
  bridge : BridgeState Nic Car Host Mac Group
  /-- A module is destroyed when it has emitted `deleteNic`. -/
  emitted : List (NicSignal Nic)
  /-- the addresses that registrations have written to the tables -/
  installed : Host → Mac → Prop

inductive PopulationEvent (Nic : Type) where
  | signal (emitted : NicSignal Nic)
  | advance (time : Int)
deriving DecidableEq

def PopulationEvent.signals : List (PopulationEvent Nic) → List (NicSignal Nic)
  | [] => []
  | .signal emitted :: events => emitted :: signals events
  | .advance _ :: events => signals events

/-- Why an event is not handled to its end. -/
inductive PopulationError (Nic : Type) where
  | simError (error : SimError)
  /-- The code follows a pointer to this module, which is destroyed. -/
  | destroyed (nic : Nic)

namespace Population

def Registered (p : Population Nic Car Host Mac Group) (nic : Nic) : Prop :=
  .registerNic nic ∈ p.emitted

def Deleted (p : Population Nic Car Host Mac Group) (nic : Nic) : Prop :=
  .deleteNic nic ∈ p.emitted

instance [DecidableEq Nic] (p : Population Nic Car Host Mac Group) (nic : Nic) :
    Decidable (p.Deleted nic) := inferInstanceAs (Decidable (_ ∈ _))

/-- Nobody has registered. -/
def start (s : BridgeState Nic Car Host Mac Group) : Population Nic Car Host Mac Group :=
  ⟨s, [], fun _ _ => False⟩

/-- The registration writes an entry for the address, whatever its port is. -/
def Installs (net : Network Nic Car Host Mac Group) (s : BridgeState Nic Car Host Mac Group)
    (value : Nic) (host : Host) (m : Mac) : Prop :=
  value ∉ s.registeredNics ∧ ∃ a b, Pair s value a b ∧ host ∈ net.bridges a ∧ m ∈ net.macs b ∧
    net.interfaces a ≠ []

section

variable [LinearOrder Nic]

/-- Follows the pointer to a module of `registerdNics`. -/
def dereference (p : Population Nic Car Host Mac Group) (nic : Nic) :
    Except (PopulationError Nic) Nic :=
  if p.Deleted nic then .error (.destroyed nic) else .ok nic

theorem dereference_eq_ok {p : Population Nic Car Host Mac Group} {nic nic' : Nic} :
    p.dereference nic = .ok nic' ↔ ¬ p.Deleted nic ∧ nic = nic' := by
  rw [dereference]
  split <;> simp_all

theorem dereference_eq_error {p : Population Nic Car Host Mac Group} {nic : Nic}
    {e : PopulationError Nic} : p.dereference nic = .error e ↔ p.Deleted nic ∧ e = .destroyed nic := by
  rw [dereference]
  split <;> simp_all [eq_comm]

variable [DecidableEq Host] [DecidableEq Mac] [DecidableEq Group]

/-- `receiveSignal`. The first loop of `registerNic` visits all modules of the set. -/
def receiveSignal (net : Network Nic Car Host Mac Group) (p : Population Nic Car Host Mac Group) :
    NicSignal Nic → Except (PopulationError Nic) (Population Nic Car Host Mac Group)
  | .registerNic value => do
    let _ ← p.bridge.registeredNics.mapM p.dereference
    let bridge ← (registerNic net.toLayout value p.bridge).mapError .simError
    pure ⟨bridge, p.emitted ++ [.registerNic value],
      fun host m => p.installed host m ∨ Installs net p.bridge value host m⟩
  | .deleteNic value =>
    pure ⟨(deleteNic value p.bridge).2, p.emitted ++ [.deleteNic value], p.installed⟩

def step (net : Network Nic Car Host Mac Group) (p : Population Nic Car Host Mac Group) :
    PopulationEvent Nic → Except (PopulationError Nic) (Population Nic Car Host Mac Group)
  | .signal emitted => p.receiveSignal net emitted
  | .advance time => do
    let bridge ← (advanceTo time p.bridge).mapError .simError
    pure { p with bridge := bridge }

/-! ### Steps -/

variable {net : Network Nic Car Host Mac Group} {p p' : Population Nic Car Host Mac Group}
  {value : Nic}

theorem step_registerNic (h : step net p (.signal (.registerNic value)) = .ok p') :
    (∀ nic ∈ p.bridge.registeredNics, ¬ p.Deleted nic) ∧
      registerNic net.toLayout value p.bridge = .ok p'.bridge ∧
      p'.emitted = p.emitted ++ [.registerNic value] ∧
      ∀ host m, p'.installed host m ↔ p.installed host m ∨ Installs net p.bridge value host m := by
  simp only [step, receiveSignal, bind_eq_ok, pure_eq_ok, mapError_eq_ok] at h
  obtain ⟨_, hmodules, bridge, hbridge, rfl⟩ := h
  refine ⟨fun nic hnic => ?_, hbridge, rfl, fun _ _ => Iff.rfl⟩
  obtain ⟨_, hderef⟩ := exists_mapM_ok.mp ⟨_, hmodules⟩ nic hnic
  exact (dereference_eq_ok.mp hderef).1

theorem step_advance {time : Int} (h : step net p (.advance time) = .ok p') :
    p'.bridge.registeredNics = p.bridge.registeredNics ∧ p'.bridge.tables = p.bridge.tables ∧
      p'.emitted = p.emitted ∧ p'.installed = p.installed := by
  simp only [step, bind_eq_ok, pure_eq_ok, mapError_eq_ok] at h
  obtain ⟨bridge, hbridge, rfl⟩ := h
  obtain ⟨-, -, hregistered, htables⟩ := advanceTo_ok hbridge
  exact ⟨hregistered, htables, rfl, rfl⟩

/-- Only a registration follows a pointer to a module that is destroyed. -/
theorem step_destroyed {e : PopulationEvent Nic} :
    (∃ nic, step net p e = .error (.destroyed nic)) ↔
      (∃ value, e = .signal (.registerNic value)) ∧
        ∃ nic ∈ p.bridge.registeredNics, p.Deleted nic := by
  rcases e with (value | value) | time
  · simp only [step, receiveSignal, bind_eq_error, mapError_eq_error, pure_ne_error, reduceCtorEq,
      and_false, exists_false, or_false, PopulationEvent.signal.injEq, NicSignal.registerNic.injEq,
      exists_eq', true_and]
    constructor
    · rintro ⟨nic, h⟩
      obtain ⟨nic', hnic', hderef⟩ := exists_of_mapM_error h
      exact ⟨nic', hnic', (dereference_eq_error.mp hderef).1⟩
    · rintro ⟨nic, hnic, hdeleted⟩
      cases hmodules : p.bridge.registeredNics.mapM p.dereference with
      | error e =>
        obtain ⟨nic', -, hderef⟩ := exists_of_mapM_error hmodules
        exact ⟨nic', by rw [(dereference_eq_error.mp hderef).2]⟩
      | ok nics =>
        obtain ⟨_, hderef⟩ := exists_mapM_ok.mp ⟨_, hmodules⟩ nic hnic
        exact absurd hdeleted (dereference_eq_ok.mp hderef).1
  · simp [step, receiveSignal, pure, Except.pure]
  · simp only [step, bind_eq_error, mapError_eq_error, pure_ne_error, reduceCtorEq, and_false,
      exists_false, or_false, false_and]

/-! ### Signals in order -/

/-- The event comes when it should: a network card registers before everything else and leaves once,
later. -/
def InOrder (p : Population Nic Car Host Mac Group) : PopulationEvent Nic → Prop
  | .signal (.registerNic value) => ¬ p.Registered value ∧ ¬ p.Deleted value
  | .signal (.deleteNic value) => p.Registered value ∧ ¬ p.Deleted value
  | .advance _ => True

theorem step_emitted {e : PopulationEvent Nic} (h : step net p e = .ok p') :
    p'.emitted = p.emitted ++ PopulationEvent.signals [e] := by
  rcases e with (value | value) | time
  · exact (step_registerNic h).2.2.1
  · cases h
    rfl
  · rw [(step_advance h).2.2.1]
    exact (List.append_nil _).symm

omit [LinearOrder Nic] [DecidableEq Host] [DecidableEq Mac] [DecidableEq Group] in
theorem position_of_prefix {before rest : List (NicSignal Nic)} {first second next : NicSignal Nic}
    (h : before ++ next :: rest <+: [first, second]) :
    before = [] ∧ next = first ∨ before = [first] ∧ next = second := by
  rcases before with _ | ⟨a, _ | ⟨b, before⟩⟩
  · exact .inl ⟨rfl, (List.cons_prefix_cons.mp h).1⟩
  · obtain ⟨hfirst, hrest⟩ := List.cons_prefix_cons.mp h
    exact .inr ⟨by rw [hfirst], (List.cons_prefix_cons.mp hrest).1⟩
  · simp [List.cons_prefix_cons] at h

omit [DecidableEq Host] [DecidableEq Mac] [DecidableEq Group] in
/-- The next signal of a network card comes in order. -/
theorem inOrder_of_emitted {staticRouting : Nat} {signals : List (NicSignal Nic)}
    {emitted : NicSignal Nic}
    (h : EmittedInOrder staticRouting (p.emitted ++ emitted :: signals)) :
    p.InOrder (.signal emitted) := by
  have hvalue := h emitted.value
  rw [TsnNic.emits_eq, List.filter_append, List.filter_cons_of_pos (by simp)] at hvalue
  have hmem : ∀ signal : NicSignal Nic, signal.value = emitted.value →
      (signal ∈ p.emitted ↔ signal ∈ p.emitted.filter (·.value = emitted.value)) := by
    intro signal hsignal
    simp [List.mem_filter, hsignal]
  have hregistered := hmem (.registerNic emitted.value) rfl
  have hdeleted := hmem (.deleteNic emitted.value) rfl
  rcases position_of_prefix hvalue with ⟨hnil, hnext⟩ | ⟨hfirst, hnext⟩
  · rw [hnil] at hregistered hdeleted
    rw [hnext]
    exact ⟨fun h => List.not_mem_nil (hregistered.mp h), fun h => List.not_mem_nil (hdeleted.mp h)⟩
  · rw [hfirst] at hregistered hdeleted
    rw [hnext]
    exact ⟨hregistered.mpr List.mem_cons_self, fun h => by simpa using hdeleted.mp h⟩

theorem allInOrder (staticRouting : Nat) : ∀ {events : List (PopulationEvent Nic)}
    {p : Population Nic Car Host Mac Group},
    EmittedInOrder staticRouting (p.emitted ++ PopulationEvent.signals events) →
    AllAttempts (step net) InOrder events p
  | [], _, _ => trivial
  | .signal emitted :: events, p, h => by
    refine ⟨inOrder_of_emitted h, fun p' hstep => allInOrder staticRouting ?_⟩
    rw [step_emitted hstep, List.append_assoc]
    exact h
  | .advance time :: events, p, h => by
    refine ⟨trivial, fun p' hstep => allInOrder staticRouting ?_⟩
    rw [step_emitted hstep, List.append_assoc]
    exact h

/-! ### What the tables remember -/

/-- The history decides what the set and the tables hold. -/
structure Recorded (net : Network Nic Car Host Mac Group) (p : Population Nic Car Host Mac Group) :
    Prop where
  registered : ∀ nic, nic ∈ p.bridge.registeredNics ↔ p.Registered nic
  deleted : ∀ nic, p.Deleted nic → p.Registered nic
  installed : ∀ host m, p.installed host m ↔ ∃ a b, p.Registered a ∧ p.Registered b ∧ a ≠ b ∧
    host ∈ net.bridges a ∧ m ∈ net.macs b ∧ net.interfaces a ≠ []
  entry : ∀ host m, p.installed host m → (p.bridge.tables host).forwardingTable (0, m) ≠ none

omit [LinearOrder Nic] [DecidableEq Host] [DecidableEq Mac] [DecidableEq Group] in
theorem recorded_start {s : BridgeState Nic Car Host Mac Group} (h : s.registeredNics = []) :
    Recorded net (start s) where
  registered nic := by simp [start, Registered, h]
  deleted nic hdeleted := absurd hdeleted List.not_mem_nil
  installed host m := by simp [start, Registered]
  entry host m h := h.elim

omit [LinearOrder Nic] [DecidableEq Host] [DecidableEq Mac] [DecidableEq Group] in
/-- A registration adds the pairs with the new network card. -/
theorem installed_register (h : Recorded net p) (hnew : value ∉ p.bridge.registeredNics)
    (hmem : ∀ nic, p'.Registered nic ↔ nic = value ∨ p.Registered nic)
    (hinstalled : ∀ host m, p'.installed host m ↔
      p.installed host m ∨ Installs net p.bridge value host m) (host : Host) (m : Mac) :
    p'.installed host m ↔ ∃ a b, p'.Registered a ∧ p'.Registered b ∧ a ≠ b ∧
      host ∈ net.bridges a ∧ m ∈ net.macs b ∧ net.interfaces a ≠ [] := by
  have hold : ∀ nic, p.Registered nic → nic ≠ value := by
    rintro nic hnic rfl
    exact hnew ((h.registered nic).mpr hnic)
  rw [hinstalled, h.installed, Installs]
  simp only [Pair, h.registered, hmem]
  constructor
  · rintro (⟨a, b, ha, hb, hne, hrest⟩ | ⟨-, a, b, (⟨ha, rfl⟩ | ⟨rfl, hb⟩), hrest⟩)
    · exact ⟨a, b, .inr ha, .inr hb, hne, hrest⟩
    · exact ⟨a, b, .inr ha, .inl rfl, hold a ha, hrest⟩
    · exact ⟨a, b, .inl rfl, .inr hb, (hold b hb).symm, hrest⟩
  · rintro ⟨a, b, (rfl | ha), (rfl | hb), hne, hrest⟩
    · exact absurd rfl hne
    · exact .inr ⟨fun hmem => hnew ((h.registered _).mpr hmem), a, b, .inr ⟨rfl, hb⟩, hrest⟩
    · exact .inr ⟨fun hmem => hnew ((h.registered _).mpr hmem), a, b, .inl ⟨ha, rfl⟩, hrest⟩
    · exact .inl ⟨a, b, ha, hb, hne, hrest⟩

theorem Recorded.register (h : Recorded net p) (hnew : ¬ p.Registered value)
    (hstep : step net p (.signal (.registerNic value)) = .ok p') : Recorded net p' := by
  obtain ⟨-, hregister, hemitted, hinstalled⟩ := step_registerNic hstep
  have hnew' : value ∉ p.bridge.registeredNics := fun hmem => hnew ((h.registered _).mp hmem)
  have hreg := registerNic_ok hnew' hregister
  have hmem : ∀ nic, p'.Registered nic ↔ nic = value ∨ p.Registered nic := by
    intro nic
    simp [Registered, hemitted, or_comm]
  have hall := installed_register h hnew' hmem hinstalled
  refine ⟨fun nic => ?_, fun nic hdeleted => ?_, hall, fun host m hinst => ?_⟩
  · rw [hreg.mem, hmem, h.registered]
  · have hdeleted' : p.Deleted nic := by simpa [Deleted, hemitted] using hdeleted
    exact (hmem nic).mpr (.inr (h.deleted nic hdeleted'))
  · by_cases hwrites : Writes net p.bridge value host m
    · obtain ⟨a, b, hpair, hhost, hm⟩ := hwrites
      obtain ⟨a', _, _, _, _, hhost', _, hne⟩ := (hall host m).mp hinst
      obtain rfl := bridges_unique hhost hhost'
      rw [hreg.written a b host m _ hpair hhost hm (List.getLast?_eq_some_getLast hne)]
      exact Option.some_ne_none _
    · rw [hreg.frame host 0 m fun hw => hwrites hw.2]
      refine h.entry host m (((hinstalled host m).mp hinst).resolve_right ?_)
      rintro ⟨-, a, b, hpair, hhost, hm, -⟩
      exact hwrites ⟨a, b, hpair, hhost, hm⟩

theorem Recorded.delete (h : Recorded net p) (hregistered : p.Registered value)
    (hstep : step net p (.signal (.deleteNic value)) = .ok p') : Recorded net p' := by
  cases hstep
  have hmem : ∀ nic, .registerNic nic ∈ p.emitted ++ [NicSignal.deleteNic value] ↔
      p.Registered nic := by
    intro nic
    simp [Registered]
  refine ⟨fun nic => (h.registered nic).trans (hmem nic).symm, fun nic hdeleted => ?_, ?_, h.entry⟩
  · refine (hmem nic).mpr ?_
    rcases List.mem_append.mp hdeleted with hold | hlast
    · exact h.deleted nic hold
    · cases List.mem_singleton.mp hlast
      exact hregistered
  · intro host m
    simp only [Registered, hmem]
    exact h.installed host m

theorem Recorded.advance {time : Int} (h : Recorded net p)
    (hstep : step net p (.advance time) = .ok p') : Recorded net p' := by
  obtain ⟨hregistered, htables, hemitted, hinstalled⟩ := step_advance hstep
  refine ⟨?_, ?_, ?_, ?_⟩
  · simpa only [Registered, hregistered, hemitted] using h.registered
  · simpa only [Registered, Deleted, hemitted] using h.deleted
  · simpa only [Registered, hemitted, hinstalled] using h.installed
  · simpa only [htables, hinstalled] using h.entry

theorem Recorded.step {e : PopulationEvent Nic} (h : Recorded net p) (he : p.InOrder e)
    (hstep : Population.step net p e = .ok p') : Recorded net p' := by
  rcases e with (value | value) | time
  · exact h.register he.1 hstep
  · exact h.delete he.1 hstep
  · exact h.advance hstep

/-! ## Bookkeeping -/

/-- The set holds the network cards that have registered and have not left. -/
def RegisteredExact (p : Population Nic Car Host Mac Group) : Prop :=
  ∀ nic, nic ∈ p.bridge.registeredNics ↔ p.Registered nic ∧ ¬ p.Deleted nic

/-- What registrations have installed for a network card that has left is in no table of a car that
is still there. -/
def TablesClean (net : Network Nic Car Host Mac Group) (p : Population Nic Car Host Mac Group) :
    Prop :=
  ∀ a b host m, ¬ p.Deleted a → p.Deleted b → host ∈ net.bridges a → m ∈ net.macs b →
    p.installed host m → (p.bridge.tables host).forwardingTable (0, m) = none

/-- The bookkeeping of a run: the set and the tables are right after every step, and no pointer to a
destroyed module is followed. -/
structure Bookkeeping (net : Network Nic Car Host Mac Group) (events : List (PopulationEvent Nic))
    (p : Population Nic Car Host Mac Group) : Prop where
  registered : AllSteps (step net) (fun _ _ p' => p'.RegisteredExact) events p
  memory : ∀ nic, run (step net) events p ≠ .error (.destroyed nic)
  tables : AllSteps (step net) (fun _ _ p' => p'.TablesClean net) events p

/-- Nobody leaves. -/
def Stays (_p : Population Nic Car Host Mac Group) (e : PopulationEvent Nic) : Prop :=
  ∀ value, e ≠ .signal (.deleteNic value)

/-- Nobody registers after somebody has left. -/
def RegistersFirst (p : Population Nic Car Host Mac Group) (e : PopulationEvent Nic) : Prop :=
  ∀ value, e = .signal (.registerNic value) → ∀ nic, ¬ p.Deleted nic

/-- The network card that leaves has no address, or no other car with bridges is there. -/
def LeavesNothing (net : Network Nic Car Host Mac Group) (p : Population Nic Car Host Mac Group)
    (e : PopulationEvent Nic) : Prop :=
  ∀ value, e = .signal (.deleteNic value) → ∀ a, p.Registered a → a ≠ value → ¬ p.Deleted a →
    net.bridges a = [] ∨ net.interfaces a = [] ∨ net.macs value = []

omit [LinearOrder Nic] [DecidableEq Host] [DecidableEq Mac] [DecidableEq Group] in
/-- Every pair of a car that is there and a network card that has left has left an entry. -/
theorem tablesClean_iff_pairs (h : Recorded net p) : p.TablesClean net ↔
    ∀ a b, p.Registered a → ¬ p.Deleted a → p.Deleted b →
      net.bridges a = [] ∨ net.interfaces a = [] ∨ net.macs b = [] := by
  constructor
  · intro hclean a b ha hlive hdeleted
    by_contra hnot
    simp only [not_or, ← ne_eq] at hnot
    obtain ⟨hbridges, hinterfaces, hmacs⟩ := hnot
    obtain ⟨host, hhost⟩ := List.exists_mem_of_ne_nil _ hbridges
    obtain ⟨m, hm⟩ := List.exists_mem_of_ne_nil _ hmacs
    have hne : a ≠ b := fun heq => hlive (heq ▸ hdeleted)
    have hinstalled : p.installed host m :=
      (h.installed host m).mpr ⟨a, b, ha, h.deleted b hdeleted, hne, hhost, hm, hinterfaces⟩
    exact h.entry host m hinstalled (hclean a b host m hlive hdeleted hhost hm hinstalled)
  · intro hpairs a b host m hlive hdeleted hhost hm hinstalled
    obtain ⟨a', _, ha', _, _, hhost', _, hinterfaces⟩ := (h.installed host m).mp hinstalled
    obtain rfl := bridges_unique hhost hhost'
    rcases hpairs a b ha' hlive hdeleted with hnil | hnil | hnil
    · exact absurd hhost (by simp [hnil])
    · exact absurd hnil hinterfaces
    · exact absurd hm (by simp [hnil])

/-! ### One step -/

/-- After a registration nobody has left. -/
theorem not_deleted_of_registerNic (h : Recorded net p)
    (hstep : step net p (.signal (.registerNic value)) = .ok p') (nic : Nic) : ¬ p'.Deleted nic := by
  obtain ⟨hmodules, -, hemitted, -⟩ := step_registerNic hstep
  intro hdeleted
  have hold : p.Deleted nic := by simpa [Deleted, hemitted] using hdeleted
  exact hmodules nic ((h.registered nic).mpr (h.deleted nic hold)) hold

theorem registeredExact_step_iff {e : PopulationEvent Nic} (h : Recorded net p)
    (hnone : ∀ nic, ¬ p.Deleted nic) (he : p.InOrder e) :
    (∀ p', step net p e = .ok p' → p'.RegisteredExact) ↔ p.Stays e := by
  have hexact : ∀ p' : Population Nic Car Host Mac Group, step net p e = .ok p' →
      (∀ nic, ¬ p'.Deleted nic) → p'.RegisteredExact := fun p' hstep hnone' nic =>
    ((h.step he hstep).registered nic).trans (and_iff_left (hnone' nic)).symm
  rcases e with (value | value) | time
  · exact ⟨fun _ _ => by simp, fun _ p' hstep =>
      hexact p' hstep (not_deleted_of_registerNic h hstep)⟩
  · refine ⟨fun hall => ?_, fun hstays => absurd rfl (hstays value)⟩
    have hmem := (h.registered value).mpr he.1
    exact absurd (by simp [Deleted]) ((hall _ rfl value).mp hmem).2
  · refine ⟨fun _ _ => by simp, fun _ p' hstep => hexact p' hstep ?_⟩
    simpa only [Deleted, (step_advance hstep).2.2.1] using hnone

theorem tablesClean_step_iff {e : PopulationEvent Nic} (h : Recorded net p)
    (hclean : p.TablesClean net) (he : p.InOrder e) :
    (∀ p', step net p e = .ok p' → p'.TablesClean net) ↔ p.LeavesNothing net e := by
  rcases e with (value | value) | time
  · refine ⟨fun _ _ => by simp, fun _ p' hstep a b _ _ _ hdeleted => ?_⟩
    exact absurd hdeleted (not_deleted_of_registerNic h hstep b)
  · have hall := (tablesClean_iff_pairs h).mp hclean
    have hnext : step net p (.signal (.deleteNic value)) =
        .ok ⟨p.bridge, p.emitted ++ [.deleteNic value], p.installed⟩ := rfl
    simp only [hnext, Except.ok.injEq, forall_eq', LeavesNothing, PopulationEvent.signal.injEq,
      NicSignal.deleteNic.injEq]
    rw [tablesClean_iff_pairs (h.step he hnext)]
    simp only [Registered, Deleted, List.mem_append, List.mem_singleton, reduceCtorEq, or_false,
      NicSignal.deleteNic.injEq] at hall ⊢
    constructor
    · intro hpairs a ha hne hlive
      exact hpairs a value ha (fun hor => hor.elim hlive hne) (.inr rfl)
    · rintro hleaves a b ha hlive (hdeleted | rfl)
      · exact hall a b ha (fun hdel => hlive (.inl hdel)) hdeleted
      · exact hleaves a ha (fun heq => hlive (.inr heq)) fun hdel => hlive (.inl hdel)
  · refine ⟨fun _ _ => by simp, fun _ p' hstep => ?_⟩
    obtain ⟨-, htables, hemitted, hinstalled⟩ := step_advance hstep
    simpa only [TablesClean, Deleted, htables, hemitted, hinstalled] using hclean

theorem memorySafe_step_iff {e : PopulationEvent Nic} (h : Recorded net p) :
    (∀ nic, step net p e ≠ .error (.destroyed nic)) ↔ p.RegistersFirst e := by
  rw [← not_exists, step_destroyed]
  constructor
  · intro hnot value he nic hdeleted
    exact hnot ⟨⟨value, he⟩, nic, (h.registered nic).mpr (h.deleted nic hdeleted), hdeleted⟩
  · rintro hfirst ⟨⟨value, he⟩, nic, -, hdeleted⟩
    exact hfirst value he nic hdeleted

theorem not_deleted_of_stays {e : PopulationEvent Nic} (hnone : ∀ nic, ¬ p.Deleted nic)
    (he : p.Stays e) (hstep : step net p e = .ok p') (nic : Nic) : ¬ p'.Deleted nic := by
  rw [Deleted, step_emitted hstep, List.mem_append, not_or]
  refine ⟨hnone nic, ?_⟩
  rcases e with (value | value) | time
  · simp [PopulationEvent.signals]
  · exact absurd rfl (he value)
  · simp [PopulationEvent.signals]

/-! ### All runs -/

section

variable {s : BridgeState Nic Car Host Mac Group} {staticRouting : Nat}
  {events : List (PopulationEvent Nic)}

/-- The set is right iff nobody leaves. -/
theorem registeredExact_iff (hstart : s.registeredNics = [])
    (hemitted : EmittedInOrder staticRouting (PopulationEvent.signals events)) :
    AllSteps (step net) (fun _ _ p' => p'.RegisteredExact) events (start s) ↔
      AllAttempts (step net) Stays events (start s) := by
  rw [allSteps_iff_allAttempts]
  refine allAttempts_iff (I := fun p => Recorded net p ∧ ∀ nic, ¬ p.Deleted nic)
    (allInOrder staticRouting hemitted) ?_ ?_ ⟨recorded_start hstart, fun _ => List.not_mem_nil⟩
  · intro p e hI he
    exact registeredExact_step_iff hI.1 hI.2 he
  · intro p e p' hI he hexact hstep
    have hstays := (registeredExact_step_iff hI.1 hI.2 he).mp hexact
    exact ⟨hI.1.step he hstep, not_deleted_of_stays hI.2 hstays hstep⟩

/-- No pointer to a destroyed module is followed iff nobody registers after somebody has left. -/
theorem memorySafe_iff (hstart : s.registeredNics = [])
    (hemitted : EmittedInOrder staticRouting (PopulationEvent.signals events)) :
    (∀ nic, run (step net) events (start s) ≠ .error (.destroyed nic)) ↔
      AllAttempts (step net) RegistersFirst events (start s) := by
  simp only [run_ne_error_iff]
  rw [← allAttempts_forall]
  refine allAttempts_iff (I := Recorded net) (allInOrder staticRouting hemitted) ?_ ?_
    (recorded_start hstart)
  · intro p e hI _
    exact memorySafe_step_iff hI
  · intro p e p' hI he _ hstep
    exact hI.step he hstep

/-- The tables are right iff nobody leaves an address at a bridge of another car. -/
theorem tablesClean_iff (hstart : s.registeredNics = [])
    (hemitted : EmittedInOrder staticRouting (PopulationEvent.signals events)) :
    AllSteps (step net) (fun _ _ p' => p'.TablesClean net) events (start s) ↔
      AllAttempts (step net) (LeavesNothing net) events (start s) := by
  rw [allSteps_iff_allAttempts]
  refine allAttempts_iff (I := fun p => Recorded net p ∧ p.TablesClean net)
    (allInOrder staticRouting hemitted) ?_ ?_ ⟨recorded_start hstart, ?_⟩
  · intro p e hI he
    exact tablesClean_step_iff hI.1 hI.2 he
  · intro p e p' hI he hclean hstep
    exact ⟨hI.1.step he hstep, hclean p' hstep⟩
  · intro a b host m _ hdeleted
    exact absurd hdeleted List.not_mem_nil

/--
**The bookkeeping of a run is right iff nobody leaves.** `deleteNic` does nothing, so the first
network card that leaves stays in the set.
-/
theorem bookkeeping_iff (hstart : s.registeredNics = [])
    (hemitted : EmittedInOrder staticRouting (PopulationEvent.signals events)) :
    Bookkeeping net events (start s) ↔ AllAttempts (step net) Stays events (start s) := by
  constructor
  · intro h
    exact (registeredExact_iff hstart hemitted).mp h.registered
  · intro h
    have hboth : AllAttempts (step net) (fun p e => p.RegistersFirst e ∧ p.LeavesNothing net e) events
        (start s) := by
      refine allAttempts_mono (I := fun p => ∀ nic, ¬ p.Deleted nic) ?_ ?_
        (fun _ => List.not_mem_nil) h
      · intro p e hnone hstays
        exact ⟨fun _ _ => hnone, fun value he => absurd he (hstays value)⟩
      · intro p e p' hnone hstays hstep
        exact not_deleted_of_stays hnone hstays hstep
    obtain ⟨hfirst, hleaves⟩ := allAttempts_and.mp hboth
    exact ⟨(registeredExact_iff hstart hemitted).mpr h, (memorySafe_iff hstart hemitted).mpr hfirst,
      (tablesClean_iff hstart hemitted).mpr hleaves⟩

end

end

theorem bookkeeping_right_of_two_cars :
    Bookkeeping twoCars [.signal (.registerNic 0), .advance 5, .signal (.registerNic 1)]
      (start twoCarsStart) := by
  have hemitted : EmittedInOrder 0 (PopulationEvent.signals
      [.signal (.registerNic (0 : Fin 2)), .advance 5, .signal (.registerNic 1)]) := by
    unfold EmittedInOrder
    decide
  refine (bookkeeping_iff rfl hemitted).mpr ⟨?_, fun _ _ => ⟨?_, fun _ _ => ⟨?_, ?_⟩⟩⟩
  · exact fun value => by simp
  · exact fun value => by simp
  · exact fun value => by simp
  · exact fun _ _ => trivial

/-- The first car leaves before the second one registers. -/
theorem registration_follows_destroyed_nic :
    EmittedInOrder 0 (PopulationEvent.signals
        [.signal (.registerNic (0 : Fin 2)), .signal (.deleteNic 0), .signal (.registerNic 1)]) ∧
      run (step twoCars) [.signal (.registerNic 0), .signal (.deleteNic 0), .signal (.registerNic 1)]
        (start twoCarsStart) = .error (.destroyed 0) ∧
      ¬ Bookkeeping twoCars
        [.signal (.registerNic 0), .signal (.deleteNic 0), .signal (.registerNic 1)]
        (start twoCarsStart) := by
  have hrun : run (step twoCars)
      [.signal (.registerNic 0), .signal (.deleteNic 0), .signal (.registerNic 1)]
      (start twoCarsStart) = .error (.destroyed 0) := by
    rfl
  refine ⟨?_, hrun, fun h => h.memory 0 hrun⟩
  unfold EmittedInOrder
  decide

end Population

end CooperativeTsn
