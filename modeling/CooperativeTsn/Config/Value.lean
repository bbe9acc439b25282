import CooperativeTsn.Infra.Runs
import Mathlib.Data.List.Induction
import Mathlib.Data.Rat.Init

/-!
# Configuration values

`cValue`, `cValueMap` and `cValueArray`, with the errors of reading them. A map is the list of its
fields in iteration order.
-/

namespace CooperativeTsn

open Infra.Runs

/-- Why a simulation stops. -/
inductive SimError where
  /-- a key that the map does not have -/
  | noSuchKey (key : String)
  /-- a value or an object of another type -/
  | typeMismatch
  | unitMismatch (unit : String)
  /-- `ASSERT2` -/
  | assertion (text : String)
  /-- `cRuntimeError` -/
  | runtimeError (text : String)
  | nullPointer
  /-- `std::out_of_range` -/
  | outOfRange
deriving DecidableEq, Repr

inductive Value where
  | bool (b : Bool)
  | int (value : Int) (unit : String)
  | double (value : Rat) (unit : String)
  | string (value : String)
  | array (values : List Value)
  | map (fields : List (String × Value))
deriving Repr

/-- `cValueMap` -/
abbrev ValueMap := List (String × Value)

/-- What the simulation kernel does with values: unit conversion and printing. -/
structure ValueOps where
  convertUnit : Rat → String → String → Option Rat
  str : Value → String
  /-- the number that the text of a double denotes: six significant digits -/
  printedDouble : Rat → Rat
  /-- `SimTime::str` -/
  simTimeStr : Int → String
  convertUnit_self : ∀ x unit, convertUnit x unit unit = some x
  convertUnit_ms : ∀ x, convertUnit x "ms" "s" = some (x / 1000)
  convertUnit_s : ∀ x, convertUnit x "s" "ms" = some (1000 * x)
  convertUnit_bytes : ∀ x, convertUnit x "B" "b" = some (8 * x)

/-- `SimTime::str`: seconds, without zeros at the end. -/
def simTimeText (time : Int) : String :=
  let digits := (Nat.toDigits 10 (1000000000000 + time.natAbs % 1000000000000)).tail
  let fraction := (digits.reverse.dropWhile (· = '0')).reverse
  (if time < 0 then "-" else "") ++ toString (time.natAbs / 1000000000000) ++
    (if fraction = [] then "" else "." ++ String.ofList fraction)

example : simTimeText 19500000000 = "0.0195" := by decide +kernel

/-- The units of the configuration lines and nothing else. Scalars print as the simulation kernel
prints them, but for doubles and escapes. -/
def basicOps : ValueOps where
  convertUnit x unit target :=
    if unit = target then some x
    else if unit = "ms" ∧ target = "s" then some (x / 1000)
    else if unit = "s" ∧ target = "ms" then some (1000 * x)
    else if unit = "B" ∧ target = "b" then some (8 * x)
    else none
  str
    | .bool b => toString b
    | .int value unit => toString value ++ unit
    | .string value => "\"" ++ value ++ "\""
    | _ => ""
  printedDouble x := x
  simTimeStr := simTimeText
  convertUnit_self x unit := if_pos rfl
  convertUnit_ms x := by simp
  convertUnit_s x := by simp
  convertUnit_bytes x := by simp

/-- A number of bits from floating point. -/
def truncateBits (x : Rat) : Int := x.num.tdiv x.den

namespace Value

def intValue : Value → Except SimError Int
  | int value _ => .ok value
  | _ => .error .typeMismatch

def stringValue : Value → Except SimError String
  | string value => .ok value
  | _ => .error .typeMismatch

/-- `doubleValue` -/
def doubleValue : Value → Except SimError Rat
  | int value _ => .ok value
  | double value _ => .ok value
  | _ => .error .typeMismatch

def doubleValueInUnit (ops : ValueOps) (target : String) : Value → Except SimError Rat
  | int value unit => require (.unitMismatch unit) (ops.convertUnit value unit target)
  | double value unit => require (.unitMismatch unit) (ops.convertUnit value unit target)
  | _ => .error .typeMismatch

/-- `check_and_cast<cValueArray *>(objectValue())` -/
def arrayValue : Value → Except SimError (List Value)
  | array values => .ok values
  | _ => .error .typeMismatch

/-- `check_and_cast<cValueMap *>(objectValue())` -/
def mapValue : Value → Except SimError ValueMap
  | map fields => .ok fields
  | _ => .error .typeMismatch

theorem stringValue_eq_ok {value : Value} {text : String} :
    value.stringValue = .ok text ↔ value = string text := by
  cases value <;> simp [stringValue]

theorem arrayValue_eq_ok {value : Value} {values : List Value} :
    value.arrayValue = .ok values ↔ value = array values := by
  cases value <;> simp [arrayValue]

theorem mapValue_eq_ok {value : Value} {fields : ValueMap} :
    value.mapValue = .ok fields ↔ value = map fields := by
  cases value <;> simp [mapValue]

end Value

namespace ValueMap

/-- `cValueMap::get` -/
def get (fields : ValueMap) (key : String) : Except SimError Value :=
  require (.noSuchKey key) (fields.lookup key)

def containsKey (fields : ValueMap) (key : String) : Bool := (fields.lookup key).isSome

def getInt (fields : ValueMap) (key : String) : Except SimError Int := do
  (← get fields key).intValue

def getString (fields : ValueMap) (key : String) : Except SimError String := do
  (← get fields key).stringValue

def getInUnit (ops : ValueOps) (fields : ValueMap) (key unit : String) : Except SimError Rat := do
  (← get fields key).doubleValueInUnit ops unit

section

variable {fields : ValueMap} {key : String}

theorem getInt_of_lookup {value : Int} {unit : String}
    (h : fields.lookup key = some (.int value unit)) : fields.getInt key = .ok value := by
  rw [getInt, get, h]
  rfl

theorem getString_eq_ok {value : String} :
    fields.getString key = .ok value ↔ fields.lookup key = some (.string value) := by
  rw [getString, get]
  cases fields.lookup key with
  | none => simp [require, bind, Except.bind]
  | some v => simp [require, bind, Except.bind, Value.stringValue_eq_ok]

theorem getString_of_lookup {value : String} (h : fields.lookup key = some (.string value)) :
    fields.getString key = .ok value := getString_eq_ok.mpr h

theorem getInUnit_of_lookup {ops : ValueOps} {value : Value} {unit : String}
    (h : fields.lookup key = some value) :
    fields.getInUnit ops key unit = value.doubleValueInUnit ops unit := by
  rw [getInUnit, get, h]
  rfl

end

/-- The value of a field that may be missing. -/
def getOptional {α : Type} (fields : ValueMap) (key : String) (default : α)
    (read : Value → Except SimError α) : Except SimError α :=
  match fields.lookup key with
  | none => .ok default
  | some value => read value

/-- `cValueMap::set`: the keys stay in order. -/
def set (fields : ValueMap) (key : String) (value : Value) : ValueMap :=
  match fields with
  | [] => [(key, value)]
  | (k, v) :: rest =>
    if k = key then (key, value) :: rest
    else if key < k then (key, value) :: (k, v) :: rest
    else (k, v) :: set rest key value

/-- A map that is filled field by field. -/
def record (fields : List (String × Value)) : ValueMap :=
  fields.foldl (fun map field => map.set field.1 field.2) []

theorem lookup_set (key : String) (value : Value) (k : String) : ∀ (fields : ValueMap),
    (fields.set key value).lookup k = if k = key then some value else fields.lookup k
  | [] => by
    by_cases h : k = key
    · simp [set, h]
    · simp [set, h, List.lookup_cons, beq_eq_false_iff_ne.mpr h]
  | (k', v) :: rest => by
    by_cases h' : k' = key
    · subst h'
      by_cases h : k = k'
      · simp [set, h]
      · simp [set, h, List.lookup_cons, beq_eq_false_iff_ne.mpr h]
    · by_cases hlt : key < k'
      · by_cases h : k = key
        · simp [set, h', hlt, h]
        · simp [set, h', hlt, h, List.lookup_cons, beq_eq_false_iff_ne.mpr h]
      · rw [set, if_neg h', if_neg hlt, List.lookup_cons, List.lookup_cons,
          lookup_set key value k rest]
        by_cases hk : k = k'
        · subst hk
          simp [h']
        · rw [beq_eq_false_iff_ne.mpr hk]

theorem mem_set {key : String} {value : Value} {field : String × Value} : ∀ {fields : ValueMap},
    field ∈ fields.set key value → field = (key, value) ∨ field ∈ fields
  | [], h => .inl (List.mem_singleton.mp h)
  | (k, v) :: rest, h => by
    rw [set] at h
    split at h
    · exact (List.mem_cons.mp h).imp id (List.mem_cons_of_mem _)
    · split at h
      · exact List.mem_cons.mp h
      · rcases List.mem_cons.mp h with rfl | h
        · exact .inr List.mem_cons_self
        · exact (mem_set h).imp id (List.mem_cons_of_mem _)

/-- The fields of a map have been set. -/
theorem mem_record {fields : List (String × Value)} {field : String × Value}
    (h : field ∈ record fields) : field ∈ fields := by
  induction fields using List.reverseRecOn with
  | nil => exact h
  | append_singleton fields last ih =>
    rw [record, List.foldl_append, List.foldl_cons, List.foldl_nil] at h
    rcases mem_set h with rfl | h
    · exact List.mem_append_right _ List.mem_cons_self
    · exact List.mem_append_left _ (ih h)

/-- The last value that was set for a key is the one that counts. -/
theorem lookup_record (fields : List (String × Value)) (k : String) :
    (record fields).lookup k = fields.reverse.lookup k := by
  induction fields using List.reverseRecOn with
  | nil => rfl
  | append_singleton fields field ih =>
    rw [record, List.foldl_append, List.foldl_cons, List.foldl_nil, lookup_set,
      List.reverse_append, List.reverse_singleton, List.singleton_append, List.lookup_cons]
    by_cases h : k = field.1
    · rw [if_pos h, beq_iff_eq.mpr h]
    · rw [if_neg h, beq_eq_false_iff_ne.mpr h]
      exact ih

end ValueMap

end CooperativeTsn
