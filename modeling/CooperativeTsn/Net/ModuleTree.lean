import CooperativeTsn.Config.Value
import Mathlib.Algebra.GroupWithZero.Nat
import Mathlib.Data.List.Infix
import Mathlib.Data.Fintype.Basic

/-!
# The module tree

Modules, their names and paths, as the simulation kernel documents them.

* `ModuleTree.child_ext` — the children of a module differ in their full names
* `ModuleTable.tree` — a finite network, given by a table
-/

namespace CooperativeTsn

/-- A name, with its index in brackets if it has one. -/
def indexedName (name : String) : Option Nat → String
  | none => name
  | some i => name ++ "[" ++ toString i ++ "]"

/-- The characters that end a module path in an address. -/
def addressSeparators : List Char := ['%', '>', '(', '/']

structure ModuleTree (Module : Type) where
  getName : Module → String
  /-- `getIndex`; a module without it is not in a vector -/
  getIndex : Module → Option Nat
  getParentModule : Module → Option Module
  getFullPath : Module → String
  /-- the simulation's; the path is absolute -/
  findModuleByPath : String → Option Module
  getModuleByPath : Module → String → Option Module
  /-- the index of a module that is not in a vector is -1 -/
  getSubmodule : Module → String → Int → Option Module
  fullPath_root : ∀ {m}, getParentModule m = none →
    getFullPath m = indexedName (getName m) (getIndex m)
  fullPath_child : ∀ {m p}, getParentModule m = some p →
    getFullPath m = getFullPath p ++ "." ++ indexedName (getName m) (getIndex m)
  /-- a path that begins with the full path of a module is absolute -/
  getModuleByPath_absolute : ∀ start p text,
    getModuleByPath start (getFullPath p ++ "." ++ text) =
      findModuleByPath (getFullPath p ++ "." ++ text)
  findModuleByPath_child : ∀ p m,
    findModuleByPath (getFullPath p ++ "." ++ indexedName (getName m) (getIndex m)) = some m ↔
      getParentModule m = some p
  getModuleByPath_child : ∀ p m,
    getModuleByPath p ("." ++ indexedName (getName m) (getIndex m)) = some m ↔
      getParentModule m = some p
  /-- no path to a module has one of these characters -/
  findModuleByPath_chars : ∀ {path m}, findModuleByPath path = some m →
    ∀ c ∈ path.toList, c ∉ addressSeparators
  getSubmodule_eq_some : ∀ {p name i m}, getSubmodule p name i = some m ↔
    getParentModule m = some p ∧ getName m = name ∧ (getIndex m).elim (-1) Nat.cast = i
  getName_chars : ∀ m, ∀ c ∈ (getName m).toList, c.isAlphanum ∨ c = '_'

namespace ModuleTree

variable {Module : Type} (tree : ModuleTree Module)

def getFullName (m : Module) : String := indexedName (tree.getName m) (tree.getIndex m)

def isVector (m : Module) : Bool := (tree.getIndex m).isSome

/-- The children of a module differ in their full names. -/
theorem child_ext {p m m' : Module} (h : tree.getParentModule m = some p)
    (h' : tree.getParentModule m' = some p) (hname : tree.getFullName m = tree.getFullName m') :
    m = m' := by
  have h1 := (tree.findModuleByPath_child p m).mpr h
  have h2 := (tree.findModuleByPath_child p m').mpr h'
  rw [getFullName, getFullName] at hname
  rw [hname, h2, Option.some.injEq] at h1
  exact h1.symm

theorem getFullName_chars (m : Module) : ∀ c ∈ (tree.getFullName m).toList,
    c.isAlphanum ∨ c ∈ ['_', '[', ']'] := by
  intro c hc
  rw [getFullName] at hc
  cases hindex : tree.getIndex m with
  | none =>
    rw [hindex, indexedName] at hc
    rcases tree.getName_chars m c hc with h | rfl
    · exact Or.inl h
    · simp
  | some i =>
    simp only [hindex, indexedName, String.toList_append, List.mem_append, Nat.toString_eq_ofList_toDigits,
      String.toList_ofList] at hc
    rcases hc with ((hc | hc) | hc) | hc
    · rcases tree.getName_chars m c hc with h | rfl
      · exact Or.inl h
      · simp
    · exact Or.inr (by simpa using Or.inr (Or.inl (by simpa using hc)))
    · have := Nat.isDigit_of_mem_toDigits (by decide) (by decide) hc
      exact Or.inl (by simp [Char.isAlphanum, this])
    · exact Or.inr (by simpa using Or.inr (Or.inr (by simpa using hc)))

theorem getName_isPrefix (m : Module) :
    (tree.getName m).toList <+: (tree.getFullName m).toList := by
  rw [getFullName]
  cases tree.getIndex m with
  | none => exact List.prefix_rfl
  | some i =>
    rw [indexedName, String.append_assoc, String.append_assoc, String.toList_append]
    exact List.prefix_append _ _

/-- The path of a module contains its name. -/
theorem getName_isInfix (m : Module) : (tree.getName m).toList <:+: (tree.getFullPath m).toList := by
  refine (tree.getName_isPrefix m).isInfix.trans ?_
  cases hp : tree.getParentModule m with
  | none =>
    rw [tree.fullPath_root hp]
    exact List.infix_rfl
  | some p =>
    rw [tree.fullPath_child hp, String.toList_append]
    exact (List.suffix_append _ _).isInfix

/-- A full name does not end a module path in an address. -/
theorem getFullName_not_separator (m : Module) : ∀ c ∈ (tree.getFullName m).toList,
    c ∉ addressSeparators := by
  intro c hc hsep
  simp only [addressSeparators, List.mem_cons, List.not_mem_nil, or_false] at hsep
  have := tree.getFullName_chars m c hc
  rcases hsep with rfl | rfl | rfl | rfl <;> simp [Char.isAlphanum] at this

/-- Nor does a path to a module that has a child. -/
theorem getFullPath_not_separator {m p : Module} (h : tree.getParentModule m = some p) :
    ∀ c ∈ (tree.getFullPath p).toList, c ∉ addressSeparators := by
  intro c hc
  refine tree.findModuleByPath_chars ((tree.findModuleByPath_child p m).mpr h) c ?_
  simp only [String.toList_append, List.mem_append]
  exact Or.inl (Or.inl hc)

end ModuleTree

/-! ## Finite networks -/

structure ModuleRow (n : Nat) where
  name : String
  index : Option Nat
  parent : Option (Fin n)
  fullPath : String

/-- The row that has the full path. -/
def findPath {n : Nat} (row : Fin n → ModuleRow n) (path : String) : Option (Fin n) :=
  (List.finRange n).find? fun m => (row m).fullPath = path

/-- The modules of a network, one row each. -/
structure ModuleTable (n : Nat) where
  row : Fin n → ModuleRow n
  fullPath_root : ∀ m, (row m).parent = none →
    (row m).fullPath = indexedName (row m).name (row m).index
  fullPath_child : ∀ m p, (row m).parent = some p →
    (row m).fullPath = (row p).fullPath ++ "." ++ indexedName (row m).name (row m).index
  parent_of_fullPath : ∀ m p,
    (row m).fullPath = (row p).fullPath ++ "." ++ indexedName (row m).name (row m).index →
      (row m).parent = some p
  fullPath_injective : ∀ m m', (row m).fullPath = (row m').fullPath → m = m'
  fullPath_head : ∀ m, ∃ c, (row m).fullPath.toList.head? = some c ∧ c ≠ '.'
  fullPath_chars : ∀ m, ∀ c ∈ (row m).fullPath.toList, c ∉ addressSeparators
  name_chars : ∀ m, ∀ c ∈ (row m).name.toList, c.isAlphanum ∨ c = '_'

namespace ModuleTable

variable {n : Nat} (table : ModuleTable n)

/-- A path that begins with a dot is relative. -/
def getModuleByPath (start : Fin n) (path : String) : Option (Fin n) :=
  if path.toList.head? = some '.' then findPath table.row ((table.row start).fullPath ++ path)
  else findPath table.row path

def IsSubmodule (p : Fin n) (name : String) (i : Int) (m : Fin n) : Prop :=
  (table.row m).parent = some p ∧ (table.row m).name = name ∧
    (table.row m).index.elim (-1) Nat.cast = i

instance (p : Fin n) (name : String) (i : Int) (m : Fin n) :
    Decidable (table.IsSubmodule p name i m) := inferInstanceAs (Decidable (_ ∧ _))

theorem findPath_eq_some {path : String} {m : Fin n} :
    findPath table.row path = some m ↔ (table.row m).fullPath = path := by
  constructor
  · intro h
    simpa using List.find?_some h
  · rintro rfl
    obtain ⟨m', hm'⟩ : ∃ m', findPath table.row (table.row m).fullPath = some m' := by
      rw [findPath, ← Option.isSome_iff_exists, List.find?_isSome]
      exact ⟨m, List.mem_finRange m, by simp⟩
    have h' : (table.row m').fullPath = (table.row m).fullPath := by
      simpa using List.find?_some hm'
    rw [hm', table.fullPath_injective m' m h']

theorem findPath_child (p m : Fin n) :
    findPath table.row ((table.row p).fullPath ++ "." ++
      indexedName (table.row m).name (table.row m).index) = some m ↔
        (table.row m).parent = some p := by
  rw [findPath_eq_some]
  exact ⟨table.parent_of_fullPath m p, table.fullPath_child m p⟩

/-- The children of a module differ in their names or in their indices. -/
theorem sibling {p m m' : Fin n} (h : (table.row m).parent = some p)
    (h' : (table.row m').parent = some p) (hname : (table.row m).name = (table.row m').name)
    (hindex : (table.row m).index = (table.row m').index) : m = m' := by
  refine table.fullPath_injective m m' ?_
  rw [table.fullPath_child m p h, table.fullPath_child m' p h', hname, hindex]

theorem index_ext {i j : Option Nat} (h : i.elim (-1 : Int) Nat.cast = j.elim (-1) Nat.cast) :
    i = j := by
  cases i <;> cases j <;> simp only [Option.elim] at h ⊢ <;> grind

theorem find_submodule {p : Fin n} {name : String} {i : Int} {m : Fin n} :
    ((List.finRange n).find? fun m => table.IsSubmodule p name i m) = some m ↔
      table.IsSubmodule p name i m := by
  constructor
  · intro h
    simpa using List.find?_some h
  · intro h
    obtain ⟨m', hm'⟩ : ∃ m', ((List.finRange n).find? fun m => table.IsSubmodule p name i m) =
        some m' := by
      rw [← Option.isSome_iff_exists, List.find?_isSome]
      exact ⟨m, List.mem_finRange m, by simpa using h⟩
    have h' : table.IsSubmodule p name i m' := by simpa using List.find?_some hm'
    rw [hm', table.sibling h.1 h'.1 (h.2.1.trans h'.2.1.symm)
      (index_ext (h.2.2.trans h'.2.2.symm))]

def tree : ModuleTree (Fin n) where
  getName m := (table.row m).name
  getIndex m := (table.row m).index
  getParentModule m := (table.row m).parent
  getFullPath m := (table.row m).fullPath
  findModuleByPath := findPath table.row
  getModuleByPath := table.getModuleByPath
  getSubmodule p name i := (List.finRange n).find? fun m => table.IsSubmodule p name i m
  fullPath_root h := table.fullPath_root _ h
  fullPath_child h := table.fullPath_child _ _ h
  getModuleByPath_absolute start p text := by
    obtain ⟨c, hc, hne⟩ := table.fullPath_head p
    rw [getModuleByPath, if_neg]
    simp [List.head?_append, hc, hne]
  findModuleByPath_child := table.findPath_child
  getModuleByPath_child p m := by
    rw [getModuleByPath, if_pos (by simp), ← table.findPath_child p m, String.append_assoc]
  findModuleByPath_chars h := by
    rw [← table.findPath_eq_some.mp h]
    exact table.fullPath_chars _
  getSubmodule_eq_some := table.find_submodule
  getName_chars := table.name_chars

end ModuleTable

/-! ## A car -/

/-- The modules of the car are numbered. -/
instance carModules : NeZero 14 := ⟨by decide⟩

/--
A car with two devices that hang on its network card, a unit that has a device of its own, and a
station at the road.
-/
def carRows : List (ModuleRow 14) := [
  ⟨"Net", none, none, "Net"⟩,
  ⟨"car", some 0, some 0, "Net.car[0]"⟩,
  ⟨"tsnNic", none, some 1, "Net.car[0].tsnNic"⟩,
  ⟨"app", some 0, some 2, "Net.car[0].tsnNic.app[0]"⟩,
  ⟨"tsnDevice", some 0, some 1, "Net.car[0].tsnDevice[0]"⟩,
  ⟨"tsnDevice", some 1, some 1, "Net.car[0].tsnDevice[1]"⟩,
  ⟨"unit", none, some 1, "Net.car[0].unit"⟩,
  ⟨"dev", none, some 6, "Net.car[0].unit.dev"⟩,
  ⟨"dev", none, some 1, "Net.car[0].dev"⟩,
  ⟨"rsu", none, some 0, "Net.rsu"⟩,
  ⟨"eth", some 0, some 2, "Net.car[0].tsnNic.eth[0]"⟩,
  ⟨"eth", some 1, some 2, "Net.car[0].tsnNic.eth[1]"⟩,
  ⟨"eth", some 0, some 4, "Net.car[0].tsnDevice[0].eth[0]"⟩,
  ⟨"eth", some 0, some 5, "Net.car[0].tsnDevice[1].eth[0]"⟩]

def carNetwork : ModuleTable 14 where
  row m := carRows.get m
  fullPath_root := by decide +kernel
  fullPath_child := by decide +kernel
  parent_of_fullPath := by decide +kernel
  fullPath_injective := by decide +kernel
  fullPath_head m := by
    refine ⟨'N', ?_, by decide⟩
    revert m
    decide +kernel
  fullPath_chars m := by
    have h : carRows.all (fun row => row.fullPath.toList.all (· ∉ addressSeparators)) = true := by
      decide +kernel
    intro c hc
    exact of_decide_eq_true (List.all_eq_true.mp (List.all_eq_true.mp h _ (List.get_mem _ _)) c hc)
  name_chars m := by
    have h : carRows.all (fun row => row.name.toList.all fun c => c.isAlphanum ∨ c = '_') = true := by
      decide +kernel
    intro c hc
    exact of_decide_eq_true (List.all_eq_true.mp (List.all_eq_true.mp h _ (List.get_mem _ _)) c hc)

end CooperativeTsn
