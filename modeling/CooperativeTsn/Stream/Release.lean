import CooperativeTsn.Stream.Construct
import Mathlib.Data.List.TakeWhile

/-!
# Streams in a release build

A release build leaves out `ASSERT2`. The constructor then goes on with a module that was not found,
up to the point where the module is used.

* `construct_debug` — with its assertions the constructor is `ofConfigLine`
* `construct_ok` — where the modules of a stream come from
* `lookUpApplication_eq_some_iff` — which application is found
-/

namespace CooperativeTsn

open Infra.Runs

inductive Build where
  | debug
  | release
deriving DecidableEq, Repr

def Build.assert2 (build : Build) (p : Prop) [Decidable p] (text : String) : Except SimError Unit :=
  match build with
  | .debug => ensure p (.assertion text)
  | .release => pure ()

namespace TsnStream

variable {Module : Type}

/-- The application; an index is looked up in the source module, which may be missing. -/
def lookUpApplication (tree : ModuleTree Module) (parent : Module) (sourceModule : Option Module)
    (appName : String) : Except SimError (Option Module) :=
  match sourceModule with
  | some m => findApplication tree parent m appName
  | none =>
    if '[' ∈ appName.toList then .error .nullPointer
    else pure (tree.getSubmodule parent appName (-1))

/-- The constructor, in either build. -/
def construct (build : Build) (tree : ModuleTree Module) (ops : ValueOps) (configLine : ValueMap)
    (parent : Module) (externalSourceModule : Option Module) :
    Except SimError (TsnStream Module) := do
  let below := fun (text : String) => tree.getFullPath parent ++ "." ++ text
  -- mandatory fields
  let source ← configLine.getString "source"
  let sourceModule := tree.getModuleByPath parent (below source)
  build.assert2 (sourceModule.isSome = true) "source module not found"
  let destination ← configLine.getString "destination"
  let destinationModule := tree.getModuleByPath parent (below destination)
  build.assert2 (destinationModule.isSome = true) "destination module not found"
  let pcp ← configLine.getInt "pcp"
  build.assert2 (0 ≤ pcp ∧ pcp ≤ 7) "PCP must be between 0 and 7"
  let gateIndex ← configLine.getInt "gateIndex"
  build.assert2 (gateIndex ≥ 0) "gateIndex must be greater than 0"
  let packetLength ← configLine.getInUnit ops "packetLength" "b"
  build.assert2 (truncateBits packetLength > 0) "packetSize must be greater than 0"
  let packetInterval ← configLine.getInUnit ops "packetInterval" "ms"
  -- optional ones
  let streamName ← configLine.getOptional "streamName" "" fun v => pure (ops.str v)
  let applicationModule ← configLine.getOptional "application" none fun v => do
    lookUpApplication tree parent sourceModule (← v.stringValue)
  let maxLatency ← configLine.getOptional "maxLatency" 0 (·.doubleValueInUnit ops "ms")
  let maxJitter ← configLine.getOptional "maxJitter" 0 (·.doubleValueInUnit ops "ms")
  let pathFragments ← configLine.getOptional "pathFragments" [] fun v => do
    let texts ← (← v.arrayValue).mapM Value.stringValue
    pure (texts.map fun text => tree.getModuleByPath parent (below text))
  let streamName ← orDefault streamName do
    let sourceModule ← require .nullPointer sourceModule
    let destinationModule ← require .nullPointer destinationModule
    defaultStreamName tree externalSourceModule sourceModule pcp destinationModule
  pure {
    streamName := streamName
    pcp := pcp
    gateIndex := gateIndex
    applicationModule := applicationModule
    sourceModule := sourceModule
    externalSourceModule := externalSourceModule
    destinationModule := destinationModule
    packetSize := truncateBits packetLength
    packetInterval := packetInterval
    maxLatency := maxLatency
    maxJitter := maxJitter
    pathFragments := pathFragments
    lastTimePacketArrived := List.replicate queueSize 0
    startTime := 0
    numberPackets := 0
    originalPacketSize := truncateBits packetLength }

section

variable {build : Build} {tree : ModuleTree Module} {ops : ValueOps} {configLine : ValueMap}
  {parent : Module} {externalSourceModule : Option Module} {s : TsnStream Module}

/-- A debug build is what `ofConfigLine` describes. -/
theorem construct_debug :
    construct .debug tree ops configLine parent externalSourceModule =
      ofConfigLine tree ops configLine parent externalSourceModule := by
  unfold construct ofConfigLine
  cases configLine.getString "source" with
  | error => rfl
  | ok source =>
    cases hsource : tree.getModuleByPath parent (tree.getFullPath parent ++ "." ++ source) with
    | none => simp only [bind, Except.bind, hsource]; rfl
    | some sourceModule =>
      cases configLine.getString "destination" with
      | error => simp only [bind, Except.bind, hsource]; rfl
      | ok destination =>
        cases hdest : tree.getModuleByPath parent
            (tree.getFullPath parent ++ "." ++ destination) with
        | none => simp only [bind, Except.bind, hsource, hdest]; rfl
        | some destinationModule => simp only [bind, Except.bind, hsource, hdest]; rfl

/-- Where the modules of a stream come from. -/
structure Pointers (tree : ModuleTree Module) (configLine : ValueMap) (parent : Module)
    (s : TsnStream Module) : Prop where
  source : ∃ text, configLine.getString "source" = .ok text ∧
    s.sourceModule = tree.findModuleByPath (tree.getFullPath parent ++ "." ++ text)
  destination : ∃ text, configLine.getString "destination" = .ok text ∧
    s.destinationModule = tree.findModuleByPath (tree.getFullPath parent ++ "." ++ text)
  applicationModule : configLine.getOptional "application" none (fun v => do
    lookUpApplication tree parent s.sourceModule (← v.stringValue)) = .ok s.applicationModule
  pathFragments : configLine.getOptional "pathFragments" [] (fun v => do
    let texts ← (← v.arrayValue).mapM Value.stringValue
    pure (texts.map fun text =>
      tree.getModuleByPath parent (tree.getFullPath parent ++ "." ++ text))) = .ok s.pathFragments

theorem construct_ok
    (h : construct build tree ops configLine parent externalSourceModule = .ok s) :
    Pointers tree configLine parent s := by
  simp only [construct, bind_eq_ok, pure_eq_ok] at h
  obtain ⟨source, hsource, _, -, destination, hdest, _, -, _, -, _, -, _, -, _, -, _, -, _, -, _, -,
    _, -, applicationModule, happ, _, -, _, -, pathFragments, hpath, _, -, rfl⟩ := h
  refine ⟨⟨source, hsource, ?_⟩, ⟨destination, hdest, ?_⟩, ?_, ?_⟩
  · exact tree.getModuleByPath_absolute ..
  · exact tree.getModuleByPath_absolute ..
  · simpa only [bind, Except.bind] using happ
  · simpa only [bind, Except.bind] using hpath

end

/-! ## Numbers in brackets -/

theorem foldl_digits : ∀ {digits : List Char} (n : Nat), (∀ c ∈ digits, c.isDigit = true) →
    digits.foldl (fun (k : Int) c => 10 * k + (c.toNat - '0'.toNat)) n =
      Nat.ofDigitChars 10 digits n
  | [], n, _ => rfl
  | c :: digits, n, h => by
    have hc := h c List.mem_cons_self
    have hle : '0'.toNat ≤ c.toNat := by
      simp only [Char.isDigit, Bool.and_eq_true, decide_eq_true_eq] at hc
      exact hc.1
    have hcast : ((10 * n + (c.toNat - '0'.toNat) : Nat) : Int) =
        10 * (n : Int) + ((c.toNat : Int) - ('0'.toNat : Int)) := by
      omega
    rw [List.foldl_cons, Nat.ofDigitChars_cons,
      ← foldl_digits _ fun d hd => h d (List.mem_cons_of_mem _ hd), hcast]

theorem not_isWhitespace_of_isDigit {c : Char} (h : c.isDigit = true) :
    c.isWhitespace = false ∧ c ≠ '-' ∧ c ≠ '+' := by
  refine ⟨?_, ?_, ?_⟩
  · rw [Bool.eq_false_iff]
    intro hspace
    simp only [Char.isWhitespace, Bool.or_eq_true, decide_eq_true_eq] at hspace
    rcases hspace with ((rfl | rfl) | rfl) | rfl <;> simp [Char.isDigit] at h
  · rintro rfl
    simp [Char.isDigit] at h
  · rintro rfl
    simp [Char.isDigit] at h

/-- A number that fits into 32 bits is read back. -/
theorem stoi_toDigits (i : Nat) :
    stoi (Nat.toDigits 10 i) = if (i : Int) < 2 ^ 31 then some (i : Int) else none := by
  have hdigits : ∀ c ∈ Nat.toDigits 10 i, c.isDigit = true := fun c hc =>
    Nat.isDigit_of_mem_toDigits (by decide) (by decide) hc
  have hvalue : digitsValue (Nat.toDigits 10 i) = i := by
    have h := foldl_digits 0 hdigits
    rw [Nat.ofDigitChars_ten_toDigits] at h
    exact h
  have hne : Nat.toDigits 10 i ≠ [] := Nat.toDigits_ne_nil
  have htake : (Nat.toDigits 10 i).takeWhile Char.isDigit = Nat.toDigits 10 i :=
    List.takeWhile_eq_self_iff.mpr hdigits
  -- the first character is a digit, so there is neither white space nor a sign
  cases htext : Nat.toDigits 10 i with
  | nil => exact absurd htext hne
  | cons c cs =>
    rw [htext] at hdigits hvalue htake
    obtain ⟨hspace, hminus, hplus⟩ := not_isWhitespace_of_isDigit (hdigits c List.mem_cons_self)
    rw [stoi, List.dropWhile_cons_of_neg (by simp [hspace])]
    split
    next sign text hmatch =>
      have hsign : sign = 1 ∧ text = c :: cs := by
        split at hmatch
        · next heq => exact absurd (List.cons.inj heq).1 hminus
        · next heq => exact absurd (List.cons.inj heq).1 hplus
        · cases hmatch
          exact ⟨rfl, rfl⟩
      obtain ⟨rfl, rfl⟩ := hsign
      simp only [htake, hvalue, Int.one_mul]
      exact if_congr (by simp) rfl rfl

/-! ## The application -/

/-- A name, as a module may have it. -/
def IsName (name : String) : Prop := ∀ c ∈ name.toList, c.isAlphanum ∨ c = '_'

theorem IsName.ne_bracket {name : String} (h : IsName name) :
    ∀ c ∈ name.toList, c ≠ '[' ∧ c ≠ ']' := by
  intro c hc
  refine ⟨?_, ?_⟩ <;> rintro rfl <;> simpa [Char.isAlphanum] using h _ hc

theorem indexedName_toList (name : String) (i : Nat) :
    (indexedName name (some i)).toList = name.toList ++ '[' :: (Nat.toDigits 10 i ++ [']']) := by
  simp [indexedName]

theorem IsName.bracket_mem_iff {name : String} (h : IsName name) {index : Option Nat} :
    '[' ∈ (indexedName name index).toList ↔ index ≠ none := by
  cases index with
  | none => simpa [indexedName] using fun hmem => (h.ne_bracket _ hmem).1 rfl
  | some i => simp [indexedName_toList]

/-- The name ends at the bracket. -/
theorem IsName.takeWhile_indexedName {name : String} (h : IsName name) (index : Option Nat) :
    (indexedName name index).toList.takeWhile (· ≠ '[') = name.toList := by
  have hopen : ∀ c ∈ name.toList, decide (c ≠ '[') = true := fun c hc =>
    decide_eq_true (h.ne_bracket c hc).1
  cases index with
  | none => exact List.takeWhile_eq_self_iff.mpr hopen
  | some i =>
    rw [indexedName_toList, List.takeWhile_append_of_pos hopen]
    simp

theorem IsName.dropWhile_indexedName {name : String} (h : IsName name) (i : Nat) :
    (indexedName name (some i)).toList.dropWhile (· ≠ '[') =
      '[' :: (Nat.toDigits 10 i ++ [']']) := by
  rw [indexedName_toList, List.dropWhile_append_of_pos fun c hc =>
    decide_eq_true (h.ne_bracket c hc).1]
  simp

/-- Names without brackets are told apart. -/
theorem IsName.indexedName_inj {name name' : String} {index index' : Option Nat} (h : IsName name)
    (h' : IsName name') :
    indexedName name index = indexedName name' index' ↔ name = name' ∧ index = index' := by
  refine ⟨fun heq => ?_, by rintro ⟨rfl, rfl⟩; rfl⟩
  have hname : name = name' := by
    rw [← String.toList_inj, ← h.takeWhile_indexedName index, heq, h'.takeWhile_indexedName index']
  subst hname
  refine ⟨rfl, ?_⟩
  have hbracket : index ≠ none ↔ index' ≠ none := by
    rw [← h.bracket_mem_iff, heq, h.bracket_mem_iff]
  cases index with
  | none => simpa [eq_comm] using hbracket
  | some i =>
    cases index' with
    | none => simp at hbracket
    | some j =>
      have hrest := congrArg (fun text => text.toList.dropWhile (· ≠ '[')) heq
      simp only [h.dropWhile_indexedName, List.cons.injEq, true_and,
        List.append_cancel_right_eq] at hrest
      have hvalue := congrArg (fun digits => Nat.ofDigitChars 10 digits 0) hrest
      simpa using hvalue

variable {tree : ModuleTree Module} {parent src m : Module} {name : String}

/-- A name without an index is looked up in the parent. -/
theorem findApplication_plain (h : IsName name) :
    findApplication tree parent src name = .ok (tree.getSubmodule parent name (-1)) := by
  have hno : '[' ∉ name.toList := fun hmem => (h.ne_bracket _ hmem).1 rfl
  rw [findApplication]
  simp only [if_neg hno]
  rfl

/-- A name with an index is looked up in the source module, if the index fits into 32 bits. -/
theorem findApplication_indexed (h : IsName name) (i : Nat) :
    findApplication tree parent src (indexedName name (some i)) =
      if (i : Int) < 2 ^ 31 then .ok (tree.getSubmodule src name i)
      else .error (.runtimeError "stoi") := by
  have hclose : ']' ∉ name.toList := fun hmem => (h.ne_bracket _ hmem).2 rfl
  have hdigits : ∀ c ∈ Nat.toDigits 10 i, decide (c ≠ ']') = true := by
    intro c hc
    refine decide_eq_true ?_
    rintro rfl
    simpa [Char.isDigit] using Nat.isDigit_of_mem_toDigits (by decide) (by decide) hc
  have hindex : (Nat.toDigits 10 i ++ [']']).takeWhile (· ≠ ']') = Nat.toDigits 10 i := by
    rw [List.takeWhile_append_of_pos hdigits]
    simp
  rw [findApplication]
  simp only [if_pos (h.bracket_mem_iff.mpr (Option.some_ne_none i)), h.takeWhile_indexedName,
    h.dropWhile_indexedName, List.drop_succ_cons, List.drop_zero, hindex, if_neg hclose,
    stoi_toDigits, String.ofList_toList]
  split <;> rfl

/-- The module in which the application is looked up. -/
def lookupModule (sourceModule : Option Module) (parent : Module) (appName : String) :
    Option Module :=
  if '[' ∈ appName.toList then sourceModule else some parent

/-- **Which application is found**: the one that has the name, in the module that is looked at. -/
theorem lookUpApplication_eq_some_iff {sourceModule app : Option Module} {index : Option Nat}
    (h : IsName name)
    (hfound : lookUpApplication tree parent sourceModule (indexedName name index) = .ok app) :
    app = some m ↔ ∃ p, lookupModule sourceModule parent (indexedName name index) = some p ∧
      tree.getParentModule m = some p ∧ tree.getFullName m = indexedName name index := by
  have hindex : ∀ j : Option Nat, j.elim (-1 : Int) Nat.cast = index.elim (-1) Nat.cast ↔
      j = index := fun j => ⟨ModuleTable.index_ext, by rintro rfl; rfl⟩
  rw [ModuleTree.getFullName, IsName.indexedName_inj (tree.getName_chars m) h, lookupModule]
  -- a name with an index has a bracket: it is looked up in the source module, which must be there
  cases index with
  | none =>
    have hno : '[' ∉ (indexedName name none).toList := fun hmem =>
      h.bracket_mem_iff.mp hmem rfl
    have happ : app = tree.getSubmodule parent name (-1) := by
      cases sourceModule with
      | none =>
        rw [lookUpApplication, if_neg hno, pure_eq_ok] at hfound
        exact hfound.symm
      | some src =>
        rw [lookUpApplication, indexedName, findApplication_plain h, Except.ok.injEq] at hfound
        exact hfound.symm
    rw [happ, tree.getSubmodule_eq_some, if_neg hno]
    simp only [Option.some.injEq, exists_eq_left', ← hindex]
    rfl
  | some i =>
    have hin : '[' ∈ (indexedName name (some i)).toList :=
      h.bracket_mem_iff.mpr (Option.some_ne_none i)
    cases sourceModule with
    | none =>
      rw [lookUpApplication, if_pos hin] at hfound
      cases hfound
    | some src =>
      rw [lookUpApplication, findApplication_indexed h] at hfound
      split at hfound
      · rw [Except.ok.injEq] at hfound
        rw [← hfound, tree.getSubmodule_eq_some, if_pos hin]
        simp only [Option.some.injEq, exists_eq_left', ← hindex]
        rfl
      · cases hfound

end TsnStream

end CooperativeTsn
