import CooperativeTsn.Net.ModuleTree
import CooperativeTsn.Stream.Window

/-!
# Building a stream

The constructor `TsnStream(cValueMap*, cModule*, cModule*)`. Source and destination are resolved
below the parent module; an application without an index is looked up in the parent, one with an
index in the source module.

* `ofConfigLine_ok` — what a stream that could be built says about its configuration line
* `ofConfigLine_fields` — the fields that it keeps
-/

namespace CooperativeTsn

open Infra.Runs

/-! ## `std::stoi` -/

def digitsValue (digits : List Char) : Int :=
  digits.foldl (fun n c => 10 * n + (c.toNat - '0'.toNat)) 0

/-- `std::stoi`, for 32 bits: leading blanks, a sign, digits; what follows is ignored. -/
def stoi (text : List Char) : Option Int :=
  let (sign, text) :=
    match text.dropWhile Char.isWhitespace with
    | '-' :: text => ((-1 : Int), text)
    | '+' :: text => (1, text)
    | text => (1, text)
  let digits := text.takeWhile Char.isDigit
  let n := sign * digitsValue digits
  if digits ≠ [] ∧ -2 ^ 31 ≤ n ∧ n < 2 ^ 31 then some n else none

namespace TsnStream

variable {Module : Type}

/-! ## The constructor -/

/-- The application, by the text of the configuration line. -/
def findApplication (tree : ModuleTree Module) (parent sourceModule : Module) (appName : String) :
    Except SimError (Option Module) :=
  let text := appName.toList
  if '[' ∈ text then do
    let split := text.takeWhile (· ≠ '[')
    let rest := (text.dropWhile (· ≠ '[')).drop 1
    -- a bracket that closes too early makes the length of the index wrap around
    let index := if ']' ∈ split then rest else rest.takeWhile (· ≠ ']')
    let i ← require (.runtimeError "stoi") (stoi index)
    pure (tree.getSubmodule sourceModule (String.ofList split) i)
  else pure (tree.getSubmodule parent appName (-1))

/-- The name of a stream that is given none. -/
def defaultStreamName (tree : ModuleTree Module) (externalSourceModule : Option Module)
    (sourceModule : Module) (pcp : Int) (destinationModule : Module) : Except SimError String := do
  let stem := tree.getName sourceModule ++ "-PCP" ++ toString pcp ++ "-" ++
    tree.getName destinationModule
  match externalSourceModule with
  | none => pure stem
  | some external =>
    let parent ← require .nullPointer (tree.getParentModule external)
    pure (tree.getFullName parent ++ "." ++ tree.getFullName external ++ "-" ++ stem)

/-- The stream name is set if it is not. -/
def orDefault (streamName : String) (defaultName : Except SimError String) :
    Except SimError String :=
  if streamName = "" then defaultName else pure streamName

def ofConfigLine (tree : ModuleTree Module) (ops : ValueOps) (configLine : ValueMap)
    (parent : Module) (externalSourceModule : Option Module) :
    Except SimError (TsnStream Module) := do
  let below := fun (text : String) => tree.getFullPath parent ++ "." ++ text
  -- mandatory fields
  let source ← configLine.getString "source"
  let sourceModule ← require (.assertion "source module not found")
    (tree.getModuleByPath parent (below source))
  let destination ← configLine.getString "destination"
  let destinationModule ← require (.assertion "destination module not found")
    (tree.getModuleByPath parent (below destination))
  let pcp ← configLine.getInt "pcp"
  ensure (0 ≤ pcp ∧ pcp ≤ 7) (.assertion "PCP must be between 0 and 7")
  let gateIndex ← configLine.getInt "gateIndex"
  ensure (gateIndex ≥ 0) (.assertion "gateIndex must be greater than 0")
  let packetLength ← configLine.getInUnit ops "packetLength" "b"
  ensure (truncateBits packetLength > 0) (.assertion "packetSize must be greater than 0")
  let packetInterval ← configLine.getInUnit ops "packetInterval" "ms"
  -- optional ones
  let streamName ← configLine.getOptional "streamName" "" fun v => pure (ops.str v)
  let applicationModule ← configLine.getOptional "application" none fun v => do
    findApplication tree parent sourceModule (← v.stringValue)
  let maxLatency ← configLine.getOptional "maxLatency" 0 (·.doubleValueInUnit ops "ms")
  let maxJitter ← configLine.getOptional "maxJitter" 0 (·.doubleValueInUnit ops "ms")
  let pathFragments ← configLine.getOptional "pathFragments" [] fun v => do
    let texts ← (← v.arrayValue).mapM Value.stringValue
    pure (texts.map fun text => tree.getModuleByPath parent (below text))
  let streamName ← orDefault streamName
    (defaultStreamName tree externalSourceModule sourceModule pcp destinationModule)
  pure {
    streamName := streamName
    pcp := pcp
    gateIndex := gateIndex
    applicationModule := applicationModule
    sourceModule := some sourceModule
    externalSourceModule := externalSourceModule
    destinationModule := some destinationModule
    packetSize := truncateBits packetLength
    packetInterval := packetInterval
    maxLatency := maxLatency
    maxJitter := maxJitter
    pathFragments := pathFragments
    lastTimePacketArrived := List.replicate queueSize 0
    startTime := 0
    numberPackets := 0
    originalPacketSize := truncateBits packetLength }

/-! ## What it guarantees -/

/-- What a stream that could be built says about its configuration line. -/
structure BuiltFrom (tree : ModuleTree Module) (configLine : ValueMap) (parent : Module)
    (externalSourceModule : Option Module) (s : TsnStream Module) : Prop where
  source : ∃ text m, configLine.getString "source" = .ok text ∧ s.sourceModule = some m ∧
    tree.findModuleByPath (tree.getFullPath parent ++ "." ++ text) = some m
  destination : ∃ text m, configLine.getString "destination" = .ok text ∧
    s.destinationModule = some m ∧
    tree.findModuleByPath (tree.getFullPath parent ++ "." ++ text) = some m
  pcp : configLine.getInt "pcp" = .ok s.pcp
  pcp_le : 0 ≤ s.pcp ∧ s.pcp ≤ 7
  external : s.externalSourceModule = externalSourceModule
  size_pos : 0 < s.originalPacketSize
  fresh : s.Fresh

theorem ofConfigLine_ok {tree : ModuleTree Module} {ops : ValueOps} {configLine : ValueMap}
    {parent : Module} {externalSourceModule : Option Module} {s : TsnStream Module}
    (h : ofConfigLine tree ops configLine parent externalSourceModule = .ok s) :
    BuiltFrom tree configLine parent externalSourceModule s := by
  simp only [ofConfigLine, bind_eq_ok, require_eq_ok, ensure_eq_ok, pure_eq_ok,
    tree.getModuleByPath_absolute] at h
  obtain ⟨source, hsource, sourceModule, hsm, destination, hdest, destinationModule, hdm, pcp, hpcp,
    -, hpcp', gateIndex, -, -, -, packetLength, -, -, hsize, packetInterval, -, streamName, -,
    applicationModule, -, maxLatency, -, maxJitter, -, pathFragments, -, defaultName, -, rfl⟩ := h
  exact ⟨⟨source, sourceModule, hsource, rfl, hsm⟩, ⟨destination, destinationModule, hdest, rfl, hdm⟩,
    hpcp, hpcp', rfl, hsize, ⟨rfl, rfl, Int.le_of_lt hsize⟩⟩

/-- The fields of the configuration line that the stream keeps. -/
structure FieldsRead (tree : ModuleTree Module) (ops : ValueOps) (configLine : ValueMap)
    (externalSourceModule : Option Module) (s : TsnStream Module) : Prop where
  gateIndex : configLine.getInt "gateIndex" = .ok s.gateIndex
  packetSize : ∃ x, configLine.getInUnit ops "packetLength" "b" = .ok x ∧
    s.packetSize = truncateBits x ∧ 0 < s.packetSize
  originalPacketSize : s.originalPacketSize = s.packetSize
  packetInterval : configLine.getInUnit ops "packetInterval" "ms" = .ok s.packetInterval
  maxLatency :
    configLine.getOptional "maxLatency" 0 (·.doubleValueInUnit ops "ms") = .ok s.maxLatency
  maxJitter : configLine.getOptional "maxJitter" 0 (·.doubleValueInUnit ops "ms") = .ok s.maxJitter
  streamName : ∃ name sourceModule destinationModule,
    configLine.getOptional "streamName" "" (fun v => pure (ops.str v)) = .ok name ∧
    s.sourceModule = some sourceModule ∧ s.destinationModule = some destinationModule ∧
    orDefault name
        (defaultStreamName tree externalSourceModule sourceModule s.pcp destinationModule) =
      .ok s.streamName

theorem ofConfigLine_fields {tree : ModuleTree Module} {ops : ValueOps} {configLine : ValueMap}
    {parent : Module} {externalSourceModule : Option Module} {s : TsnStream Module}
    (h : ofConfigLine tree ops configLine parent externalSourceModule = .ok s) :
    FieldsRead tree ops configLine externalSourceModule s := by
  simp only [ofConfigLine, bind_eq_ok, require_eq_ok, ensure_eq_ok, pure_eq_ok] at h
  obtain ⟨_, -, sourceModule, -, _, -, destinationModule, -, pcp, -, _, -, gateIndex, hgate, _, -,
    length, hlength, _, hpos, interval, hinterval, name, hname, _, -, latency, hlatency, jitter,
    hjitter, _, -, _, hgiven, rfl⟩ := h
  exact ⟨hgate, ⟨length, hlength, rfl, hpos⟩, rfl, hinterval, hlatency, hjitter,
    ⟨name, sourceModule, destinationModule, hname, rfl, rfl, hgiven⟩⟩

/-- What else can be said of a stream that could be built. -/
structure RestRead (tree : ModuleTree Module) (configLine : ValueMap) (parent : Module)
    (s : TsnStream Module) : Prop where
  gateIndex_nonneg : 0 ≤ s.gateIndex
  applicationModule : ∃ sourceModule, s.sourceModule = some sourceModule ∧
    configLine.getOptional "application" none (fun v => do
      findApplication tree parent sourceModule (← v.stringValue)) = .ok s.applicationModule
  pathFragments : configLine.getOptional "pathFragments" [] (fun v => do
    let texts ← (← v.arrayValue).mapM Value.stringValue
    pure (texts.map fun text =>
      tree.getModuleByPath parent (tree.getFullPath parent ++ "." ++ text))) = .ok s.pathFragments
  startTime : s.startTime = 0

theorem ofConfigLine_rest {tree : ModuleTree Module} {ops : ValueOps} {configLine : ValueMap}
    {parent : Module} {externalSourceModule : Option Module} {s : TsnStream Module}
    (h : ofConfigLine tree ops configLine parent externalSourceModule = .ok s) :
    RestRead tree configLine parent s := by
  simp only [ofConfigLine, bind_eq_ok, require_eq_ok, ensure_eq_ok, pure_eq_ok] at h
  obtain ⟨_, -, sourceModule, -, _, -, _, -, _, -, _, -, gateIndex, -, _, hgate, _, -, _, -, _, -,
    _, -, applicationModule, happ, _, -, _, -, pathFragments, hpath, _, -, rfl⟩ := h
  refine ⟨hgate, ⟨sourceModule, rfl, ?_⟩, ?_, rfl⟩
  · simpa only [bind, Except.bind] using happ
  · simpa only [bind, Except.bind] using hpath

end TsnStream

end CooperativeTsn
