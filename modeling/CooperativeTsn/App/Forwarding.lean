import CooperativeTsn.Stream.Construct

/-!
# The forwarding applications

`NicForwardingApplication::processPacket`, which forwards a packet by the first rule whose key its
name contains, and `DynSchedForwardingApplication::adaptSchedule`, which keeps a stream for what
comes in from outside.

The interface table is taken to have the interfaces `eth0` and `wlan0`. Of a forwarded packet only
the target and the port are kept.
-/

namespace CooperativeTsn

open Infra.Runs

/-! ## What is around an application -/

/-- Does the name contain the key? -/
def contains (name key : String) : Bool := decide (key.toList <:+: name.toList)

/-- The interface that a packet came in through. -/
inductive Interface where
  | eth0
  | wlan0
  | lo
deriving DecidableEq, Repr

structure Packet (Address : Type) where
  name : String
  /-- in bits -/
  totalLength : Int
  inboundInterface : Interface
  srcAddr : Address

/-- The simulation around an application. -/
structure Surroundings (Module Address : Type) where
  tree : ModuleTree Module
  ops : ValueOps
  isLoopback : Address → Bool
  /-- `L3AddressResolver::findHostWithAddress`, which changes while the network does -/
  findHostWithAddress : Int → Address → Option Module
  /-- `creationTime` of a module that is a `DynSchedForwardingApplication` -/
  creationTime : Module → Option Int

/-- Where an application is: in a host, which is in a car. -/
structure Site {Module : Type} (tree : ModuleTree Module) where
  this : Module
  host : Module
  car : Module
  host_parent : tree.getParentModule this = some host
  car_parent : tree.getParentModule host = some car

variable {Module Address : Type} (env : Surroundings Module Address) (site : Site env.tree)

/-! ## `processPacket` -/

/-- Where a packet goes. -/
inductive Forwarded (Module : Type) where
  | toExternal (name : String)
  | toInternal (target : Module) (port : Int)
  | nowhere
deriving DecidableEq, Repr

/-- The loop over the rules: each of them has to be a map, the first with a fitting key is read. -/
def findTarget (carPath : String) (name : String) :
    ValueMap → Except SimError (Option (String × Int))
  | [] => pure none
  | (key, value) :: rules => do
    let rule ← value.mapValue
    if contains name key then
      let destination ← rule.getString "destination"
      let port ← rule.getInt "port"
      pure (some (carPath ++ "." ++ destination, port))
    else findTarget carPath name rules

/-- The module path of an address: what comes before an interface, a protocol or a mask. -/
def modname (path : String) : String :=
  String.ofList (path.toList.takeWhile (· ∉ addressSeparators))

/-- The module whose address `L3AddressResolver::resolve` returns. -/
def resolve (tree : ModuleTree Module) (path : String) : Except SimError Module :=
  require (.runtimeError ("L3AddressResolver: module " ++ modname path ++ " not found"))
    (tree.findModuleByPath (modname path))

def processPacket (forwardingTable : ValueMap) (packet : Packet Address) :
    Except SimError (Forwarded Module) :=
  match packet.inboundInterface with
  | .eth0 => pure (.toExternal packet.name)
  | .wlan0 => do
    let rule ← findTarget (env.tree.getFullPath site.car) packet.name forwardingTable
    let (path, port) ←
      require (.assertion "No destination module found in the forwarding table") rule
    pure (.toInternal (← resolve env.tree path) port)
  | .lo => pure .nowhere

/-! ## `adaptSchedule` -/

/-- The rule lookup. Without a rule both values stay as they were initialised. -/
def findRule (name : String) : ValueMap → Except SimError (Int × String)
  | [] => pure (0, "")
  | (key, value) :: rules =>
    if contains name key then do
      let rule ← value.mapValue
      let pcp ← rule.getInt "pcp"
      let destination ← rule.getString "destination"
      pure (pcp, destination)
    else findRule name rules

/-- The four checks that a stream has to pass. -/
def IsCorrectStream (sender : Option Module) (pcp : Int)
    (destination : String) (stream : TsnStream Module) : Prop :=
  stream.pcp = pcp ∧ stream.sourceModule = some site.host ∧
    (stream.externalSourceModule ≠ none ∧ sender = stream.externalSourceModule) ∧
    stream.destinationModule.map env.tree.getFullName = some destination

instance [DecidableEq Module] (sender : Option Module) (pcp : Int) (destination : String)
    (stream : TsnStream Module) :
    Decidable (IsCorrectStream env site sender pcp destination stream) :=
  inferInstanceAs (Decidable (_ ∧ _))

/-- The stream lookup: the position of the first stream that passes. -/
def findStream [DecidableEq Module] (sender : Option Module) (pcp : Int) (destination : String)
    (streams : List (TsnStream Module)) : Option Nat :=
  streams.findIdx? fun stream => IsCorrectStream env site sender pcp destination stream

/-- The configuration line of a new stream. -/
def newConfigLine (pcp : Int) (destination : String) (totalLength : Int) : ValueMap :=
  [("application", .string (env.tree.getFullName site.this)), ("destination", .string destination),
    ("gateIndex", .int pcp ""), ("packetInterval", .int 0 "s"),
    ("packetLength", .int totalLength "b"), ("pcp", .int pcp ""),
    ("source", .string (env.tree.getFullName site.host))]

/-- The offset that `pushTime` asks the first application of the source module for. -/
def creationTimeOffset (stream : TsnStream Module) : Except SimError Int := do
  let sourceModule ← require .nullPointer stream.sourceModule
  let app ← require .nullPointer (env.tree.getSubmodule sourceModule "app" 0)
  let creationTime ← require .typeMismatch (env.creationTime app)
  pure (getCreationTimeOffset creationTime)

/-- No stream passed: one more is registered. -/
def registerStream (now : Int) (sender : Option Module) (pcp : Int) (destination : String)
    (totalLength : Int) (streams : List (TsnStream Module)) :
    Except SimError (List (TsnStream Module)) := do
  let stream ← TsnStream.ofConfigLine env.tree env.ops
    (newConfigLine env site pcp destination totalLength) site.car sender
  let offset ← creationTimeOffset env stream.copy
  pure (streams ++ [stream.copy.firstPacket offset now])

/-- The stream that passed takes the packet. -/
def updateStream (now : Int) (i : Nat) (streams : List (TsnStream Module)) :
    Except SimError (List (TsnStream Module)) := do
  let stream ← require .nullPointer streams[i]?
  let offset ← creationTimeOffset env stream
  pure (streams.set i (stream.nextPacket offset now))

def adaptSchedule [DecidableEq Module] (forwardingTable : ValueMap)
    (streams : List (TsnStream Module)) (arrival : Int × Packet Address) :
    Except SimError (List (TsnStream Module)) :=
  let (now, packet) := arrival
  match packet.inboundInterface with
  | .eth0 => pure streams
  | .wlan0 => do
    let (pcp, destination) ← findRule packet.name forwardingTable
    let sender := env.findHostWithAddress now packet.srcAddr
    match findStream env site sender pcp destination streams with
    | none => registerStream env site now sender pcp destination packet.totalLength streams
    | some i => updateStream env now i streams
  | .lo => pure streams

/-- `DynSchedForwardingApplication::socketDataArrived` -/
def socketDataArrived [DecidableEq Module] (forwardingTable : ValueMap)
    (streams : List (TsnStream Module)) (arrival : Int × Packet Address) :
    Except SimError (List (TsnStream Module) × Forwarded Module) :=
  if env.isLoopback arrival.2.srcAddr then pure (streams, .nowhere)
  else do
    let streams ← adaptSchedule env site forwardingTable streams arrival
    pure (streams, ← processPacket env site forwardingTable arrival.2)

/-! ## A car -/

/-- The car, as its network card sees it. The address 0 belongs to nobody, all others to the station. -/
def carSurroundings : Surroundings (Fin 14) Nat where
  tree := carNetwork.tree
  ops := basicOps
  isLoopback _ := false
  findHostWithAddress _ address := if address = 0 then none else some 9
  creationTime m := if m = 3 then some 0 else none

def carSite : Site carSurroundings.tree where
  this := 3
  host := 2
  car := 1
  host_parent := rfl
  car_parent := rfl

/-- A rule that forwards to the destination. -/
def carRule (key destination : String) : String × Value :=
  (key, .map [("destination", .string destination), ("pcp", .int 0 ""), ("port", .int 3000 "")])

/-- A packet of 100 bytes from the station. -/
def carPacket (name : String) : Packet Nat := ⟨name, 800, .wlan0, 1⟩

end CooperativeTsn
