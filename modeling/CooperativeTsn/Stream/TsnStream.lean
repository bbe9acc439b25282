import CooperativeTsn.Infra.Rounding
import CooperativeTsn.Infra.Search
import CooperativeTsn.Infra.SimTime

/-!
# `TsnStream`

The stream record of `DynSchedForwardingApplication` and the part of it that turns packet arrivals
into a reservation.

Times are integer picoseconds and sizes are bits. The members that the source initialises and never
assigns (`queueSize`, `updateIntervall`, `dataRate`) are constants here. The time of the packet is
computed in doubles. The product with `0.1` and the last division of `getNewSlotSize` are exact here,
and come out as they do in doubles.
-/

namespace CooperativeTsn

open Infra Infra.Rounding Infra.SimTime

/-! ## The record -/

/-- A stream. A module reference is `none` where the source holds a null pointer. -/
structure TsnStream (Module : Type) where
  streamName : String
  pcp : Int
  gateIndex : Int
  applicationModule : Option Module
  sourceModule : Option Module
  externalSourceModule : Option Module
  destinationModule : Option Module
  packetSize : Int
  /-- in milliseconds, like the two limits below -/
  packetInterval : Rat
  maxLatency : Rat
  maxJitter : Rat
  pathFragments : List (Option Module)
  lastTimePacketArrived : List Int
  startTime : Int
  numberPackets : Nat
  originalPacketSize : Int
deriving DecidableEq, Repr

namespace TsnStream

variable {Module : Type}

/-- `int queueSize = 10` -/
def queueSize : Nat := 10

/-- `const int updateIntervall = 10` -/
def updateIntervall : Nat := 10

/-- `double dataRate = 100`, in Mbit/s -/
def dataRate : Int := 100

/-- The hard-coded cycle, 100 ms. -/
abbrev cycleTime : Int := 100000000000

/-- `TsnStream(TsnStream* old)`: the start time and the packet counter are not copied. -/
def copy (old : TsnStream Module) : TsnStream Module :=
  { old with startTime := 0, numberPackets := 0 }

/-! ## Arrivals -/

/--
The offset that an arrival at `time` is stored with. `creationTimeOffset` is what
`getCreationTimeOffset` of the source's application returns. The `100` is read as seconds.
-/
def arrivalOffset (creationTimeOffset time : Int) : Int :=
  fmod (fmod (trunc ns time) cycleTime + (100 * sec - creationTimeOffset)) cycleTime

/-- removes oldest time and pushes new time -/
def pushTime (creationTimeOffset time : Int) (s : TsnStream Module) : TsnStream Module :=
  let times := s.lastTimePacketArrived
  let times := if times.length = queueSize then times.dropLast else times
  { s with
    numberPackets := s.numberPackets + 1
    lastTimePacketArrived := arrivalOffset creationTimeOffset time :: times }

/-! ## Search for the first and the last arrival -/

/-- The search for the smallest time. Zero stands for "no time yet". -/
def earliest (times : List Int) : Int := Search.search 0 (· < ·) times

/-- The search for the largest time, with the same convention. -/
def latest (times : List Int) : Int := Search.search 0 (· > ·) times

def setStartTime (s : TsnStream Module) : TsnStream Module :=
  { s with startTime := earliest s.lastTimePacketArrived }

def adjusteStartTime (offset : Int) (s : TsnStream Module) : TsnStream Module :=
  { s with startTime := fmod (s.startTime - offset) cycleTime }

/-! ## Slot size -/

/--
`SimTime((originalPacketSize.get() / dataRate) * 1000, SIMTIME_NS)`: the quotient and the product
are doubles, and the conversion to an integer drops what is below a nanosecond.
-/
def packetTime (originalPacketSize : Int) : Int :=
  truncate (double (double (double originalPacketSize / dataRate) * 1000)) * ns

/-- `total_time * 0.1` -/
def adjustment (totalTime : Int) : Int := totalTime.tdiv 10

/-- The bits that `getNewSlotSize` asks for when the arrivals are `diffTime` apart. -/
def slotBits (diffTime originalPacketSize : Int) : Int :=
  let totalTime := diffTime + adjustment diffTime + (21 * us + packetTime originalPacketSize)
  ceilDiv (inUnit ns totalTime * dataRate) 1000

/-- Does this packet fall on an update? -/
def isUpdate (s : TsnStream Module) : Prop := s.numberPackets % updateIntervall = 2

instance (s : TsnStream Module) : Decidable s.isUpdate := inferInstanceAs (Decidable (_ = _))

/-- Returns the new size next to the stream, whose start time an update moves. -/
def getNewSlotSize (s : TsnStream Module) : Int × TsnStream Module :=
  if s.isUpdate then
    let min := earliest s.lastTimePacketArrived
    let max := latest s.lastTimePacketArrived
    let diffTime := max - min
    let startOffset := (adjustment diffTime).tdiv 2
    (slotBits diffTime s.originalPacketSize,
      ({ s with startTime := min }).adjusteStartTime startOffset)
  else (s.packetSize, s)

def setPacketSize (size : Int) (s : TsnStream Module) : TsnStream Module :=
  { s with packetSize := size }

/-- The average that the source computes here is not used. -/
def setPacketInterval (s : TsnStream Module) : TsnStream Module :=
  { s with packetInterval := 100 }

/-! ## The two ways `adaptSchedule` hands a packet to a stream -/

/-- A new stream takes its first packet. -/
def firstPacket (creationTimeOffset time : Int) (s : TsnStream Module) : TsnStream Module :=
  (s.pushTime creationTimeOffset time).setStartTime

/-- A known stream takes a later packet. -/
def nextPacket (creationTimeOffset time : Int) (s : TsnStream Module) : TsnStream Module :=
  let r := (s.pushTime creationTimeOffset time).getNewSlotSize
  (r.2.setPacketSize r.1).setPacketInterval

/-- All packets of a stream in the order of arrival. -/
def receive (creationTimeOffset : Int) (s : TsnStream Module) : List Int → TsnStream Module
  | [] => s
  | t :: ts => ts.foldl (fun s t => s.nextPacket creationTimeOffset t)
      (s.firstPacket creationTimeOffset t)

end TsnStream

/-- `DynSchedForwardingApplication::getCreationTimeOffset` -/
def getCreationTimeOffset (creationTime : Int) : Int :=
  fmod (trunc us creationTime) TsnStream.cycleTime

end CooperativeTsn
