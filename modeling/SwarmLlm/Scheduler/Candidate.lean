import SwarmLlm.Types
import SwarmLlm.Lib.Floats
import SwarmLlm.Lib.Saturating

namespace SwarmLlm.Scheduler

open Lib FloatArith

abbrev LayerRange := Nat × Nat

structure ModelId where
  name : String
  deriving DecidableEq

structure ShardId where
  modelId : ModelId
  index : Nat
  deriving DecidableEq

structure PipelineSegment where
  nodeId : NodeId
  shardId : ShardId
  layerRange : LayerRange
  deriving DecidableEq

structure HeldRange where
  range : LayerRange
  releasableLayers : Nat
  deriving DecidableEq

def strictlySubsumes (incoming held : LayerRange) : Bool :=
  decide (incoming.1 ≤ held.1) && decide (held.2 ≤ incoming.2) && decide (held ≠ incoming)

def layersAddedBy (range : LayerRange) (held : List HeldRange) : Nat :=
  if held.any fun h => h.range = range then 0
  else
    let released := (held.filter fun h => strictlySubsumes range h.range).foldl
      (fun acc h => satAddU32 acc h.releasableLayers) 0
    range.2 - range.1 - released

structure SegmentWeights where
  total : Nat
  hostResident : Nat

-- A model's tensors by where the loader loads them; `layerBytes` is what the header
-- gives for the layers of a range.
structure ModelWeights where
  layerBytes : Nat → Nat → Nat
  shared : Nat
  tokenTable : Nat
  outputHead : Nat
  tied : Bool
  hostResident : Nat
  besideEmbedding : Nat

def ModelWeights.segment (weights : ModelWeights) (range : LayerRange) (isFirst isLast : Bool) : SegmentWeights :=
  let tokenTable := if isFirst || (isLast && weights.tied) then weights.tokenTable else 0
  let outputHead := if isLast then weights.outputHead else 0
  let hostResident := if isFirst then weights.hostResident else 0
  let besideEmbedding := if isFirst then weights.besideEmbedding else 0
  let head := satAddU tokenTable outputHead
  ⟨satAddU (satAddU (satAddU (satAddU (weights.layerBytes range.1 range.2) weights.shared) hostResident) besideEmbedding) head,
    hostResident⟩

structure RangeWeights where
  weights : ModelWeights
  numLayers : Nat
  averageBytes : Nat
  layerPriceBytes : Nat
  onCard : Bool

namespace RangeWeights

def loads (w : RangeWeights) (range : LayerRange) : Nat :=
  let segment := w.weights.segment range (decide (range.1 = 0)) (decide (w.numLayers ≤ range.2))
  if w.onCard then segment.total - segment.hostResident else segment.total

def bytesAddedBy (w : RangeWeights) (range : LayerRange) (held : List HeldRange) : Nat :=
  if held.any fun h => h.range = range then 0
  else
    let released := (held.filter fun h => strictlySubsumes range h.range).foldl
      (fun acc h =>
        let width := max (h.range.2 - h.range.1) 1
        let share := min h.releasableLayers width
        satAddU acc (min u64Max (w.loads h.range * share) / width)) 0
    w.loads range - released

variable {D : Type} [FloatArith D]

def excessLayers (w : RangeWeights) (range : LayerRange) (held : List HeldRange) : D :=
  if w.layerPriceBytes = 0 then ofCount 0
  else
    let adds := w.bytesAddedBy range held
    let averaged := min u64Max (layersAddedBy range held * w.averageBytes)
    (ofCount adds - ofCount averaged) / ofCount w.layerPriceBytes

def widthInBound (D : Type) [FloatArith D] (w : RangeWeights) (range : LayerRange) (held : List HeldRange) : Nat :=
  ceilNat (ofCount (range.2 - range.1) + w.excessLayers range held : D)

end RangeWeights

structure PublishedRoom (D : Type) where
  newLayers : Option D
  newLayersAtFaceValue : Option D
  reusedShare : D

structure NetworkCoord (S : Type) where
  x : S
  y : S
  height : S

structure RingFacts (S : Type) where
  requestMayBeLed : Bool
  coord : Option (NetworkCoord S)
  leadsSplits : Bool
  chainsForwards : Bool

-- What the planner knows of a machine. Prices are in the single format, room for
-- layers in the double one.
structure NodeCandidate (S D : Type) where
  nodeId : NodeId
  shardId : ShardId
  availableRanges : List LayerRange
  latencyMs : Nat
  load : S
  trustScore : S
  canBeFirst : Bool
  canBeLast : Bool
  estTokensPerSec : S
  layerWork : S
  statedMsPerLayer : Option S
  observedLatencyMsPerLayer : Option S
  observedDelegatedMsPerLayer : Option S
  observedFixedMsPerVisit : Option S
  expectedAttempts : S
  goodputBytesPerSec : Option Nat
  maxHostableLayers : Option Nat
  maxHostableLayersAtFaceValue : Option Nat
  maxHostableLayersAtCeiling : Option Nat
  observedPrefillMsPerLayerByte : Option S
  hasGpu : Bool
  heldRanges : List HeldRange
  publishedRoom : Option (PublishedRoom D)
  cachedPrefixTokens : Nat
  splitOpenings : List (LayerRange × Nat)
  coldLoadMsPerLayer : S
  replyTokensAtMost : Option Nat
  replyTokensExpected : Option Nat
  splitTokensPerRound : Option S
  freshRunLayers : Option Nat
  cardLayers : Option Nat
  processorTokensPerSec : S
  promptMemoryRefused : Bool
  promptFitCountsCaches : Bool
  ring : RingFacts S
  rangeWeights : Option RangeWeights

namespace NodeCandidate

variable {S D : Type} [FloatArith S] [FloatArith D] (c : NodeCandidate S D)

def layersItWouldAdd (range : LayerRange) : Nat := layersAddedBy range c.heldRanges

def layersCharged (range : LayerRange) : Nat :=
  if c.promptMemoryRefused then range.2 - range.1 else c.layersItWouldAdd range

def chargedAtLeastItsWidth : Bool := c.promptMemoryRefused && c.promptFitCountsCaches

def capacityCharge (range : LayerRange) : D :=
  let charged := c.layersCharged range
  let base : D :=
    match c.publishedRoom with
    | some room => ofCount charged + ofCount (range.2 - range.1 - charged) * room.reusedShare
    | none => ofCount charged
  let excess : D :=
    match c.rangeWeights with
    | some w => w.excessLayers range c.heldRanges
    | none => ofCount 0
  if c.chargedAtLeastItsWidth then base + max excess (ofCount 0) else base + excess

def widthInBound (c : NodeCandidate S D) (range : LayerRange) : Nat :=
  let width := range.2 - range.1
  match c.rangeWeights with
  | none => width
  | some w =>
    let weighed := w.widthInBound D range c.heldRanges
    if c.chargedAtLeastItsWidth then max weighed width else weighed

def furthestEndInBound (start stop cap : Nat) : Nat :=
  (((List.range' (start + 1) (stop - start)).reverse.find? fun e => c.widthInBound (start, e) ≤ cap)).getD start

end NodeCandidate

def clampRoomToCeiling {D : Type} [FloatArith D] (room : Option D) (ceiling : Option Nat) : Option D :=
  match room, ceiling.map ofCount with
  | some room, some ceiling => some (min room ceiling)
  | room, ceiling => room.or ceiling

-- Whose advertised memory a pass holds to.
inductive CapacityBound where
  | everyone
  | peersAtFaceValue
  | peersAtCeiling
  | localUnbounded
  deriving DecidableEq

namespace CapacityBound

variable {S D : Type} [FloatArith D]

def bindsLocal : CapacityBound → Bool
  | .localUnbounded => false
  | _ => true

def peerCap (bound : CapacityBound) (c : NodeCandidate S D) : Option D :=
  let figure :=
    match bound, c.publishedRoom with
    | .everyone, some room => room.newLayers
    | .peersAtFaceValue, some room => room.newLayersAtFaceValue
    | .everyone, none => c.maxHostableLayers.map ofCount
    | .peersAtFaceValue, none => c.maxHostableLayersAtFaceValue.map ofCount
    | .peersAtCeiling, _ => none
    | .localUnbounded, _ => none
  clampRoomToCeiling figure c.maxHostableLayersAtCeiling

end CapacityBound

def delegateMinTrust : Rat := 1 / 2

def trustedWithThePlaintextPrompt {S D : Type} [FloatArith S] (c : NodeCandidate S D) (localNode : NodeId) : Bool :=
  decide (c.nodeId = localNode) || le (ofRat delegateMinTrust) c.trustScore

end SwarmLlm.Scheduler
