import SwarmLlm.Scheduler.ChainCost
import Mathlib.Algebra.Order.Ring.Nat
import Mathlib.Data.List.Sort
import Mathlib.Data.List.Dedup

namespace SwarmLlm.Scheduler

open Lib FloatArith

structure Search (S D : Type) where
  numLayers : Nat
  candidates : List (NodeCandidate S D)
  localNode : NodeId
  encryptedPipeline : Bool
  partialRanges : Bool
  capacity : CapacityBound
  promptTokens : Option Nat
  meetHeld : Bool

structure Clamped (S D : Type) where
  candIdx : Nat
  candidate : NodeCandidate S D
  range : LayerRange

structure Vertex (S D : Type) where
  candIdx : Nat
  candidate : NodeCandidate S D
  range : LayerRange
  costMs : S
  ledCostMs : Option S

def maxSubrangeVertices : Nat := 4096

def sortedPoints (points : List Nat) : List Nat := (points.insertionSort (· ≤ ·)).dedup

namespace Search

variable {S D : Type} (s : Search S D)

def declaredEnds (range : LayerRange) : List Nat :=
  (if range.1 < s.numLayers then [range.1] else []) ++ (if 0 < min range.2 s.numLayers then [min range.2 s.numLayers] else [])

def boomerangEnds : List Nat :=
  if s.encryptedPipeline = true ∧ 3 ≤ s.numLayers ∧ s.candidates.any (fun c => decide (c.nodeId = s.localNode) &&
      c.availableRanges.any fun range => decide (range.1 = 0) && decide (s.numLayers ≤ range.2)) = true then
    [1, s.numLayers - 1]
  else []

def heldPoints : List Nat :=
  sortedPoints ((s.candidates.flatMap fun c => c.heldRanges.flatMap fun h => [h.range.1, h.range.2]).filter
    fun point => decide (0 < point) && decide (point < s.numLayers))

def declaredPoints : List Nat :=
  sortedPoints (0 :: s.numLayers :: s.candidates.flatMap (fun c => c.availableRanges.flatMap s.declaredEnds) ++
    s.boomerangEnds ++ s.heldPoints)

def clamped : List (Clamped S D) :=
  (s.candidates.zipIdx.flatMap fun entry => entry.1.availableRanges.map fun range =>
    (⟨entry.2, entry.1, (range.1, min range.2 s.numLayers)⟩ : Clamped S D)).filter
      fun part => decide (part.range.1 < part.range.2)

def subrangeCost (points : List Nat) (parts : List (Clamped S D)) : Nat :=
  (parts.map fun part =>
    let k := (points.filter fun point => decide (part.range.1 ≤ point) && decide (point ≤ part.range.2)).length
    k * (k - 1) / 2).sum

variable [FloatArith S] [FloatArith D] (s : Search S D) (c : NodeCandidate S D)

def vertexCap : Option D :=
  if c.nodeId = s.localNode then (if s.capacity.bindsLocal then c.maxHostableLayers.map ofCount else none)
  else s.capacity.peerCap c

def freshRunOf : Option Nat :=
  if c.nodeId = s.localNode ∧ s.capacity.bindsLocal = true then c.freshRunLayers else none

def firstPassPoints (range : LayerRange) : List Nat :=
  match c.maxHostableLayers.filter (0 < ·) with
  | none => []
  | some k =>
    [c.furthestEndInBound range.1 range.2 k,
      ((List.range' range.1 (range.2 - range.1)).find? fun start => c.widthInBound (start, range.2) ≤ k).getD range.2]

def thisPassPoints (range : LayerRange) : List Nat :=
  (match s.vertexCap c with
    | none => []
    | some k =>
      [((List.range' (range.1 + 1) (range.2 - range.1)).reverse.find? fun stop =>
          le (c.capacityCharge (range.1, stop)) k).getD range.1,
        ((List.range' range.1 (range.2 - range.1)).find? fun start => le (c.capacityCharge (start, range.2)) k).getD range.2]) ++
  (match (s.freshRunOf c).filter (0 < ·) with
    | none => []
    | some w => [min (range.1 + w) range.2, max (range.2 - w) range.1])

def inside (range : LayerRange) (point : Nat) : Bool :=
  decide (range.1 < point) && decide (point < range.2) && decide (0 < point) && decide (point < s.numLayers)

def pointsOf (points : NodeCandidate S D → LayerRange → List Nat) : List Nat :=
  s.candidates.flatMap fun c => c.availableRanges.flatMap fun range =>
    let cut := (range.1, min range.2 s.numLayers)
    if cut.2 ≤ cut.1 then [] else (points c cut).filter (s.inside cut)

def withCapacity : List Nat :=
  sortedPoints (s.declaredPoints ++ s.pointsOf fun c range => firstPassPoints c range ++ s.thisPassPoints c range)

def atThisPass : List Nat := sortedPoints (s.declaredPoints ++ s.pointsOf s.thisPassPoints)

def splitPoints : List Nat :=
  if s.declaredPoints.length < s.withCapacity.length then
    if subrangeCost s.withCapacity s.clamped ≤ maxSubrangeVertices then s.withCapacity
    else if s.declaredPoints.length < s.atThisPass.length ∧ subrangeCost s.atThisPass s.clamped ≤ maxSubrangeVertices then
      s.atThisPass
    else s.declaredPoints
  else s.declaredPoints

def splitEnabled : Bool :=
  s.partialRanges && decide (subrangeCost s.splitPoints s.clamped ≤ maxSubrangeVertices)

def fits (range : LayerRange) : Bool :=
  (match s.vertexCap c with
    | none => true
    | some k => le (c.capacityCharge range) k) ||
  (match s.freshRunOf c with
    | none => false
    | some w => decide (range.2 - range.1 ≤ w))

def heldInside (part : Clamped S D) : List LayerRange :=
  (part.candidate.heldRanges.map fun h => (h.range.1, min h.range.2 s.numLayers)).filter fun range =>
    decide (part.range.1 ≤ range.1) && decide (range.2 ≤ part.range.2) && decide (range.1 < range.2) &&
      decide (range ≠ part.range)

def metAt (range : LayerRange) : List LayerRange :=
  (s.heldPoints.filter fun point => decide (range.1 < point) && decide (point < range.2)).flatMap fun point =>
    [(range.1, point), (point, range.2)]

def cuts (range : LayerRange) : List Nat → List LayerRange
  | [] => []
  | point :: rest =>
    (if range.1 ≤ point ∧ point < range.2 then
      ((rest.takeWhile fun later => decide (later ≤ range.2)).map fun later => (point, later)).filter (· ≠ range)
    else []) ++ cuts range rest

def offeredRanges (part : Clamped S D) : List LayerRange :=
  part.range ::
    if s.splitEnabled = false ∧ s.fits part.candidate part.range = true then
      s.heldInside part ++ (if s.meetHeld then s.metAt part.range else [])
    else cuts part.range s.splitPoints

variable [Narrows D S] (s : Search S D) (c : NodeCandidate S D)

def ledRole (range : LayerRange) : Option ChainRole :=
  if range.1 = 0 then (if mayLeadAChain c s.localNode then some .leadsTheChain else none)
  else if mayJoinALedChain c s.localNode then some .inLedChain else none

def vertexOf (part : Clamped S D) (range : LayerRange) : Vertex S D where
  candIdx := part.candIdx
  candidate := part.candidate
  range := range
  costMs := (vertexCost part.candidate range s.localNode s.numLayers s.promptTokens).total
  ledCostMs := (s.ledRole part.candidate range).map fun role =>
    (vertexCostAs part.candidate range s.localNode s.numLayers s.promptTokens role 0).total

def vertices : List (Vertex S D) :=
  s.clamped.flatMap fun part => ((s.offeredRanges part).filter (s.fits part.candidate)).map (s.vertexOf part)

end Search

end SwarmLlm.Scheduler
