import SwarmLlm.Scheduler.Offers
import SwarmLlm.Lib.Relaxation

namespace SwarmLlm.Scheduler

open Lib FloatArith

structure Mark (S : Type) where
  cost : S
  parent : Option Nat
  usedCapped : BitVec 64
  localBase : Nat
  localRun : Option Nat
  localRuns : Nat
  closedWidth : Nat
  runWidth : Nat

structure Share where
  base : Nat
  run : Option Nat
  runs : Nat
  width : Nat

structure Found (S : Type) where
  parent : Nat → Option Nat
  sink : Nat
  cost : S

def noteFirst (seen : List Nat) (idx : Nat) : List Nat := if seen.contains idx then seen else seen ++ [idx]

namespace Search

variable {S D : Type} [FloatArith S] (s : Search S D)

def sourceOk (v : Vertex S D) (applyTrust : Bool) : Bool :=
  decide (v.range.1 = 0) && v.candidate.canBeFirst &&
    !(s.encryptedPipeline && decide (v.candidate.nodeId ≠ s.localNode)) &&
    !(applyTrust && !trustedWithThePlaintextPrompt v.candidate s.localNode)

def isSink (v : Vertex S D) : Bool :=
  decide (v.range.2 = s.numLayers) && v.candidate.canBeLast &&
    !(s.encryptedPipeline && decide (v.candidate.nodeId ≠ s.localNode))

def localCandidate : Option (NodeCandidate S D) := s.candidates.find? fun c => c.nodeId = s.localNode

def localCap : Option Nat :=
  if s.capacity.bindsLocal then (s.localCandidate.bind NodeCandidate.maxHostableLayers).map (max · 1) else none

def localFreshRun : Option Nat :=
  if s.capacity.bindsLocal then s.localCandidate.bind NodeCandidate.freshRunLayers else none

def isLocal (v : Vertex S D) : Bool := decide (v.candidate.nodeId = s.localNode)

def localAdded (range : LayerRange) : Nat :=
  match s.localCandidate with
  | none => range.2 - range.1
  | some c => c.layersCharged range

def localTotal (base : Nat) (run : Option Nat) (stop : Nat) : Nat :=
  match run with
  | none => base
  | some start => satAddU32 base (s.localAdded (start, stop))

def withinLocalCap (total : Nat) : Bool :=
  match s.localCap with
  | none => true
  | some cap => decide (total ≤ cap)

def localFits (share : Share) (stop : Nat) : Bool :=
  s.withinLocalCap (s.localTotal share.base share.run stop) ||
    match s.localFreshRun, share.runs, share.run with
    | some width, 1, some start => decide (stop - start ≤ width)
    | some width, 1, none => decide (share.width ≤ width)
    | _, _, _ => false

def shareAt (mark : Mark S) (v w : Vertex S D) : Share :=
  match s.isLocal w, mark.localRun with
  | true, some start => ⟨mark.localBase, some start, mark.localRuns, mark.closedWidth⟩
  | true, none => ⟨mark.localBase, some w.range.1, min (mark.localRuns + 1) 2, mark.closedWidth⟩
  | false, some start => ⟨s.localTotal mark.localBase (some start) v.range.2, none, mark.localRuns,
      if mark.localRuns = 1 then v.range.2 - start else mark.closedWidth⟩
  | false, none => ⟨mark.localBase, none, mark.localRuns, mark.closedWidth⟩

variable [FloatArith D] (s : Search S D)

def isCapped (c : NodeCandidate S D) : Bool :=
  decide (c.nodeId ≠ s.localNode) && (s.capacity.peerCap c).isSome

-- The peers held to a figure, each by its place; past 64 of them none is tracked.
def cappedPeers (vertices : List (Vertex S D)) : List Nat :=
  let seen := ((vertices.filter fun v => s.isCapped v.candidate).map Vertex.candIdx).foldl noteFirst []
  if 64 < seen.length then [] else seen

def bitOf (capped : List Nat) (v : Vertex S D) : BitVec 64 :=
  match capped.idxOf? v.candIdx with
  | none => 0#64
  | some place => 1#64 <<< place

variable [Narrows D S] (s : Search S D)

def costInRun (v : Vertex S D) (ahead : Nat) (led : Bool) : Option S :=
  let precomputed := if led then v.ledCostMs else some v.costMs
  if ahead = 0 ∨ v.candidate.cardLayers = none then precomputed
  else
    let role : ChainRole := if !led then .drivenFromHere else if v.range.1 = 0 then .leadsTheChain else .inLedChain
    precomputed.map fun _ => (vertexCostAs v.candidate v.range s.localNode s.numLayers s.promptTokens role ahead).total

def stepCost (v w : Vertex S D) (ahead : Nat) (led : Bool) : Option S :=
  if led then
    (s.costInRun w ahead true).bind fun own => (ledHopMs v.candidate w.candidate).map fun hop => own + hop
  else s.costInRun w ahead false

section Pass

variable (s : Search S D) (vertices : List (Vertex S D)) (capped : List Nat)

def unreached : Mark S := ⟨infinity, none, 0#64, 0, none, 0, 0, 0⟩

def seedCost (ledBy : Option Nat) (i : Nat) (v : Vertex S D) : Option S :=
  match ledBy with
  | none => some v.costMs
  | some head => if i = head then v.ledCostMs else none

def seedMark (applyTrust : Bool) (ledBy : Option Nat) (i : Nat) : Mark S :=
  match vertices[i]? with
  | none => unreached
  | some v =>
    if s.sourceOk v applyTrust then
      match seedCost ledBy i v with
      | none => unreached
      | some seed =>
        let run := if s.isLocal v then some v.range.1 else none
        let runs := if s.isLocal v then 1 else 0
        if s.localFits ⟨0, run, runs, 0⟩ v.range.2 then
          ⟨seed, none, bitOf capped v, 0, run, runs, 0, v.range.2 - v.range.1⟩
        else unreached
    else unreached

def goOn (led : Bool) (i : Nat) (mark : Mark S) (v w : Vertex S D) : Option (Mark S) :=
  if isFinite mark.cost = false ∨ s.numLayers ≤ v.range.2 ∨ w.range.1 ≠ v.range.2 then none
  else if bitOf capped w ≠ 0#64 ∧ mark.usedCapped &&& bitOf capped w ≠ 0#64 then none
  else
    let share := s.shareAt mark v w
    if s.localFits share w.range.2 = false then none
    else
      let ahead := layersAheadInRun (decide (w.candIdx = v.candIdx)) mark.runWidth
      (s.stepCost v w ahead led).map fun step =>
        ⟨mark.cost + step, some i, mark.usedCapped ||| bitOf capped w, share.base, share.run, share.runs, share.width,
          ahead + (w.range.2 - w.range.1)⟩

def extendMark (led : Bool) (i : Nat) (mark : Mark S) (j : Nat) : Option (Mark S) :=
  vertices[i]?.bind fun v => vertices[j]?.bind fun w => s.goOn capped led i mark v w

def cheaper (new old : Mark S) : Bool := lt new.cost old.cost

def startsBefore (a b : Vertex S D) : Prop := a.range.1 < b.range.1 ∨ (a.range.1 = b.range.1 ∧ a.range.2 ≤ b.range.2)

instance (a b : Vertex S D) : Decidable (startsBefore a b) := inferInstanceAs (Decidable (_ ∨ _))

def order : List Nat :=
  (vertices.zipIdx.insertionSort fun a b => startsBefore a.1 b.1).map Prod.snd

def board (applyTrust : Bool) (ledBy : Option Nat) : Nat → Mark S :=
  relaxAll (s.extendMark vertices capped ledBy.isSome) cheaper (order vertices) (order vertices)
    (s.seedMark vertices capped applyTrust ledBy)

def sinkCost (ledBy : Option Nat) (i : Nat) (cost : S) : Option S :=
  match ledBy with
  | none => some cost
  | some head =>
    if i = head then none
    else vertices[i]?.bind fun v => vertices[head]?.bind fun h =>
      (ledHopMs v.candidate h.candidate).map fun closing => cost + closing

def sinks (ledBy : Option Nat) (marks : Nat → Mark S) : List (Nat × S) :=
  (vertices.zipIdx.filter fun entry => s.isSink entry.1).filterMap fun entry =>
    (sinkCost vertices ledBy entry.2 (marks entry.2).cost).map fun cost => (entry.2, cost)

def runPass (applyTrust : Bool) (ledBy : Option Nat) : Option (Found S) :=
  let marks := s.board vertices capped applyTrust ledBy
  match minBy (fun a b => lt a.2 b.2) (s.sinks vertices ledBy marks) with
  | none => none
  | some (sink, cost) => if isFinite cost then some ⟨fun i => (marks i).parent, sink, cost⟩ else none

def heads : List Nat :=
  (vertices.zipIdx.filter fun entry => decide (entry.1.range.1 = 0) && entry.1.ledCostMs.isSome).map Prod.snd

def betterOf (best led : Option (Found S)) : Option (Found S) :=
  match best, led with
  | best, none => best
  | none, some led => some led
  | some best, some led => if lt led.cost best.cost then some led else some best

-- The driven pass, then one pass for each head that may lead.
def searchWith (applyTrust : Bool) : Option (Found S) :=
  (heads vertices).foldl (fun best head => betterOf best (s.runPass vertices capped applyTrust (some head)))
    (s.runPass vertices capped applyTrust none)

end Pass

def segmentOf (v : Vertex S D) : PipelineSegment := ⟨v.candidate.nodeId, v.candidate.shardId, v.range⟩

def mergeRuns : List LayerRange → List LayerRange → List LayerRange
  | runs, [] => runs
  | runs, range :: rest =>
    match runs.getLast? with
    | some last => if last.2 = range.1 then mergeRuns (runs.dropLast ++ [(last.1, range.2)]) rest
        else mergeRuns (runs ++ [range]) rest
    | none => mergeRuns [range] rest

def localRunsOf (segments : List PipelineSegment) : List LayerRange :=
  mergeRuns [] ((segments.filter fun segment => segment.nodeId = s.localNode).map PipelineSegment.layerRange)

def oneFreshRun (runs : List LayerRange) : Bool :=
  match runs, s.localFreshRun with
  | [(start, stop)], some width => decide (stop - start ≤ width)
  | _, _ => false

def overLimit (segments : List PipelineSegment) : Option (Nat × Nat) :=
  if s.capacity.bindsLocal then
    match s.localCandidate.bind NodeCandidate.maxHostableLayers with
    | none => none
    | some cap =>
      let runs := s.localRunsOf segments
      let ours := (runs.map s.localAdded).sum
      if max cap 1 < ours ∧ s.oneFreshRun runs = false then some (ours, cap) else none
  else none

def reach : Nat → List PipelineSegment → Except Nat Nat
  | expect, [] => .ok expect
  | expect, segment :: rest => if segment.layerRange.1 ≠ expect then .error expect else reach segment.layerRange.2 rest

def checkRoute (segments : List PipelineSegment) : Except String (List PipelineSegment) :=
  match s.overLimit segments with
  | some (ours, cap) => .error ("parallax: this node would take " ++ toString ours ++ " layers across its segments, " ++
      "more than the " ++ toString cap ++ " it can hold")
  | none =>
    match reach 0 segments with
    | .error expect => .error ("parallax: non-contiguous chain at layer " ++ toString expect)
    | .ok expect =>
      if expect ≠ s.numLayers then
        .error ("parallax: chain ends at " ++ toString expect ++ ", want " ++ toString s.numLayers)
      else .ok segments

-- The vertices of the path, first to last. Each starts before the one after it, so
-- there are no more of them than layers.
def pathTo (found : Found S) : List Nat := (traceBack found.parent s.numLayers (some found.sink)).reverse

def segmentsOf (vertices : List (Vertex S D)) (path : List Nat) : List PipelineSegment :=
  path.filterMap fun i => vertices[i]?.map segmentOf

def found? (vertices : List (Vertex S D)) (capped : List Nat) : Option (Found S) :=
  (s.searchWith vertices capped true).or (s.searchWith vertices capped false)

def routeOver : Except String (List PipelineSegment) :=
  if s.numLayers = 0 then .error "num_layers=0"
  else
    let vertices := s.vertices
    if vertices.isEmpty then .error "parallax: no candidate ranges"
    else if !vertices.any (s.sourceOk · false) then
      .error "parallax: no valid source vertex (starts at layer 0, can_be_first)"
    else if !vertices.any s.isSink then .error "parallax: no valid sink vertex (ends at num_layers, can_be_last)"
    else
      match s.found? vertices (s.cappedPeers vertices) with
      | none => .error "parallax: no reachable source→sink path"
      | some found => s.checkRoute (segmentsOf vertices (s.pathTo found))

end Search

section Routes

variable {S D : Type} [FloatArith S] [FloatArith D] [Narrows D S]

def routeShortestPath (numLayers : Nat) (candidates : List (NodeCandidate S D)) (localNode : NodeId)
    (encryptedPipeline partialRanges : Bool) (capacity : CapacityBound) (promptTokens : Option Nat) :
    Except String (List PipelineSegment) :=
  let routed := (Search.mk numLayers candidates localNode encryptedPipeline partialRanges capacity promptTokens false).routeOver
  match routed with
  | .ok segments => .ok segments
  | .error reason =>
    if !partialRanges && candidates.any fun c => !c.heldRanges.isEmpty then
      match (Search.mk numLayers candidates localNode encryptedPipeline partialRanges capacity promptTokens true).routeOver with
      | .ok segments => .ok segments
      | .error _ => .error reason
    else .error reason

end Routes

end SwarmLlm.Scheduler
