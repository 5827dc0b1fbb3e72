import SwarmLlm.Scheduler.Candidate

namespace SwarmLlm.Scheduler

open Lib FloatArith

structure VertexCost (S : Type) where
  networkMs : S
  computeMs : S
  loadMs : S
  prefillMs : S
  transferMs : S
  coldLoadMs : S

def VertexCost.total {S : Type} [FloatArith S] (cost : VertexCost S) : S :=
  cost.networkMs + cost.computeMs + cost.loadMs + cost.prefillMs + cost.transferMs + cost.coldLoadMs

inductive ChainRole where
  | drivenFromHere
  | leadsTheChain
  | inLedChain
  deriving DecidableEq

inductive DecodePrice (S : Type) where
  | measured (msPerLayer : S)
  | prior (range : LayerRange) (ahead : Nat)

section Prices

variable {S D : Type} [FloatArith S] [FloatArith D]

def loadCompensatorMs : Rat := 25

def unknownComputeMs : Rat := 25

def assumedForwardPasses : Rat := 64

def baselineLayerCount : Rat := 32

def prefillSpeedupGpu : Rat := 40

def prefillSpeedupCpu : Rat := 9 / 2

def activationBytesPerToken : Nat := 4096 * 4

def statedLayerMs (tokensPerSec layerWork : S) : S :=
  let reference : S :=
    if lt (ofRat 0) tokensPerSec then ofRat 1000 / tokensPerSec / ofRat baselineLayerCount else ofRat unknownComputeMs
  reference * layerWork

namespace NodeCandidate

variable (c : NodeCandidate S D)

def timedOver (stated : S) : S :=
  match c.statedMsPerLayer with
  | none => stated
  | some timed => max timed stated

def priorMsPerLayer : S := c.timedOver (statedLayerMs c.estTokensPerSec c.layerWork)

def processorPriorMsPerLayer : S := c.timedOver (statedLayerMs c.processorTokensPerSec c.layerWork)

variable (range : LayerRange)

def layersByDevice (ahead : Nat) : Nat × Nat :=
  let width := range.2 - range.1
  match c.cardLayers with
  | some card => (min width (card - ahead), width - min width (card - ahead))
  | none => (width, 0)

def priorMsPerLayerOver (ahead : Nat) : S :=
  let devices := c.layersByDevice range ahead
  if devices.2 = 0 then c.priorMsPerLayer
  else (ofCount devices.1 * c.priorMsPerLayer + ofCount devices.2 * c.processorPriorMsPerLayer) / ofCount (devices.1 + devices.2)

def coldLoadMs : S := c.coldLoadMsPerLayer * ofCount (c.layersItWouldAdd range)

def forwardPasses : S :=
  let expected : S :=
    match c.replyTokensExpected with
    | none => ofRat assumedForwardPasses
    | some count => ofCount (max count 1)
  match c.replyTokensAtMost with
  | none => expected
  | some most => min (ofCount (max most 1)) expected

def roundsEntered (numLayers : Nat) : S :=
  let passes := c.forwardPasses
  match c.splitTokensPerRound with
  | some perRound =>
    if range ≠ (0, numLayers) ∧ lt (ofRat 1) perRound = true then max (passes / perRound) (ofRat 1) else passes
  | none => passes

def promptTokensHeld (numLayers : Nat) : Nat :=
  if range = (0, numLayers) then c.cachedPrefixTokens
  else
    match c.splitOpenings.find? fun opening => opening.1 = range with
    | none => 0
    | some opening => opening.2

def attempts : S :=
  if isFinite c.expectedAttempts && le (ofRat 1) c.expectedAttempts then c.expectedAttempts else ofRat 1

def decodeMsPerLayer : DecodePrice S → S
  | .measured ms => ms
  | .prior range ahead => c.priorMsPerLayerOver range ahead

end NodeCandidate

def NetworkCoord.distanceMs (here there : NetworkCoord S) : S :=
  let dx := here.x - there.x
  let dy := here.y - there.y
  sqrt (dx * dx + dy * dy) + here.height + there.height

def hopOneWayMs (here there : NetworkCoord S) : S := here.distanceMs there / ofRat 2

variable (c : NodeCandidate S D)

def oneWayMs (next : NodeCandidate S D) : Option S :=
  if c.nodeId = next.nodeId then some (ofRat 0)
  else c.ring.coord.bind fun here => next.ring.coord.map fun there => hopOneWayMs here there

def ledHopMs (next : NodeCandidate S D) : Option S :=
  (oneWayMs c next).map fun oneWay => oneWay * next.forwardPasses * next.attempts

def prefillMsPerLayer (tokens : Nat) (decode : DecodePrice S) : S :=
  match c.observedPrefillMsPerLayerByte with
  | some coefficient => coefficient * ofCount tokens * ofCount activationBytesPerToken
  | none =>
    let firstSpeedup : S := ofRat (if c.hasGpu then prefillSpeedupGpu else prefillSpeedupCpu)
    match decode with
    | .measured ms => ms * ofCount tokens / firstSpeedup
    | .prior range ahead =>
      let devices := c.layersByDevice range ahead
      let perToken := ofCount devices.1 * c.priorMsPerLayer / firstSpeedup +
        ofCount devices.2 * c.processorPriorMsPerLayer / ofRat prefillSpeedupCpu
      perToken * ofCount tokens / ofCount (max (devices.1 + devices.2) 1)

def layersAheadInRun (sameMachine : Bool) (runBefore : Nat) : Nat := if sameMachine then runBefore else 0

def mayLeadAChain (localNode : NodeId) : Bool :=
  decide (c.nodeId ≠ localNode) && c.ring.requestMayBeLed && c.ring.leadsSplits && c.ring.chainsForwards && c.ring.coord.isSome

def mayJoinALedChain (localNode : NodeId) : Bool :=
  decide (c.nodeId ≠ localNode) && c.ring.chainsForwards && c.ring.coord.isSome

structure Entry where
  delegatedWholeModel : Bool
  enteredPerToken : Bool

def ChainRole.entry (role : ChainRole) (isLocal coversWholeModel : Bool) : Entry :=
  match role with
  | .drivenFromHere => ⟨!isLocal && coversWholeModel, !isLocal && !coversWholeModel⟩
  | .leadsTheChain => ⟨true, false⟩
  | .inLedChain => ⟨false, false⟩

variable [Narrows D S] (c : NodeCandidate S D)

def transferMs (range : LayerRange) (tokens : Option Nat) (entered : Bool) : S :=
  match tokens, c.goodputBytesPerSec with
  | some tokens, some bps =>
    if 0 < tokens ∧ 0 < bps ∧ entered = true ∧ range.1 ≠ 0 then
      Narrows.narrow ((ofCount tokens * ofCount activationBytesPerToken) / ofCount bps * ofRat 1000 : D)
    else ofRat 0
  | _, _ => ofRat 0

def vertexCostAs (range : LayerRange) (localNode : NodeId) (numLayers : Nat)
    (promptTokens : Option Nat) (role : ChainRole) (ahead : Nat) : VertexCost S :=
  let isLocal := decide (c.nodeId = localNode)
  let layers : S := ofCount (range.2 - range.1)
  let entry := role.entry isLocal (decide (range = (0, numLayers)))
  let inLedChain := decide (role = .inLedChain)
  let observation :=
    if entry.delegatedWholeModel || inLedChain then c.observedDelegatedMsPerLayer.or c.observedLatencyMsPerLayer
    else c.observedLatencyMsPerLayer
  let baseNetworkMs : S :=
    match observation with
    | some _ =>
      let fixed := c.observedFixedMsPerVisit.getD (ofRat 0)
      if inLedChain then max (fixed - ofCount c.latencyMs) (ofRat 0) else fixed
    | none => if isLocal || inLedChain then ofRat 0 else ofCount c.latencyMs
  let decodePrice : DecodePrice S :=
    match observation with
    | some perLayer => .measured perLayer
    | none => .prior range ahead
  let passes := if role = .drivenFromHere then c.roundsEntered range numLayers else c.forwardPasses
  let computeMs := c.decodeMsPerLayer decodePrice * layers * passes
  let networkMs := if entry.enteredPerToken || inLedChain then baseNetworkMs * passes else baseNetworkMs
  let loadMs := c.load * ofRat loadCompensatorMs
  let unread := promptTokens.map fun tokens => tokens - c.promptTokensHeld range numLayers
  let prefillMs : S :=
    match unread with
    | none => ofRat 0
    | some 0 => ofRat 0
    | some tokens => prefillMsPerLayer c tokens decodePrice * layers
  let transfer := transferMs c range unread (entry.enteredPerToken || inLedChain)
  let attempts := c.attempts
  { networkMs := networkMs * attempts
    computeMs := computeMs * attempts
    loadMs := loadMs * attempts
    prefillMs := prefillMs * attempts
    transferMs := transfer * attempts
    coldLoadMs := c.coldLoadMs range }

def vertexCost (range : LayerRange) (localNode : NodeId) (numLayers : Nat)
    (promptTokens : Option Nat) : VertexCost S :=
  vertexCostAs c range localNode numLayers promptTokens .drivenFromHere 0

end Prices

end SwarmLlm.Scheduler
