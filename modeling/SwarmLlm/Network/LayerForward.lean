import SwarmLlm.Types
import SwarmLlm.Lib.Cursor

namespace SwarmLlm.Network

open Lib

structure F32 where
  bits : UInt32
  deriving DecidableEq

namespace F32

variable (value : F32)

def magnitude : Int := (value.bits &&& 0x7FFFFFFF).toNat

def rank : Int := if value.bits &&& 0x80000000 = 0 then value.magnitude else -value.magnitude

def isFinite : Bool := value.bits &&& 0x7F800000 ≠ 0x7F800000

def isNan : Bool := !value.isFinite && value.bits &&& 0x007FFFFF ≠ 0

def lt (left right : F32) : Bool := !left.isNan && !right.isNan && left.rank < right.rank

def clamp (low high : F32) : F32 :=
  if value.rank < low.rank then low else if high.rank < value.rank then high else value

def zero : F32 := ⟨0x00000000⟩
def one : F32 := ⟨0x3F800000⟩
def two : F32 := ⟨0x40000000⟩
def minusTwo : F32 := ⟨0xC0000000⟩
def epsilon : F32 := ⟨0x34000000⟩
def minusInfinity : F32 := ⟨0xFF800000⟩

end F32

structure SamplingParams where
  temperature : F32
  topP : F32
  topK : UInt32
  maxTokens : UInt32
  maxTokensExplicit : Bool
  stop : List String
  frequencyPenalty : F32
  presencePenalty : F32
  logprobs : Bool
  topLogprobs : UInt32
  deriving DecidableEq

def defaultReplyBudget : UInt32 := 2048

def SamplingParams.default : SamplingParams :=
  ⟨⟨0x3F333333⟩, ⟨0x3F666666⟩, 40, defaultReplyBudget, false, [], .zero, .zero, false, 0⟩

def defaultMaxTokens : UInt32 := 32768

def maxStopSequences : Nat := 16

def finiteOr (value fallback : F32) : F32 := if value.isFinite then value else fallback

def clampPeerSampling (sampling : SamplingParams) : SamplingParams :=
  { sampling with
    temperature := (finiteOr sampling.temperature .one).clamp .zero .two
    topP := (finiteOr sampling.topP .one).clamp .epsilon .one
    frequencyPenalty := (finiteOr sampling.frequencyPenalty .zero).clamp .minusTwo .two
    presencePenalty := (finiteOr sampling.presencePenalty .zero).clamp .minusTwo .two
    maxTokens := max 1 (min sampling.maxTokens defaultMaxTokens)
    topLogprobs := min sampling.topLogprobs 20
    stop := sampling.stop.take maxStopSequences }

inductive TensorFormat where
  | fp16
  | fp32
  | int8
  deriving DecidableEq

inductive TpPhase where
  | full
  | attnOnly
  | ffnOnly
  | embedOnly
  deriving DecidableEq

structure TensorParallelMeta where
  tpRank : UInt8
  tpSize : UInt8
  singleLayer : UInt32
  phase : TpPhase
  deriving DecidableEq

structure ChainHop where
  nodeId : NodeId
  layerRange : UInt32 × UInt32
  deriving DecidableEq

structure ChunkMeta where
  chunkIdx : UInt32
  totalChunks : UInt32
  deriving DecidableEq

structure PromptSpan where
  start : UInt32
  stop : UInt32
  deriving DecidableEq

structure PromptCacheHint where
  blockTokens : UInt32
  keys : List (Vector UInt8 32)
  resumeAt : UInt32
  deriving DecidableEq

inductive StreamBranch where
  | spare (of kept token : UInt32)
  | afterSpare (spare : UInt32)
  deriving DecidableEq

structure LayerForward where
  requestId : Uuid
  sequenceNum : UInt32
  indexPos : UInt32
  activations : Bytes
  format : TensorFormat
  modelId : String
  layerRange : UInt32 × UInt32
  tpMeta : Option TensorParallelMeta
  visionEmbeddings : Option Bytes
  chain : List ChainHop
  senderPeerBytes : Option Bytes
  requesterNodeId : Option (Vector UInt8 32)
  preEmbedded : Bool
  generatedIds : List UInt32
  sampling : Option SamplingParams
  adapterId : Option String
  draftTokens : List UInt32
  specLogitsRequested : Bool
  specWalkAtTail : Bool
  couplingSeed : Option UInt64
  streamSeq : Option UInt32
  truncateKvTo : Option UInt32
  promptCache : Option PromptCacheHint
  chunkMeta : Option ChunkMeta
  promptSpan : Option PromptSpan
  imageSpans : List PromptSpan
  draftParents : List UInt16
  draftTreeFrom : Option UInt32
  streamLookahead : Option UInt32
  streamBranch : Option StreamBranch
  deriving DecidableEq

end SwarmLlm.Network
