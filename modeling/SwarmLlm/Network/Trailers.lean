import SwarmLlm.Network.LayerForward

namespace SwarmLlm.Network

open Lib

def maxTreeRows : Nat := 512

def maxDraftTokens : Nat := maxTreeRows

def maxImageSpans : Nat := 256

def maxKeys : Nat := 8192

def u8Max : Nat := 255

def u16Max : Nat := 65535

def TpPhase.byte : TpPhase → UInt8
  | .full => 0
  | .attnOnly => 1
  | .ffnOnly => 2
  | .embedOnly => 3

def flagByte (flag : Bool) : UInt8 := if flag then 1 else 0

def tpMetaBytes (entry : TensorParallelMeta × Bool) : Bytes :=
  entry.1.tpRank :: entry.1.tpSize :: (u32Bytes entry.1.singleLayer ++ [entry.1.phase.byte, flagByte entry.2])

variable (forward : LayerForward)

def tpMetaTrailer : Bytes :=
  optionalPart 0x02 tpMetaBytes (forward.tpMeta.map fun tp => (tp, forward.preEmbedded))

def specFlagLogits : UInt8 := 0x01

def specFlagWalkAtTail : UInt8 := 0x02

def specTrailerFlags : UInt8 :=
  (if forward.specLogitsRequested then specFlagLogits else 0) ||| (if forward.specWalkAtTail then specFlagWalkAtTail else 0)

def LayerForward.speculates : Bool := !forward.draftTokens.isEmpty || forward.specLogitsRequested

def specTrailer : Bytes :=
  if forward.speculates then
    0x03 :: specTrailerFlags forward :: (leBytes 2 forward.draftTokens.length ++ forward.draftTokens.flatMap u32Bytes)
  else []

def truncateKvTrailer : Bytes := optionalPart 0x04 u32Bytes forward.truncateKvTo

def chunkBytes (chunk : ChunkMeta) : Bytes := u32Bytes chunk.chunkIdx ++ u32Bytes chunk.totalChunks

def chunkMetaTrailer : Bytes := optionalPart 0x05 chunkBytes forward.chunkMeta

def hopBytes (hop : ChainHop) : Bytes :=
  hop.nodeId.bytes.toList ++ (u32Bytes hop.layerRange.1 ++ u32Bytes hop.layerRange.2)

def chainTrailer : Bytes := countedPart 0x06 1 u8Max hopBytes forward.chain

def replyToTrailer : Bytes :=
  optionalPart 0x07 (fun node : Vector UInt8 32 => node.toList) forward.requesterNodeId

def generatedIdsTrailer : Bytes := countedPart 0x08 2 u16Max u32Bytes forward.generatedIds

def preEmbeddedTrailer : Bytes :=
  if !forward.preEmbedded || forward.tpMeta.isSome then [] else [0x09, 0x01]

def samplingBytes (sampling : SamplingParams) : Bytes :=
  u32Bytes sampling.temperature.bits ++ (u32Bytes sampling.topP.bits ++ (u32Bytes sampling.topK ++
    (u32Bytes sampling.frequencyPenalty.bits ++ (u32Bytes sampling.presencePenalty.bits ++
      [flagByte sampling.logprobs, (min sampling.topLogprobs 255).toUInt8]))))

def samplingTrailer : Bytes := optionalPart 0x0A samplingBytes forward.sampling

def couplingTrailer : Bytes := optionalPart 0x0B u64Bytes forward.couplingSeed

def streamTrailer : Bytes := optionalPart 0x0C u32Bytes forward.streamSeq

def promptCacheBytes (hint : PromptCacheHint) : Bytes :=
  u32Bytes hint.blockTokens ++ (u32Bytes hint.resumeAt ++ (leBytes 4 hint.keys.length ++ hint.keys.flatMap fun key => key.toList))

def promptCacheTrailer : Bytes := optionalPart 0x0D promptCacheBytes forward.promptCache

def spanBytes (span : PromptSpan) : Bytes := u32Bytes span.start ++ u32Bytes span.stop

def promptSpanTrailer : Bytes := optionalPart 0x0E spanBytes forward.promptSpan

def imageSpansTrailer : Bytes := countedPart 0x0F 2 maxImageSpans spanBytes forward.imageSpans

def draftTreeTrailer : Bytes := countedPart 0x10 2 maxTreeRows u16Bytes forward.draftParents

def draftTreeFlowTrailer : Bytes :=
  if forward.draftParents.isEmpty then [] else optionalPart 0x11 u32Bytes forward.draftTreeFrom

def streamLookaheadTrailer : Bytes := optionalPart 0x12 u32Bytes forward.streamLookahead

def streamBranchBytes : StreamBranch → Bytes
  | .spare of kept token => 0 :: (u32Bytes of ++ (u32Bytes kept ++ u32Bytes token))
  | .afterSpare spare => 1 :: u32Bytes spare

def streamBranchTrailer : Bytes := optionalPart 0x13 streamBranchBytes forward.streamBranch

def trailerParts : List (UInt8 × Bytes) :=
  [(0x02, tpMetaTrailer forward), (0x03, specTrailer forward), (0x04, truncateKvTrailer forward),
    (0x05, chunkMetaTrailer forward), (0x06, chainTrailer forward), (0x07, replyToTrailer forward),
    (0x08, generatedIdsTrailer forward), (0x09, preEmbeddedTrailer forward), (0x0A, samplingTrailer forward),
    (0x0B, couplingTrailer forward), (0x0C, streamTrailer forward), (0x0D, promptCacheTrailer forward),
    (0x0E, promptSpanTrailer forward), (0x0F, imageSpansTrailer forward), (0x10, draftTreeTrailer forward),
    (0x11, draftTreeFlowTrailer forward), (0x12, streamLookaheadTrailer forward),
    (0x13, streamBranchTrailer forward)]

def trailers : Bytes := (trailerParts forward).flatMap Prod.snd

abbrev ForwardReader (R : Type) := Reader SwarmError R

def f32At (data : Bytes) (start : Nat) : Checked SwarmError F32 := do return ⟨← u32At data start⟩

def TpPhase.ofByte : UInt8 → TpPhase
  | 1 => .attnOnly
  | 2 => .ffnOnly
  | 3 => .embedOnly
  | _ => .full

variable (data : Bytes) (cursor : Nat)

def parseTpMeta : Checked SwarmError (TensorParallelMeta × Bool) := do
  let tpRank ← byteAt data (cursor + 1)
  let tpSize ← byteAt data (cursor + 2)
  let singleLayer ← u32At data (cursor + 3)
  let phase ← byteAt data (cursor + 7)
  let preEmbedded ← byteAt data (cursor + 8)
  return (⟨tpRank, tpSize, singleLayer, .ofByte phase⟩, decide (preEmbedded ≠ 0))

def readTpMetaTrailer : ForwardReader (Option TensorParallelMeta × Bool) := do
  match ← readFixed 0x02 9 parseTpMeta with
  | some (tp, preEmbedded) => pure (some tp, preEmbedded)
  | none => pure (none, false)

def readSpecTrailer : ForwardReader (List UInt32 × Bool × Bool) := fun data cursor => do
  if data.length < cursor + 4 then return (([], false, false), cursor)
  if (← byteAt data cursor) ≠ 0x03 then return (([], false, false), cursor)
  let flags ← byteAt data (cursor + 1)
  let numDrafts ← wordAt 2 data (cursor + 2)
  if maxDraftTokens < numDrafts then refuse (.network s!"num_drafts {numDrafts} > {maxDraftTokens}")
  if data.length < cursor + 4 + numDrafts * 4 then refuse (.network "draft_tokens truncated")
  let drafts ← readEach 4 u32At data (cursor + 4) numDrafts
  return ((drafts, decide (flags &&& specFlagLogits ≠ 0), decide (flags &&& specFlagWalkAtTail ≠ 0)), cursor + 4 + numDrafts * 4)

def readTruncateKvTrailer : ForwardReader (Option UInt32) := readFixed 0x04 5 fun data cursor => u32At data (cursor + 1)

def ChunkMeta.invalid (chunk : ChunkMeta) : Bool := chunk.totalChunks == 0 || decide (chunk.totalChunks ≤ chunk.chunkIdx)

def ChunkMeta.refusal (chunk : ChunkMeta) : SwarmError :=
  .network s!"Invalid chunk_meta: chunk_idx={chunk.chunkIdx}, total_chunks={chunk.totalChunks}"

def parseChunkMeta : Checked SwarmError ChunkMeta := do
  let chunk : ChunkMeta := ⟨← u32At data (cursor + 1), ← u32At data (cursor + 5)⟩
  if chunk.invalid then refuse chunk.refusal
  return chunk

def readChunkMetaTrailer : ForwardReader (Option ChunkMeta) := readFixed 0x05 9 parseChunkMeta

def readHops (data : Bytes) : Nat → Nat → Checked SwarmError (Option (List ChainHop))
  | _, 0 => .ok (some [])
  | start, count + 1 => do
    let node ← arrayAt 32 data start
    let layerStart ← u32At data (start + 32)
    let layerEnd ← u32At data (start + 36)
    if layerEnd ≤ layerStart then return none
    match ← readHops data (start + 40) count with
    | some hops => return some (⟨⟨node⟩, (layerStart, layerEnd)⟩ :: hops)
    | none => return none

def readChainTrailer : ForwardReader (List ChainHop) := fun data cursor => do
  if data.length < cursor + 2 then return ([], cursor)
  if (← byteAt data cursor) ≠ 0x06 then return ([], cursor)
  let count ← wordAt 1 data (cursor + 1)
  if count == 0 || data.length < cursor + 2 + count * 40 then return ([], cursor)
  match ← readHops data (cursor + 2) count with
  | some hops => return (hops, cursor + 2 + count * 40)
  | none => return ([], cursor)

def readReplyToTrailer : ForwardReader (Option (Vector UInt8 32)) :=
  readFixed 0x07 33 fun data cursor => arrayAt 32 data (cursor + 1)

def readGeneratedIdsTrailer : ForwardReader (List UInt32) := readCounted 0x08 2 (· == 0) 4 u32At

def readPreEmbeddedTrailer : ForwardReader Bool := do
  let flag ← readFixed 0x09 2 fun data cursor => do return decide ((← byteAt data (cursor + 1)) &&& 0x01 ≠ 0)
  pure (flag.getD false)

def parseSampling : Checked SwarmError SamplingParams := do
  let temperature ← f32At data (cursor + 1)
  let topP ← f32At data (cursor + 5)
  let topK ← u32At data (cursor + 9)
  let frequencyPenalty ← f32At data (cursor + 13)
  let presencePenalty ← f32At data (cursor + 17)
  let flags ← byteAt data (cursor + 21)
  let topLogprobs ← byteAt data (cursor + 22)
  return { SamplingParams.default with
    temperature := temperature
    topP := topP
    topK := topK
    frequencyPenalty := frequencyPenalty
    presencePenalty := presencePenalty
    logprobs := decide (flags &&& 0x01 ≠ 0)
    topLogprobs := topLogprobs.toUInt32 }

def readSamplingTrailer : ForwardReader (Option SamplingParams) := readFixed 0x0A 23 parseSampling

def readCouplingTrailer : ForwardReader (Option UInt64) := readFixed 0x0B 9 fun data cursor => u64At data (cursor + 1)

def readStreamTrailer : ForwardReader (Option UInt32) := readFixed 0x0C 5 fun data cursor => u32At data (cursor + 1)

def readPromptCacheTrailer : ForwardReader (Option PromptCacheHint) := fun data cursor => do
  if data.length < cursor + 13 then return (none, cursor)
  if (← byteAt data cursor) ≠ 0x0D then return (none, cursor)
  let blockTokens ← u32At data (cursor + 1)
  let resumeAt ← u32At data (cursor + 5)
  let count ← wordAt 4 data (cursor + 9)
  let stop := cursor + 13 + count * 32
  if maxKeys < count || data.length < stop then return (none, cursor)
  let keys ← readEach 32 (arrayAt 32) data (cursor + 13) count
  return (some ⟨blockTokens, keys, resumeAt⟩, stop)

def spanAt (start : Nat) : Checked SwarmError PromptSpan := do
  return ⟨← u32At data start, ← u32At data (start + 4)⟩

def readPromptSpanTrailer : ForwardReader (Option PromptSpan) := readFixed 0x0E 9 fun data cursor => spanAt data (cursor + 1)

def readImageSpansTrailer : ForwardReader (List PromptSpan) := readCounted 0x0F 2 (fun count => maxImageSpans < count) 8 spanAt

def readDraftTreeTrailer : ForwardReader (List UInt16) := fun data cursor => do
  if data.length ≤ cursor then return ([], cursor)
  if (← byteAt data cursor) ≠ 0x10 then return ([], cursor)
  if data.length < cursor + 3 then refuse (.network "draft-tree trailer truncated")
  let count ← wordAt 2 data (cursor + 1)
  if count == 0 || maxTreeRows < count || data.length < cursor + 3 + count * 2 then
    refuse (.network s!"draft-tree trailer of {count} rows refused")
  let parents ← readEach 2 u16At data (cursor + 3) count
  return (parents, cursor + 3 + count * 2)

def readDraftTreeFlowTrailer (hasTree : Bool) : ForwardReader (Option UInt32) :=
  readStrict 0x11 5 (.network "tree-flow trailer truncated") fun data cursor => do
    if !hasTree then refuse (.network "tree-flow trailer with no tree beside it refused")
    u32At data (cursor + 1)

def readStreamLookaheadTrailer : ForwardReader (Option UInt32) :=
  readStrict 0x12 5 (.network "look-ahead trailer truncated") fun data cursor => u32At data (cursor + 1)

def readStreamBranchTrailer : ForwardReader (Option StreamBranch) := fun data cursor => do
  if data.length ≤ cursor then return (none, cursor)
  if (← byteAt data cursor) ≠ 0x13 then return (none, cursor)
  match data[cursor + 1]? with
  | none => refuse (.network "branch trailer truncated")
  | some kind =>
    if kind = 0 then
      if data.length < cursor + 14 then refuse (.network "branch trailer truncated")
      return (some (.spare (← u32At data (cursor + 2)) (← u32At data (cursor + 6)) (← u32At data (cursor + 10))), cursor + 14)
    else if kind = 1 then
      if data.length < cursor + 6 then refuse (.network "branch trailer truncated")
      return (some (.afterSpare (← u32At data (cursor + 2))), cursor + 6)
    else refuse (.network s!"branch trailer of unknown kind {kind} refused")

def readTrailers (header : LayerForward) : ForwardReader LayerForward := do
  let (tpMeta, tpPreEmbedded) ← readTpMetaTrailer
  let (draftTokens, specLogitsRequested, specWalkAtTail) ← readSpecTrailer
  let truncateKvTo ← readTruncateKvTrailer
  let chunkMeta ← readChunkMetaTrailer
  let chain ← readChainTrailer
  let requesterNodeId ← readReplyToTrailer
  let generatedIds ← readGeneratedIdsTrailer
  let preEmbeddedTrailer ← readPreEmbeddedTrailer
  let sampling ← readSamplingTrailer
  let couplingSeed ← readCouplingTrailer
  let streamSeq ← readStreamTrailer
  let promptCache ← readPromptCacheTrailer
  let promptSpan ← readPromptSpanTrailer
  let imageSpans ← readImageSpansTrailer
  let draftParents ← readDraftTreeTrailer
  let draftTreeFrom ← readDraftTreeFlowTrailer (!draftParents.isEmpty)
  let streamLookahead ← readStreamLookaheadTrailer
  let streamBranch ← readStreamBranchTrailer
  pure
    { header with
      tpMeta, chain, requesterNodeId, preEmbedded := tpPreEmbedded || preEmbeddedTrailer, generatedIds, sampling,
      draftTokens, specLogitsRequested, specWalkAtTail, couplingSeed, streamSeq, truncateKvTo, promptCache, chunkMeta,
      promptSpan, imageSpans, draftParents, draftTreeFrom, streamLookahead, streamBranch }

end SwarmLlm.Network
