import SwarmLlm.Network.Plain

namespace SwarmLlm.Network

open Lib

inductive NetworkFinishReason where
  | stop
  | maxTokens
  | error (message : String)
  deriving DecidableEq

inductive ForwardRefusal where
  | undecryptable
  deriving DecidableEq

def ForwardRefusal.wireCode : ForwardRefusal → UInt8
  | .undecryptable => 1

def ForwardRefusal.fromWireCode : UInt8 → Option ForwardRefusal
  | 1 => some .undecryptable
  | _ => none

structure ResultStep where
  indexPos : UInt32
  layerRange : UInt32 × UInt32
  streamSeq : Option UInt32
  deriving DecidableEq

structure LayerResult (L : Type) where
  requestId : Uuid
  tokenIds : List UInt32
  finishReason : Option NetworkFinishReason
  activations : Bytes
  sealedTokenIds : Option Bytes
  specLogits : List (List F32)
  matchedStopSequence : Option String
  tokenLogprobs : List L
  locallyConstructed : Bool
  refusal : Option ForwardRefusal
  answersStep : Option ResultStep
  promptBlocksStored : Option UInt32
  servedUs : Option UInt32
  deriving DecidableEq

-- `String::from_utf8_lossy`, and serde_json at the type of the log probabilities.
structure ResultLibs (L : Type) where
  fromUtf8Lossy : Bytes → String
  toJson : List L → Except String Bytes
  fromJson : Bytes → Except String (List L)

def tensorTagResult : UInt8 := 0x02

def maxResultTokens : Nat := 65536

def maxSpecLogitsPositions : Nat := 32

def maxSpecLogitsVocab : Nat := 512000

def maxLogprobsJsonBytes : Nat := 4 * 1024 * 1024

def maxTextBytes : Nat := 4096

def isCharBoundary : List Char → Nat → Bool
  | _, 0 => true
  | [], _ + 1 => false
  | symbol :: rest, place => decide (symbol.utf8Size ≤ place) && isCharBoundary rest (place - symbol.utf8Size)

def charBoundaryBelow (text : List Char) : Nat → Nat
  | 0 => 0
  | place + 1 => if isCharBoundary text (place + 1) then place + 1 else charBoundaryBelow text place

def capUtf8ToBytes (text : String) (max : Nat) : Bytes :=
  let bytes := utf8 text
  bytes.take (charBoundaryBelow text.toList (min bytes.length max))

def sizedBytes (bytes : Bytes) : Bytes := leBytes 4 bytes.length ++ bytes

def finishReasonBytes : Option NetworkFinishReason → Bytes
  | none => [0]
  | some .stop => [1]
  | some .maxTokens => [2]
  | some (.error message) => 3 :: sizedBytes (capUtf8ToBytes message maxTextBytes)

def logitsBytes (logits : List F32) : Bytes :=
  leBytes 4 logits.length ++ logits.flatMap fun value => u32Bytes value.bits

def specLogitsTrailer (specLogits : List (List F32)) : Bytes :=
  if specLogits.isEmpty then [] else 0x03 :: (leBytes 2 specLogits.length ++ specLogits.flatMap logitsBytes)

def stepBytes (step : ResultStep) : Bytes :=
  u32Bytes step.indexPos ++ (u32Bytes step.layerRange.1 ++ u32Bytes step.layerRange.2)

variable {L : Type} (libs : ResultLibs L) (result : LayerResult L)

def resultParts (json : Option Bytes) : List (UInt8 × Bytes) :=
  [(0x03, specLogitsTrailer result.specLogits),
    (0x04, optionalPart 0x04 (fun text => sizedBytes (capUtf8ToBytes text maxTextBytes)) result.matchedStopSequence),
    (0x05, optionalPart 0x05 sizedBytes json),
    (0x06, optionalPart 0x06 (fun refusal => [refusal.wireCode]) result.refusal),
    (0x07, optionalPart 0x07 stepBytes result.answersStep),
    (0x08, optionalPart 0x08 u32Bytes (result.answersStep.bind ResultStep.streamSeq)),
    (0x09, optionalPart 0x09 u32Bytes result.promptBlocksStored),
    (0x0A, optionalPart 0x0A u32Bytes result.servedUs)]

def headBytes : Bytes :=
  result.requestId.bytes.toList ++ (leBytes 4 result.tokenIds.length ++ (result.tokenIds.flatMap u32Bytes ++
    finishReasonBytes result.finishReason))

def resultBody (json : Option Bytes) : Bytes :=
  headBytes result ++ (sizedBytes result.activations ++ (resultParts result json).flatMap Prod.snd)

def logprobsJson (tokenLogprobs : List L) : Except SwarmError (Option Bytes) :=
  if tokenLogprobs.isEmpty then .ok none
  else match libs.toJson tokenLogprobs with
    | .error e => .error (.network s!"token_logprobs serialization failed: {e}")
    | .ok json =>
      if maxLogprobsJsonBytes < json.length then
        .error (.network s!"token_logprobs payload too large: {json.length} > {maxLogprobsJsonBytes}")
      else .ok (some json)

def encodeLayerResult : Except SwarmError Bytes := do
  let numTokens := result.tokenIds.length
  if maxResultTokens < numTokens then
    throw (.network s!"LayerResult token_ids too large: {numTokens} > {maxResultTokens}")
  if maxActivationSize < result.activations.length then
    throw (.network s!"LayerResult activations too large: {result.activations.length} > {maxActivationSize}")
  if u16Max < result.specLogits.length then
    throw (.network s!"spec_logits too many positions: {result.specLogits.length}")
  if result.specLogits.any fun logits => decide (u32Max < logits.length) then
    throw (.network "spec_logits vocab too large")
  return tensorTagResult :: resultBody result (← logprobsJson libs result.tokenLogprobs)

-- The message is cut to 4 KiB, but all of it is passed over.
def readFinishReason : ForwardReader (Option NetworkFinishReason) := fun data pos => do
  match ← byteAt data pos with
  | 0 => return (none, pos + 1)
  | 1 => return (some .stop, pos + 1)
  | 2 => return (some .maxTokens, pos + 1)
  | 3 =>
    if data.length < pos + 5 then return (some (.error ""), pos + 1)
    let msgLen ← wordAt 4 data (pos + 1)
    let room := data.length - (pos + 5)
    let msg ← slice data (pos + 5) (pos + 5 + min (min msgLen maxTextBytes) room)
    return (some (.error (libs.fromUtf8Lossy msg)), pos + 5 + min msgLen room)
  | t => refuse (.network s!"Unknown finish reason tag: {t}")

-- What stands before the payload, and where its length field is.
def readHead (data : Bytes) : Checked SwarmError (LayerResult L × Nat) := do
  if data.length < 21 then refuse (.network "LayerResult envelope too short")
  let requestId ← arrayAt 16 data 0
  let numTokens ← wordAt 4 data 16
  if maxResultTokens < numTokens then refuse (.network s!"num_tokens exceeds maximum ({maxResultTokens})")
  let tokensEnd := 20 + numTokens * 4
  if data.length < tokensEnd + 1 then refuse (.network "LayerResult truncated")
  let tokenIds ← readEach 4 u32At data 20 numTokens
  let (finishReason, pos) ← readFinishReason libs data tokensEnd
  return (⟨⟨requestId⟩, tokenIds, finishReason, [], none, [], none, [], false, none, none, none, none⟩, pos)

-- A payload that is cut off reads as none, and the cursor stays at its first byte.
def readActivations : ForwardReader Bytes := fun data pos => do
  if data.length < pos + 4 then return ([], pos)
  let actLen ← wordAt 4 data pos
  if maxActivationSize < actLen then refuse (.network s!"Activation data too large: {actLen} bytes")
  if actLen = 0 ∨ data.length < pos + 4 + actLen then return ([], pos + 4)
  return (← slice data (pos + 4) (pos + 4 + actLen), pos + 4 + actLen)

def finiteAt (data : Bytes) (start : Nat) : Checked SwarmError F32 := do
  let value ← f32At data start
  if !value.isFinite then refuse (.network "spec_logits contains non-finite f32 (NaN/Inf rejected)")
  return value

def readLogits : ForwardReader (List F32) := fun data pos => do
  if data.length < pos + 4 then refuse (.network "spec_logits vocab_len truncated")
  let vocabLen ← wordAt 4 data pos
  if maxSpecLogitsVocab < vocabLen then refuse (.network s!"spec_logits vocab_len {vocabLen} > {maxSpecLogitsVocab}")
  if data.length < pos + 4 + vocabLen * 4 then refuse (.network "spec_logits payload truncated")
  return (← readEach 4 finiteAt data (pos + 4) vocabLen, pos + 4 + vocabLen * 4)

def readPositions : Nat → ForwardReader (List (List F32))
  | 0 => pure []
  | count + 1 => do
    let logits ← readLogits
    let others ← readPositions count
    pure (logits :: others)

def readSpecLogits : ForwardReader (List (List F32)) := fun data pos => do
  if data.length ≤ pos then return ([], pos)
  if (← byteAt data pos) ≠ 0x03 then return ([], pos)
  if data.length < pos + 3 then refuse (.network "spec_logits header truncated")
  let numPositions ← wordAt 2 data (pos + 1)
  if maxSpecLogitsPositions < numPositions then
    refuse (.network s!"spec_logits num_positions {numPositions} > {maxSpecLogitsPositions}")
  readPositions numPositions data (pos + 3)

def readSized {R : Type} (marker : UInt8) (name : String) (limit : Nat) (tooLong : Nat → String)
    (parse : Bytes → Checked SwarmError R) : ForwardReader (Option R) := fun data pos => do
  if data.length ≤ pos then return (none, pos)
  if (← byteAt data pos) ≠ marker then return (none, pos)
  if data.length < pos + 5 then refuse (.network (name ++ " header truncated"))
  let len ← wordAt 4 data (pos + 1)
  if limit < len then refuse (.network (tooLong len))
  if data.length < pos + 5 + len then refuse (.network (name ++ " payload truncated"))
  return (some (← parse (← slice data (pos + 5) (pos + 5 + len))), pos + 5 + len)

def readMatchedStop : ForwardReader (Option String) :=
  readSized 0x04 "matched_stop_sequence" maxTextBytes (fun len => s!"matched_stop_sequence too long: {len}")
    fun bytes => .ok (libs.fromUtf8Lossy bytes)

def readTokenLogprobs : ForwardReader (Option (List L)) :=
  readSized 0x05 "token_logprobs" maxLogprobsJsonBytes
    (fun len => s!"token_logprobs payload too large: {len} > {maxLogprobsJsonBytes}") fun bytes =>
      match libs.fromJson bytes with
      | .ok logprobs => .ok logprobs
      | .error e => refuse (.network s!"token_logprobs deserialization failed: {e}")

def parseStep (data : Bytes) (pos : Nat) : Checked SwarmError ResultStep := do
  return ⟨← u32At data (pos + 1), (← u32At data (pos + 5), ← u32At data (pos + 9)), none⟩

def readWord (marker : UInt8) (truncated : String) : ForwardReader (Option UInt32) :=
  readStrict marker 5 (.network truncated) fun data pos => u32At data (pos + 1)

-- The stream's number stands only inside a step.
def readAnswersStep : ForwardReader (Option ResultStep) := do
  match ← readStrict 0x07 13 (.network "step trailer truncated") parseStep with
  | none => pure none
  | some step => do
    let streamSeq ← readWord 0x08 "stream trailer truncated"
    pure (some { step with streamSeq })

def readResultTrailers (start : LayerResult L) : ForwardReader (LayerResult L) := do
  let specLogits ← readSpecLogits
  let matchedStopSequence ← readMatchedStop libs
  let tokenLogprobs ← readTokenLogprobs libs
  let refusal ← readStrict 0x06 2 (.network "refusal trailer truncated") fun data pos => do
    return ForwardRefusal.fromWireCode (← byteAt data (pos + 1))
  let answersStep ← readAnswersStep
  let promptBlocksStored ← readWord 0x09 "prompt-cache trailer truncated"
  let servedUs ← readWord 0x0A "served-time trailer truncated"
  pure { start with
    specLogits, matchedStopSequence, answersStep, promptBlocksStored, servedUs
    tokenLogprobs := tokenLogprobs.getD []
    refusal := refusal.join }

def decodeLayerResult (input : Bytes) : Checked SwarmError (LayerResult L) := do
  let data := stripTag tensorTagResult input
  let (start, place) ← readHead libs data
  let (activations, pos) ← readActivations data place
  let (result, _) ← readResultTrailers libs { start with activations } data pos
  return result

end SwarmLlm.Network
