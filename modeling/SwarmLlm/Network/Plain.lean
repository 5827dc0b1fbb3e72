import SwarmLlm.Network.Encrypted

namespace SwarmLlm.Network

open Lib LayerForward

def tensorTagForward : UInt8 := 0x01

def maxActivationSize : Nat := 128 * 1024 * 1024

def u32Max : Nat := 4294967295

-- The part that names the layers and the model follows the payload here.
def modelBytes (forward : LayerForward) : Bytes :=
  0x01 :: (u32Bytes forward.layerRange.1 ++ (u32Bytes forward.layerRange.2 ++
    (leBytes 2 (utf8 forward.modelId).length ++ utf8 forward.modelId)))

def plainBody (forward : LayerForward) : Bytes :=
  forward.requestId.bytes.toList ++ (u32Bytes forward.sequenceNum ++ (u32Bytes forward.indexPos ++
    (forward.format.tag :: (leBytes 4 forward.activations.length ++ (forward.activations ++
      (modelBytes forward ++ trailers forward))))))

def encodeLayerForward (forward : LayerForward) : Except SwarmError Bytes :=
  let dataLen := forward.activations.length
  let modelIdBytes := utf8 forward.modelId
  if u16Max < modelIdBytes.length then
    .error (.network s!"Model ID too long: {modelIdBytes.length} bytes (max {u16Max})")
  else if u32Max < dataLen then .error (.network "Activation payload exceeds 4GiB wire format limit")
  else if forward.speculates && u16Max < forward.draftTokens.length then
    .error (.network s!"draft_tokens too long: {forward.draftTokens.length} > {u16Max}")
  else .ok (tensorTagForward :: plainBody forward)

def decodeLayerForward (input : Bytes) : Checked SwarmError LayerForward := do
  let data := stripTag tensorTagForward input
  if data.length < 29 then refuse (.network "Tensor envelope too short")
  let requestId ← arrayAt 16 data 0
  let sequenceNum ← u32At data 16
  let indexPos ← u32At data 20
  let formatTag ← byteAt data 24
  match TensorFormat.ofTag formatTag with
  | none => refuse (.network s!"Unknown tensor format tag: {formatTag}")
  | some format => do
    let dataLen ← wordAt 4 data 25
    if maxActivationSize < dataLen then
      refuse (.network s!"LayerForward activation too large: {dataLen} bytes (max {maxActivationSize})")
    if data.length < 29 + dataLen then
      refuse (.network s!"Tensor data truncated: expected {dataLen} bytes, got {data.length - 29}")
    let activations ← slice data 29 (29 + dataLen)
    let trailerStart := 29 + dataLen
    let missing := SwarmError.network "LayerForward missing required layer_range/model_id trailer"
    if data.length < trailerStart + 9 then refuse missing
    if (← byteAt data trailerStart) ≠ 0x01 then refuse missing
    let layerStart ← u32At data (trailerStart + 1)
    let layerEnd ← u32At data (trailerStart + 5)
    let midLenStart := trailerStart + 9
    if data.length < midLenStart + 2 then refuse (.network "LayerForward missing model_id length")
    let midLen ← wordAt 2 data midLenStart
    let midStart := midLenStart + 2
    if data.length < midStart + midLen then refuse (.network "LayerForward model_id truncated")
    match fromUtf8 (← slice data midStart (midStart + midLen)) with
    | none => refuse (.network "Invalid model_id UTF-8")
    | some modelId => do
      let start := start ⟨requestId⟩ sequenceNum indexPos format modelId (layerStart, layerEnd)
      let (forward, _) ← readTrailers { start with activations } data (midStart + midLen)
      return { forward with sampling := forward.sampling.map clampPeerSampling }

def F32.Within (value low high : F32) : Prop := value.isFinite = true ∧ low.rank ≤ value.rank ∧ value.rank ≤ high.rank

instance (value low high : F32) : Decidable (value.Within low high) :=
  inferInstanceAs (Decidable (value.isFinite = true ∧ low.rank ≤ value.rank ∧ value.rank ≤ high.rank))

structure SamplingParams.InsideClamps (sampling : SamplingParams) : Prop where
  temperature : sampling.temperature.Within .zero .two
  topP : sampling.topP.Within .epsilon .one
  frequencyPenalty : sampling.frequencyPenalty.Within .minusTwo .two
  presencePenalty : sampling.presencePenalty.Within .minusTwo .two
  topLogprobs : sampling.topLogprobs ≤ 20

structure LayerForward.WithinLimits (forward : LayerForward) : Prop where
  modelId : (utf8 forward.modelId).length ≤ u16Max
  activations : forward.activations.length ≤ maxActivationSize
  draftTokens : forward.draftTokens.length ≤ maxDraftTokens
  draftParents : forward.draftParents.length ≤ maxTreeRows
  chain : forward.chain.length ≤ u8Max
  hops : ∀ hop ∈ forward.chain, hop.valid
  generatedIds : forward.generatedIds.length ≤ u16Max
  promptCache : ∀ hint ∈ forward.promptCache, hint.keys.length ≤ maxKeys
  imageSpans : forward.imageSpans.length ≤ maxImageSpans
  chunkMeta : ∀ chunk ∈ forward.chunkMeta, chunk.chunkIdx < chunk.totalChunks
  draftTreeFrom : forward.draftTreeFrom.isSome = true → forward.draftParents ≠ []
  specWalkAtTail : forward.specWalkAtTail = true → forward.draftTokens ≠ [] ∨ forward.specLogitsRequested = true
  sampling : ∀ sampling ∈ forward.sampling, sampling.InsideClamps

def SamplingParams.onWire (sampling : SamplingParams) : SamplingParams :=
  { sampling with
    maxTokens := SamplingParams.default.maxTokens
    maxTokensExplicit := SamplingParams.default.maxTokensExplicit
    stop := SamplingParams.default.stop }

def LayerForward.onWire (forward : LayerForward) : LayerForward :=
  { forward with
    visionEmbeddings := none
    senderPeerBytes := none
    adapterId := none
    sampling := forward.sampling.map SamplingParams.onWire }

theorem clamp_within {value : F32} (fallback : F32) {low high : F32} (within : value.Within low high) :
    (finiteOr value fallback).clamp low high = value := by
  obtain ⟨finite, above, below⟩ := within
  rw [finiteOr, if_pos finite, F32.clamp, if_neg (Int.not_lt.mpr above), if_neg (Int.not_lt.mpr below)]

theorem min_of_le {value cap : UInt32} (below : value ≤ cap) : min value cap = value := if_pos below

theorem sampling_on_wire {sampling : SamplingParams} (inside : sampling.InsideClamps) :
    clampPeerSampling sampling.carried = sampling.onWire := by
  have fits : sampling.topLogprobs ≤ 255 := UInt32.le_trans inside.topLogprobs (by decide)
  have shown : min (min sampling.topLogprobs 255) 20 = sampling.topLogprobs := by
    rw [min_of_le fits, min_of_le inside.topLogprobs]
  have temperature := clamp_within .one inside.temperature
  have topP := clamp_within .one inside.topP
  have frequency := clamp_within .zero inside.frequencyPenalty
  have presence := clamp_within .zero inside.presencePenalty
  simp only [clampPeerSampling, SamplingParams.carried, temperature, topP, frequency, presence, shown]
  rfl

theorem clamped_on_wire {item : Option SamplingParams} (inside : ∀ sampling ∈ item, sampling.InsideClamps) :
    (item.map SamplingParams.carried).map clampPeerSampling = item.map SamplingParams.onWire := by
  cases item with
  | none => rfl
  | some sampling => exact congrArg some (sampling_on_wire (inside sampling rfl))

variable {forward : LayerForward}

theorem walks_within (within : forward.WithinLimits) : forward.walks = forward.specWalkAtTail := by
  cases walk : forward.specWalkAtTail with
  | false => rw [walks, walk, Bool.and_false]
  | true =>
    have speculates : forward.speculates = true := by
      rcases within.specWalkAtTail walk with drafts | logits
      · rw [speculates, List.isEmpty_eq_false_iff.mpr drafts]
        rfl
      · rw [speculates, logits, Bool.or_true]
    rw [walks, walk, speculates, Bool.and_true]

theorem tree_flow_within (within : forward.WithinLimits) : forward.treeFlow = forward.draftTreeFrom := by
  cases flow : forward.draftTreeFrom with
  | none => rw [treeFlow, flow, ite_self]
  | some start =>
    have tree := within.draftTreeFrom (by rw [flow]; rfl)
    rw [treeFlow, List.isEmpty_eq_false_iff.mpr tree, if_neg Bool.false_ne_true, flow]

def LayerForward.plainHeader (forward : LayerForward) : LayerForward :=
  { forward.header with activations := forward.activations }

theorem read_on_wire (within : forward.WithinLimits) : { forward.plainHeader.withTrailers forward with
      sampling := (forward.plainHeader.withTrailers forward).sampling.map clampPeerSampling } = forward.onWire := by
  have sampling := clamped_on_wire within.sampling
  simp only [withTrailers, onWire, walks_within within, tree_flow_within within,
    List.take_of_length_le within.chain, List.take_of_length_le within.generatedIds,
    List.take_of_length_le within.imageSpans, List.take_of_length_le within.draftParents, sampling]
  rfl

theorem chunk_valid {chunk : ChunkMeta} (below : chunk.chunkIdx < chunk.totalChunks) : chunk.invalid = false := by
  have some : chunk.totalChunks ≠ 0 := by
    intro none
    rw [none] at below
    exact Nat.not_lt_zero _ (UInt32.lt_iff_toNat_lt.mp below)
  have inside : ¬ chunk.totalChunks ≤ chunk.chunkIdx := UInt32.not_le.mpr below
  rw [ChunkMeta.invalid, beq_eq_false_iff_ne.mpr some, decide_eq_false inside]
  rfl

theorem servable_within (within : forward.WithinLimits) : forward.Servable :=
  ⟨fun hop listed => within.hops hop (List.mem_of_mem_take listed), within.promptCache⟩

theorem plain_encodes {bytes : Bytes} :
    encodeLayerForward forward = .ok bytes ↔ ((utf8 forward.modelId).length ≤ u16Max ∧ forward.activations.length ≤ u32Max ∧
        forward.draftTokens.length ≤ u16Max) ∧ bytes = tensorTagForward :: plainBody forward := by
  simp only [encodeLayerForward, too_many_drafts, ← not_lt]
  split
  · simp [*]
  · split
    · simp [*]
    · split <;> simp [*, eq_comm]

structure AtPlain (forward : LayerForward) (data : Bytes) : Prop where
  requestId : arrayAt 16 data 0 = (.ok forward.requestId.bytes : Checked SwarmError _)
  sequenceNum : u32At data 16 = (.ok forward.sequenceNum : Checked SwarmError _)
  indexPos : u32At data 20 = (.ok forward.indexPos : Checked SwarmError _)
  format : byteAt data 24 = (.ok forward.format.tag : Checked SwarmError _)
  dataLen : wordAt 4 data 25 = (.ok forward.activations.length : Checked SwarmError _)
  activations : slice data 29 (29 + forward.activations.length) = (.ok forward.activations : Checked SwarmError _)
  model : Left data (29 + forward.activations.length) (modelBytes forward ++ trailers forward)

theorem at_plain (small : forward.activations.length < 256 ^ 4) : AtPlain forward (plainBody forward) := by
  have left : Left (plainBody forward) 0 (plainBody forward) := left_start _
  have sequenceNum := left_skip left forward.requestId.bytes.length_toList
  have indexPos := left_u32 sequenceNum
  have format := left_u32 indexPos
  have dataLen := left_next format
  have activations := left_skip dataLen (length_le_bytes 4)
  have length := word_at_left (E := SwarmError) dataLen
  rw [Nat.mod_eq_of_lt small] at length
  exact ⟨array_at_left left, u32_at_left sequenceNum, u32_at_left indexPos, byte_at_left format, length,
    slice_left activations rfl, left_skip activations rfl⟩

structure AtModel (forward : LayerForward) (data : Bytes) (start : Nat) : Prop where
  marker : byteAt data start = (.ok 0x01 : Checked SwarmError _)
  layerStart : u32At data (start + 1) = (.ok forward.layerRange.1 : Checked SwarmError _)
  layerEnd : u32At data (start + 5) = (.ok forward.layerRange.2 : Checked SwarmError _)
  midLen : wordAt 2 data (start + 9) = (.ok (utf8 forward.modelId).length : Checked SwarmError _)
  modelId : slice data (start + 9 + 2) (start + 9 + 2 + (utf8 forward.modelId).length) =
    (.ok (utf8 forward.modelId) : Checked SwarmError _)
  after : Left data (start + 9 + 2 + (utf8 forward.modelId).length) (trailers forward)

theorem at_model {data : Bytes} {start : Nat} (name : (utf8 forward.modelId).length ≤ u16Max)
    (left : Left data start (modelBytes forward ++ trailers forward)) : AtModel forward data start := by
  simp only [modelBytes, List.append_assoc, List.cons_append] at left
  have layerStart := left_next left
  have layerEnd := left_u32 layerStart
  have midLen := left_u32 layerEnd
  have modelId := left_skip midLen (length_le_bytes 2)
  have small : (utf8 forward.modelId).length < 256 ^ 2 := lt_of_le_of_lt name (by decide)
  have length := word_at_left (E := SwarmError) midLen
  rw [Nat.mod_eq_of_lt small] at length
  exact ⟨byte_at_left left, u32_at_left layerStart, u32_at_left layerEnd, length, slice_left modelId rfl, left_skip modelId rfl⟩

theorem decode_plain (name : (utf8 forward.modelId).length ≤ u16Max) (payload : forward.activations.length ≤ maxActivationSize) :
    decodeLayerForward (tensorTagForward :: plainBody forward) = (do
        let (read, _) ← readTrailers forward.plainHeader (plainBody forward)
          (29 + forward.activations.length + 9 + 2 + (utf8 forward.modelId).length)
        return { read with sampling := read.sampling.map clampPeerSampling }) := by
  have stripped : stripTag tensorTagForward (tensorTagForward :: plainBody forward) = plainBody forward := by
    rw [stripTag, if_pos rfl]
  have header := at_plain (lt_of_le_of_lt payload (by decide))
  have model := at_model name header.model
  have size := left_length model.after
  have long : ¬ (plainBody forward).length < 29 := by omega
  have whole : ¬ (plainBody forward).length < 29 + forward.activations.length := by omega
  have ranged : ¬ (plainBody forward).length < 29 + forward.activations.length + 9 := by omega
  have counted : ¬ (plainBody forward).length < 29 + forward.activations.length + 9 + 2 := by omega
  have named : ¬ (plainBody forward).length <
      29 + forward.activations.length + 9 + 2 + (utf8 forward.modelId).length := by omega
  simp only [decodeLayerForward, stripped, if_neg long, header.requestId, header.sequenceNum, header.indexPos,
    header.format, header.dataLen, header.activations, ok_bind, format_of_tag, if_neg (not_lt.mpr payload),
    if_neg whole, if_neg ranged, model.marker, ne_eq, not_true_eq_false, if_false, model.layerStart, model.layerEnd,
    if_neg counted, model.midLen, if_neg named, model.modelId, from_utf8_utf8]
  rfl

theorem plain_frame_round_trip (forward : LayerForward) (within : forward.WithinLimits) :
    ∃ bytes, encodeLayerForward forward = .ok bytes ∧ decodeLayerForward bytes = .ok forward.onWire := by
  have payload : forward.activations.length ≤ u32Max := le_trans within.activations (by decide)
  have drafts : forward.draftTokens.length ≤ u16Max := le_trans within.draftTokens (by decide)
  refine ⟨_, plain_encodes.mpr ⟨⟨within.modelId, payload, drafts⟩, rfl⟩, ?_⟩
  have after := (at_model within.modelId (at_plain (Nat.lt_succ_of_le payload)).model).after
  rw [← List.append_nil (trailers forward)] at after
  have read := reads_trailers forward.plainHeader forward (servable_within within) within.draftTokens
    (fun chunk found => chunk_valid (within.chunkMeta chunk found)) _ _ after
  rw [decode_plain within.modelId within.activations, read, ok_bind]
  exact congrArg Except.ok (read_on_wire within)

def samplePlain : LayerForward :=
  { sampleForward with
    activations := [1, 2, 3]
    visionEmbeddings := some [4]
    sampling := some { SamplingParams.default with stop := ["###"], topLogprobs := 5 } }

theorem sample_plain_within : samplePlain.WithinLimits where
  modelId := by decide
  activations := by decide
  draftTokens := by decide
  draftParents := by decide
  chain := by decide
  hops := by decide
  generatedIds := by decide
  promptCache := by decide
  imageSpans := by decide
  chunkMeta := by decide
  draftTreeFrom := by decide
  specWalkAtTail := by decide
  sampling := by
    intro sampling found
    cases found
    exact ⟨by decide, by decide, by decide, by decide, by decide⟩

theorem plain_frame_round_trip_sample :
    ∃ bytes, encodeLayerForward samplePlain = .ok bytes ∧ decodeLayerForward bytes = .ok samplePlain.onWire :=
  plain_frame_round_trip samplePlain sample_plain_within

end SwarmLlm.Network
