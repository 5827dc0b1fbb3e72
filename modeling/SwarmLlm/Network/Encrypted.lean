import SwarmLlm.Network.TrailerReads

namespace SwarmLlm.Network

open Lib LayerForward

def tensorTagEncrypted : UInt8 := 0x10

def TensorFormat.tag : TensorFormat → UInt8
  | .fp16 => 0
  | .fp32 => 1
  | .int8 => 2

def TensorFormat.ofTag : UInt8 → Option TensorFormat
  | 0 => some .fp16
  | 1 => some .fp32
  | 2 => some .int8
  | _ => none

theorem format_of_tag (format : TensorFormat) : TensorFormat.ofTag format.tag = some format := by cases format <;> rfl

variable (forward : LayerForward)

def headerBytes : Bytes :=
  forward.requestId.bytes.toList ++ (u32Bytes forward.sequenceNum ++ (u32Bytes forward.indexPos ++
    ([forward.format.tag] ++ (u32Bytes forward.layerRange.1 ++ (u32Bytes forward.layerRange.2 ++
      (leBytes 2 (utf8 forward.modelId).length ++ utf8 forward.modelId))))))

-- The count saturates here, where the encoder refuses.
def aadSpecTrailer : Bytes :=
  if forward.speculates then
    0x03 :: specTrailerFlags forward :: (leBytes 2 (min forward.draftTokens.length u16Max) ++ forward.draftTokens.flatMap u32Bytes)
  else []

def buildLayerForwardAad : Bytes :=
  headerBytes forward ++ (tpMetaTrailer forward ++ (aadSpecTrailer forward ++ ((trailerParts forward).drop 2).flatMap Prod.snd))

variable (sealedActivations : Bytes)

-- The frame after its tag; the length of the payload is cut to 32 bits.
def frameBody : Bytes :=
  headerBytes forward ++ (leBytes 4 sealedActivations.length ++ (sealedActivations ++ trailers forward))

def encodeLayerForwardEncrypted : Except SwarmError Bytes :=
  let modelIdBytes := utf8 forward.modelId
  if u16Max < modelIdBytes.length then
    .error (.network s!"Model ID too long: {modelIdBytes.length} bytes (max {u16Max})")
  else if forward.speculates && u16Max < forward.draftTokens.length then
    .error (.network s!"draft_tokens too long: {forward.draftTokens.length} > {u16Max}")
  else .ok (tensorTagEncrypted :: frameBody forward sealedActivations)

def LayerForward.start (requestId : Uuid) (sequenceNum indexPos : UInt32) (format : TensorFormat) (modelId : String)
    (layerRange : UInt32 × UInt32) : LayerForward where
  requestId := requestId
  sequenceNum := sequenceNum
  indexPos := indexPos
  activations := []
  format := format
  modelId := modelId
  layerRange := layerRange
  tpMeta := none
  visionEmbeddings := none
  chain := []
  senderPeerBytes := none
  requesterNodeId := none
  preEmbedded := false
  generatedIds := []
  sampling := none
  adapterId := none
  draftTokens := []
  specLogitsRequested := false
  specWalkAtTail := false
  couplingSeed := none
  streamSeq := none
  truncateKvTo := none
  promptCache := none
  chunkMeta := none
  promptSpan := none
  imageSpans := []
  draftParents := []
  draftTreeFrom := none
  streamLookahead := none
  streamBranch := none

def stripTag (tag : UInt8) : Bytes → Bytes
  | [] => []
  | first :: rest => if first = tag then rest else first :: rest

def decodeLayerForwardEncrypted (input : Bytes) : Checked SwarmError (LayerForward × Bytes × Bytes) := do
  let data := stripTag tensorTagEncrypted input
  if data.length < 35 then refuse (.network "Encrypted tensor envelope too short")
  let requestId ← arrayAt 16 data 0
  let sequenceNum ← u32At data 16
  let indexPos ← u32At data 20
  let formatTag ← byteAt data 24
  match TensorFormat.ofTag formatTag with
  | none => refuse (.network s!"Unknown tensor format tag: {formatTag}")
  | some format => do
    let layerStart ← u32At data 25
    let layerEnd ← u32At data 29
    let midLen ← wordAt 2 data 33
    if data.length < 35 + midLen + 4 then refuse (.network "Encrypted tensor model_id/sealed truncated")
    match fromUtf8 (← slice data 35 (35 + midLen)) with
    | none => refuse (.network "Invalid model_id UTF-8")
    | some modelId => do
      let sealedLen ← wordAt 4 data (35 + midLen)
      let sealedStart := 35 + midLen + 4
      if data.length < sealedStart + sealedLen then refuse (.network "Encrypted tensor data truncated")
      let sealedActivations ← slice data sealedStart (sealedStart + sealedLen)
      let header := start ⟨requestId⟩ sequenceNum indexPos format modelId (layerStart, layerEnd)
      let (forward, _) ← readTrailers header data (sealedStart + sealedLen)
      -- The data to authenticate is rebuilt from the values as sent, before the clamp.
      let aad := buildLayerForwardAad forward
      return ({ forward with sampling := forward.sampling.map clampPeerSampling }, sealedActivations, aad)

def LayerForward.header : LayerForward :=
  .start forward.requestId forward.sequenceNum forward.indexPos forward.format forward.modelId forward.layerRange

def LayerForward.carried : LayerForward := forward.header.withTrailers forward

-- The forward a receiver gets: what the frame carries, with the sampling clamped.
def LayerForward.received : LayerForward :=
  { forward.carried with sampling := forward.carried.sampling.map clampPeerSampling }

theorem aad_carried {forward : LayerForward} : buildLayerForwardAad forward.carried = buildLayerForwardAad forward := by
  have header : headerBytes forward.carried = headerBytes forward := rfl
  have tpMeta : tpMetaTrailer forward.carried = tpMetaTrailer forward := rfl
  have speculates : forward.carried.speculates = forward.speculates := rfl
  have drafts : forward.carried.draftTokens = forward.draftTokens := rfl
  have spec : aadSpecTrailer forward.carried = aadSpecTrailer forward := by
    cases present : forward.speculates with
    | false => rw [aadSpecTrailer, aadSpecTrailer, speculates, present, if_neg Bool.false_ne_true, if_neg Bool.false_ne_true]
    | true =>
      have flags : specTrailerFlags forward.carried = specTrailerFlags forward := spec_trailer_flags_read present
      rw [aadSpecTrailer, aadSpecTrailer, speculates, drafts, flags]
  have later : (trailerParts forward.carried).drop 2 = (trailerParts forward).drop 2 := later_trailers_read
  rw [buildLayerForwardAad, header, tpMeta, spec, later, buildLayerForwardAad]

structure AtHeader (forward : LayerForward) (data rest : Bytes) : Prop where
  requestId : arrayAt 16 data 0 = (.ok forward.requestId.bytes : Checked SwarmError _)
  sequenceNum : u32At data 16 = (.ok forward.sequenceNum : Checked SwarmError _)
  indexPos : u32At data 20 = (.ok forward.indexPos : Checked SwarmError _)
  format : byteAt data 24 = (.ok forward.format.tag : Checked SwarmError _)
  layerStart : u32At data 25 = (.ok forward.layerRange.1 : Checked SwarmError _)
  layerEnd : u32At data 29 = (.ok forward.layerRange.2 : Checked SwarmError _)
  midLen : wordAt 2 data 33 = (.ok (utf8 forward.modelId).length : Checked SwarmError _)
  modelId : slice data 35 (35 + (utf8 forward.modelId).length) = (.ok (utf8 forward.modelId) : Checked SwarmError _)
  after : Left data (35 + (utf8 forward.modelId).length) rest

theorem at_header (data : Bytes) {rest : Bytes} (name : (utf8 forward.modelId).length ≤ u16Max)
    (left : Left data 0 (headerBytes forward ++ rest)) : AtHeader forward data rest := by
  simp only [headerBytes, List.append_assoc, List.cons_append, List.nil_append] at left
  have sequenceNum := left_skip left forward.requestId.bytes.length_toList
  have indexPos := left_u32 sequenceNum
  have format := left_u32 indexPos
  have layerStart := left_next format
  have layerEnd := left_u32 layerStart
  have midLen := left_u32 layerEnd
  have modelId := left_skip midLen (length_le_bytes 2)
  have small : (utf8 forward.modelId).length % 256 ^ 2 = (utf8 forward.modelId).length :=
    Nat.mod_eq_of_lt (Nat.lt_of_le_of_lt name (by decide))
  have length := word_at_left (E := SwarmError) midLen
  rw [small] at length
  exact ⟨array_at_left left, u32_at_left sequenceNum, u32_at_left indexPos, byte_at_left format, u32_at_left layerStart,
    u32_at_left layerEnd, length, slice_left modelId rfl, left_skip modelId rfl⟩

theorem decode_after_header {sealedActivations : Bytes}
    (name : (utf8 forward.modelId).length ≤ u16Max) (fits : sealedActivations.length < 256 ^ 4) :
    ∃ data cursor, Left data cursor (trailers forward ++ []) ∧
      decodeLayerForwardEncrypted (tensorTagEncrypted :: frameBody forward sealedActivations) = (do
          let (read, _) ← readTrailers forward.header data cursor
          return ({ read with sampling := read.sampling.map clampPeerSampling }, sealedActivations,
            buildLayerForwardAad read)) := by
  have stripped : stripTag tensorTagEncrypted (tensorTagEncrypted :: frameBody forward sealedActivations) =
      frameBody forward sealedActivations := by
    rw [stripTag, if_pos rfl]
  have header := at_header forward (frameBody forward sealedActivations) name (left_start _)
  have payload := left_skip header.after (length_le_bytes 4)
  have after := left_skip payload rfl
  have size := left_length after
  have sealedLen := word_at_left (E := SwarmError) header.after
  rw [Nat.mod_eq_of_lt fits] at sealedLen
  have long : ¬ (frameBody forward sealedActivations).length < 35 := by omega
  have named : ¬ (frameBody forward sealedActivations).length < 35 + (utf8 forward.modelId).length + 4 := by omega
  have whole : ¬ (frameBody forward sealedActivations).length <
      35 + (utf8 forward.modelId).length + 4 + sealedActivations.length := by omega
  refine ⟨frameBody forward sealedActivations, _, by rw [List.append_nil]; exact after, ?_⟩
  simp only [decodeLayerForwardEncrypted, stripped, if_neg long, header.requestId, header.sequenceNum, header.indexPos,
    header.format, header.layerStart, header.layerEnd, header.midLen, header.modelId, ok_bind, format_of_tag, if_neg named,
    from_utf8_utf8, sealedLen, if_neg whole, slice_left payload rfl]
  rfl

theorem too_many_drafts {forward : LayerForward} :
    (forward.speculates && decide (u16Max < forward.draftTokens.length)) = true ↔ u16Max < forward.draftTokens.length := by
  rw [Bool.and_eq_true, decide_eq_true_iff]
  refine and_iff_right_of_imp fun many => ?_
  have present : forward.draftTokens.isEmpty = false := by
    rw [List.isEmpty_eq_false_iff, ← List.length_pos_iff]
    omega
  rw [speculates, present]
  rfl

theorem encrypted_encodes {forward : LayerForward} {sealedActivations bytes : Bytes} :
    encodeLayerForwardEncrypted forward sealedActivations = .ok bytes ↔
      ((utf8 forward.modelId).length ≤ u16Max ∧ forward.draftTokens.length ≤ u16Max) ∧
        bytes = tensorTagEncrypted :: frameBody forward sealedActivations := by
  simp only [encodeLayerForwardEncrypted, too_many_drafts, ← Nat.not_lt]
  split
  · simp [*]
  · split <;> simp [*, eq_comm]

theorem decode_refuses (error : SwarmError)
    (name : (utf8 forward.modelId).length ≤ u16Max) (fits : sealedActivations.length < 256 ^ 4)
    (refuses : Refuses (readTrailers forward.header) (trailers forward) [] error) :
    decodeLayerForwardEncrypted (tensorTagEncrypted :: frameBody forward sealedActivations) = refuse error := by
  obtain ⟨data, cursor, left, decoded⟩ := decode_after_header forward name fits
  rw [decoded, refuses data cursor left]
  rfl

-- What decoding an encoded frame gives: a refusal for more drafts than a receiver
-- takes or a chunk outside its transfer, else the forward as carried, the payload
-- and the data it was sealed with.
theorem encrypted_frame_decodes (bytes : Bytes)
    (encoded : encodeLayerForwardEncrypted forward sealedActivations = .ok bytes) (servable : forward.Servable)
    (fits : sealedActivations.length < 2 ^ 32) :
    (maxDraftTokens < forward.draftTokens.length →
        decodeLayerForwardEncrypted bytes = refuse (numDraftsRefusal forward.draftTokens.length)) ∧
      (forward.draftTokens.length ≤ maxDraftTokens → ∀ chunk ∈ forward.chunkMeta, chunk.invalid = true →
        decodeLayerForwardEncrypted bytes = refuse chunk.refusal) ∧
      (forward.draftTokens.length ≤ maxDraftTokens → (∀ chunk ∈ forward.chunkMeta, chunk.invalid = false) →
        decodeLayerForwardEncrypted bytes = .ok (forward.received, sealedActivations, buildLayerForwardAad forward)) := by
  obtain ⟨⟨name, bounded⟩, rfl⟩ := encrypted_encodes.mp encoded
  refine ⟨fun many => ?_, fun few chunk found invalid => ?_, fun few valid => ?_⟩
  · exact decode_refuses forward sealedActivations _ name fits (refuses_many_drafts many bounded)
  · exact decode_refuses forward sealedActivations _ name fits
      (refuses_invalid_chunk forward.header forward chunk few found invalid)
  obtain ⟨data, cursor, left, decoded⟩ := decode_after_header forward name fits
  have read := reads_trailers forward.header forward servable few valid data cursor left
  have rebuilt : buildLayerForwardAad (forward.header.withTrailers forward) = buildLayerForwardAad forward :=
    aad_carried
  rw [decoded, read, ← rebuilt]
  rfl

def sampleForward : LayerForward :=
  { start (.ofByte 7) 5 11 .fp32 "qwen2.5-7b" (4, 12) with
    tpMeta := some ⟨1, 2, 4, .attnOnly⟩
    chain := [⟨.ofByte 9, (12, 20)⟩, ⟨.ofByte 10, (20, 28)⟩]
    requesterNodeId := some (Vector.replicate 32 3)
    preEmbedded := true
    generatedIds := [1, 2, 3]
    sampling := some { SamplingParams.default with temperature := ⟨0x41200000⟩, topLogprobs := 300 }
    draftTokens := [42, 43]
    specLogitsRequested := true
    specWalkAtTail := true
    couplingSeed := some 77
    streamSeq := some 6
    truncateKvTo := some 10
    promptCache := some ⟨64, [Vector.replicate 32 1], 64⟩
    chunkMeta := some ⟨1, 3⟩
    promptSpan := some ⟨0, 90⟩
    imageSpans := [⟨3, 8⟩]
    draftParents := [0, 1]
    draftTreeFrom := some 12
    streamLookahead := some 99
    streamBranch := some (.spare 1 2 3) }

theorem encrypted_frame_decodes_sample :
    ∃ bytes, encodeLayerForwardEncrypted sampleForward [1, 2, 3] = .ok bytes ∧
      decodeLayerForwardEncrypted bytes = .ok (sampleForward.received, [1, 2, 3], buildLayerForwardAad sampleForward) :=
  ⟨_, rfl, (encrypted_frame_decodes sampleForward [1, 2, 3] _ rfl ⟨by decide, by decide⟩ (by decide)).2.2 (by decide)
    (by decide)⟩

-- A chunk of a transfer of no chunks is encoded and then refused.
theorem zero_chunks_refused :
    ∃ bytes, encodeLayerForwardEncrypted { sampleForward with chunkMeta := some ⟨0, 0⟩ } [1, 2, 3] = .ok bytes ∧
      decodeLayerForwardEncrypted bytes = refuse (.network "Invalid chunk_meta: chunk_idx=0, total_chunks=0") := by
  refine ⟨_, rfl, ?_⟩
  exact decode_refuses { sampleForward with chunkMeta := some ⟨0, 0⟩ } [1, 2, 3] _ (by decide) (by decide)
    (refuses_invalid_chunk _ { sampleForward with chunkMeta := some ⟨0, 0⟩ } ⟨0, 0⟩ (by decide) rfl rfl)

end SwarmLlm.Network
