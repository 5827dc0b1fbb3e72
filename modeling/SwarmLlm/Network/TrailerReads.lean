import SwarmLlm.Network.Trailers

namespace SwarmLlm.Network

open Lib LayerForward SamplingParams
open List hiding Vector

theorem phase_of_byte (phase : TpPhase) : TpPhase.ofByte phase.byte = phase := by cases phase <;> rfl

variable {chunk : ChunkMeta} (value : UInt32) {cursor : Nat} {rest data : Bytes} (header forward : LayerForward)
  (post : Bytes)

theorem reads_tp_meta (above : Above 0x02 post) :
    Reads readTpMetaTrailer (tpMetaTrailer forward) post (forward.tpMeta, forward.tpMeta.isSome && forward.preEmbedded) := by
  have read : Reads (readFixed 0x02 9 parseTpMeta) (tpMetaTrailer forward) post
      (forward.tpMeta.map fun tp => (tp, forward.preEmbedded)) := by
    refine reads_fixed_exact 0x02 9 parseTpMeta tpMetaBytes _ post (by decide) (fun _ => by simp [tpMetaBytes, u32Bytes]) ?_
      above
    rintro ⟨tp, preEmbedded⟩ data cursor left
    simp only [tpMetaBytes, cons_append, append_assoc] at left
    have size := left_next left
    have layer := left_next size
    have phase := left_u32 layer
    have flag := left_next phase
    simp only [parseTpMeta, byte_at_left left, byte_at_left size, u32_at_left layer, byte_at_left phase, byte_at_left flag,
      ok_bind, phase_of_byte]
    cases preEmbedded <;> rfl
  refine reads_then read ?_
  cases forward.tpMeta with
  | none | some => exact reads_pure _

theorem u32_width : (u32Bytes value).length = 4 := length_le_bytes 4

theorem flag_of_byte (flag : Bool) : decide (flagByte flag &&& 0x01 ≠ 0) = flag := by cases flag <;> rfl

theorem spec_flags {forward : LayerForward} :
    decide (specTrailerFlags forward &&& specFlagLogits ≠ 0) = forward.specLogitsRequested ∧
      decide (specTrailerFlags forward &&& specFlagWalkAtTail ≠ 0) = forward.specWalkAtTail := by
  unfold specTrailerFlags
  cases forward.specLogitsRequested <;> cases forward.specWalkAtTail <;> decide

-- The flag travels only beside drafts or a request for logits.
def LayerForward.walks (forward : LayerForward) : Bool := forward.speculates && forward.specWalkAtTail

def numDraftsRefusal (count : Nat) : SwarmError := .network s!"num_drafts {count} > {maxDraftTokens}"

variable {forward}

theorem at_spec (present : forward.speculates = true)
    (fits : forward.draftTokens.length ≤ u16Max) (left : Left data cursor (specTrailer forward ++ post)) :
    byteAt data cursor = (.ok 0x03 : Checked SwarmError UInt8) ∧
      byteAt data (cursor + 1) = (.ok (specTrailerFlags forward) : Checked SwarmError UInt8) ∧
      wordAt 2 data (cursor + 2) = (.ok forward.draftTokens.length : Checked SwarmError Nat) ∧
      Left data (cursor + 4) (forward.draftTokens.flatMap u32Bytes ++ post) := by
  rw [specTrailer, if_pos present, cons_append, cons_append, append_assoc] at left
  have flags := left_next left
  have count := left_next flags
  have body := left_skip count (length_le_bytes 2)
  refine ⟨byte_at_left left, byte_at_left flags, ?_, body⟩
  rw [word_at_left count, Nat.mod_eq_of_lt (lt_of_le_of_lt fits (by decide))]

theorem reads_spec {post : Bytes} (few : forward.draftTokens.length ≤ maxDraftTokens) (above : Above 0x03 post) :
    Reads readSpecTrailer (specTrailer forward) post (forward.draftTokens, forward.specLogitsRequested, forward.walks) := by
  intro data cursor left
  cases present : forward.speculates with
  | false =>
    have absent := present
    rw [speculates, Bool.or_eq_false_iff, Bool.not_eq_false', List.isEmpty_iff] at absent
    have empty : specTrailer forward = [] := by rw [specTrailer, present, if_neg Bool.false_ne_true]
    rw [empty] at left ⊢
    rw [absent.1, absent.2, walks, present, Bool.false_and]
    exact guard_absent ([], false, false) _ (by omega) above left
  | true =>
    have bounded : forward.draftTokens.length ≤ u16Max := le_trans few (by decide)
    obtain ⟨marker, flags, count, body⟩ := at_spec post present bounded left
    have bodyLength := length_flat_map 4 forward.draftTokens u32_width
    have size := left_length body
    rw [length_append, bodyLength] at size
    have long : ¬ data.length < cursor + 4 := by omega
    have whole : ¬ data.length < cursor + 4 + forward.draftTokens.length * 4 := by omega
    have length : (specTrailer forward).length = 4 + forward.draftTokens.length * 4 := by
      rw [specTrailer, if_pos present, length_cons, length_cons, length_append, length_le_bytes, bodyLength]
      omega
    have read := read_each_left 4 u32At u32_width (fun _ _ _ _ here => u32_at_left (E := SwarmError) here) _ _ _ _ body
    rw [length, walks, present, Bool.true_and, ← add_assoc]
    simp only [readSpecTrailer, if_neg long, marker, flags, count, ok_bind, ne_eq, not_true_eq_false, if_false,
      if_neg (not_lt.mpr few), if_neg whole, read, spec_flags.1, spec_flags.2]
    rfl

theorem refuses_spec {post : Bytes} (many : maxDraftTokens < forward.draftTokens.length)
    (fits : forward.draftTokens.length ≤ u16Max) :
    Refuses readSpecTrailer (specTrailer forward) post (numDraftsRefusal forward.draftTokens.length) := by
  intro data cursor left
  have present : forward.speculates = true := by
    have some : forward.draftTokens.isEmpty = false := by
      rw [isEmpty_eq_false_iff, ← length_pos_iff]
      omega
    rw [speculates, some]
    rfl
  obtain ⟨marker, flags, count, body⟩ := at_spec post present fits left
  have size := left_length body
  have long : ¬ data.length < cursor + 4 := by omega
  simp only [readSpecTrailer, if_neg long, marker, flags, count, ok_bind, ne_eq, not_true_eq_false, if_false, if_pos many]
  rfl

theorem reads_truncate_kv (above : Above 0x04 post) :
    Reads readTruncateKvTrailer (truncateKvTrailer forward) post forward.truncateKvTo :=
  reads_fixed_exact 0x04 5 _ u32Bytes _ post (by decide) (fun _ => by rw [u32_width])
    (fun _ _ _ left => u32_at_left left) above

theorem parse_chunk {post : Bytes} (left : Left data (cursor + 1) (chunkBytes chunk ++ post)) :
    parseChunkMeta data cursor = if chunk.invalid then refuse chunk.refusal else .ok chunk := by
  rw [chunkBytes, append_assoc] at left
  have total := left_u32 left
  simp only [parseChunkMeta, u32_at_left left, u32_at_left total, ok_bind]
  split <;> rfl

theorem reads_chunk_meta {post : Bytes} (valid : ∀ chunk ∈ forward.chunkMeta, chunk.invalid = false)
    (above : Above 0x05 post) : Reads readChunkMetaTrailer (chunkMetaTrailer forward) post forward.chunkMeta := by
  intro data cursor left
  cases found : forward.chunkMeta with
  | none =>
    rw [chunkMetaTrailer, found] at left ⊢
    exact reads_absent 0x05 9 parseChunkMeta post (by decide) above data cursor left
  | some chunk =>
    rw [chunkMetaTrailer, found] at left ⊢
    have good : chunk.invalid = false := valid chunk found
    have parsed := parse_chunk (left_next left)
    rw [good, if_neg Bool.false_ne_true] at parsed
    rw [readChunkMetaTrailer, at_fixed 0x05 9 parseChunkMeta (chunkBytes chunk) post data cursor
      (by simp [chunkBytes, u32_width]) left, parsed]
    rfl

theorem refuses_chunk_meta {post : Bytes} (found : forward.chunkMeta = some chunk)
    (invalid : chunk.invalid = true) : Refuses readChunkMetaTrailer (chunkMetaTrailer forward) post chunk.refusal := by
  intro data cursor left
  rw [chunkMetaTrailer, found] at left
  have parsed := parse_chunk (left_next left)
  rw [invalid, if_pos rfl] at parsed
  rw [readChunkMetaTrailer, at_fixed 0x05 9 parseChunkMeta (chunkBytes chunk) post data cursor
    (by simp [chunkBytes, u32_width]) left, parsed]
  rfl

theorem reads_reply_to (above : Above 0x07 post) : Reads readReplyToTrailer (replyToTrailer forward) post forward.requesterNodeId :=
  reads_fixed_exact 0x07 33 _ _ _ post (by decide) (fun node => by rw [node.length_toList])
    (fun _ _ _ left => array_at_left left) above

theorem reads_generated_ids (above : Above 0x08 post) :
    Reads readGeneratedIdsTrailer (generatedIdsTrailer forward) post (forward.generatedIds.take u16Max) :=
  reads_counted 0x08 2 u16Max _ 4 u32At u32Bytes _ post (by decide)
    (fun count positive _ => beq_false_of_ne (Nat.ne_of_gt positive)) (by decide) u32_width
    (fun _ _ _ _ left => u32_at_left left) above

variable (forward)

theorem reads_pre_embedded (above : Above 0x09 post) :
    Reads readPreEmbeddedTrailer (preEmbeddedTrailer forward) post (forward.preEmbedded && forward.tpMeta.isNone) := by
  have written : preEmbeddedTrailer forward = optionalPart 0x09 (fun _ : Unit => [0x01])
      (if forward.preEmbedded && forward.tpMeta.isNone then some () else none) := by
    unfold preEmbeddedTrailer
    cases forward.preEmbedded <;> cases forward.tpMeta <;> rfl
  have read := reads_fixed (E := SwarmError) 0x09 2
    (fun data cursor => do return decide ((← byteAt data (cursor + 1)) &&& 0x01 ≠ 0)) (fun _ : Unit => [0x01])
    (fun _ => true) (if forward.preEmbedded && forward.tpMeta.isNone then some () else none) post (by decide) (fun _ => rfl)
    (fun _ data cursor left => by rw [byte_at_left left]; rfl) above
  rw [← written] at read
  refine reads_then read ?_
  cases forward.preEmbedded && forward.tpMeta.isNone with
  | false | true => exact reads_pure _

-- The sampling fields that travel; the others come out as the defaults.
def SamplingParams.carried (sampling : SamplingParams) : SamplingParams :=
  { default with
    temperature := sampling.temperature
    topP := sampling.topP
    topK := sampling.topK
    frequencyPenalty := sampling.frequencyPenalty
    presencePenalty := sampling.presencePenalty
    logprobs := sampling.logprobs
    topLogprobs := min sampling.topLogprobs 255 }

theorem byte_of_capped : (min value 255).toUInt8.toUInt32 = min value 255 := by
  have small : (min value 255).toNat ≤ 255 := by
    change (if value ≤ 255 then value else 255).toNat ≤ 255
    split
    · rename_i below
      exact UInt32.le_iff_toNat_le.mp below
    · exact le_refl _
  apply UInt32.toNat_inj.mp
  rw [UInt8.toNat_toUInt32, UInt32.toNat_toUInt8]
  omega

theorem f32_at_left {value : F32} (left : Left data cursor (u32Bytes value.bits ++ rest)) : f32At data cursor = .ok value := by
  rw [f32At, u32_at_left left]
  rfl

variable {forward}

theorem reads_sampling (above : Above 0x0A post) :
    Reads readSamplingTrailer (samplingTrailer forward) post (forward.sampling.map carried) := by
  refine reads_fixed 0x0A 23 parseSampling samplingBytes carried _ post (by decide)
    (fun _ => by simp [samplingBytes, u32_width]) ?_ above
  intro sampling data cursor left
  simp only [samplingBytes, cons_append, append_assoc] at left
  have topP := left_u32 left
  have topK := left_u32 topP
  have frequency := left_u32 topK
  have presence := left_u32 frequency
  have flags := left_u32 presence
  have topLogprobs := left_next flags
  simp only [parseSampling, f32_at_left left, f32_at_left topP, u32_at_left topK, f32_at_left frequency,
    f32_at_left presence, byte_at_left flags, byte_at_left topLogprobs, ok_bind, flag_of_byte, byte_of_capped]
  rfl

theorem reads_coupling (above : Above 0x0B post) : Reads readCouplingTrailer (couplingTrailer forward) post forward.couplingSeed :=
  reads_fixed_exact 0x0B 9 _ u64Bytes _ post (by decide) (fun _ => by rw [u64Bytes, length_le_bytes])
    (fun _ _ _ left => u64_at_left left) above

theorem reads_stream (above : Above 0x0C post) : Reads readStreamTrailer (streamTrailer forward) post forward.streamSeq :=
  reads_fixed_exact 0x0C 5 _ u32Bytes _ post (by decide) (fun _ => by rw [u32_width])
    (fun _ _ _ left => u32_at_left left) above

theorem prompt_cache_read {hint : PromptCacheHint} {post : Bytes} (found : forward.promptCache = some hint)
    (counts : hint.keys.length < 256 ^ 4) (left : Left data cursor (promptCacheTrailer forward ++ post)) :
    readPromptCacheTrailer data cursor = .ok (if hint.keys.length ≤ maxKeys then
      (some hint, cursor + (promptCacheTrailer forward).length) else (none, cursor)) := by
  have width : ∀ key : Vector UInt8 32, key.toList.length = 32 := fun key => key.length_toList
  have keysLength := length_flat_map 32 hint.keys width
  have length : (promptCacheTrailer forward).length = 13 + hint.keys.length * 32 := by
    simp only [promptCacheTrailer, found, optionalPart, promptCacheBytes, length_cons, length_append, u32_width,
      length_le_bytes, keysLength]
    omega
  rw [length, ← add_assoc]
  simp only [promptCacheTrailer, found, optionalPart, promptCacheBytes, cons_append, append_assoc] at left
  have block := left_next left
  have resume := left_u32 block
  have count := left_u32 resume
  have keys := left_skip count (length_le_bytes 4)
  have size := left_length keys
  rw [length_append, keysLength] at size
  have long : ¬ data.length < cursor + 13 := by omega
  have whole : ¬ data.length < cursor + 13 + hint.keys.length * 32 := by omega
  have counted := word_at_left (E := SwarmError) count
  rw [Nat.mod_eq_of_lt counts] at counted
  have read := read_each_left 32 (arrayAt 32) width (fun _ _ _ _ here => array_at_left (E := SwarmError) here) _ _ _ _ keys
  simp only [readPromptCacheTrailer, if_neg long, byte_at_left left, u32_at_left block, u32_at_left resume, counted,
    ok_bind, ne_eq, not_true_eq_false, if_false, whole, decide_false, Bool.or_false, read]
  by_cases few : hint.keys.length ≤ maxKeys
  · simp only [not_lt.mpr few, decide_false, Bool.false_eq_true, if_false, if_pos few]
    rfl
  · simp only [not_le.mp few, decide_true, if_true, if_neg few]
    rfl

theorem reads_prompt_cache {post : Bytes} (few : ∀ hint ∈ forward.promptCache, hint.keys.length ≤ maxKeys)
    (above : Above 0x0D post) : Reads readPromptCacheTrailer (promptCacheTrailer forward) post forward.promptCache := by
  intro data cursor left
  cases found : forward.promptCache with
  | none =>
    rw [promptCacheTrailer, found] at left ⊢
    exact guard_absent none _ (by omega) above left
  | some hint =>
    have bounded : hint.keys.length ≤ maxKeys := few hint found
    rw [prompt_cache_read found (lt_of_le_of_lt bounded (by decide)) left, if_pos bounded]

theorem span_width (span : PromptSpan) : (spanBytes span).length = 8 := by
  rw [spanBytes, length_append, u32_width, u32_width]

theorem span_at_left {span : PromptSpan} (left : Left data cursor (spanBytes span ++ rest)) : spanAt data cursor = .ok span := by
  rw [spanBytes, append_assoc] at left
  simp only [spanAt, u32_at_left left, u32_at_left (left_u32 left), ok_bind]
  rfl

theorem reads_prompt_span (above : Above 0x0E post) :
    Reads readPromptSpanTrailer (promptSpanTrailer forward) post forward.promptSpan :=
  reads_fixed_exact 0x0E 9 _ spanBytes _ post (by decide) (fun _ => by rw [span_width])
    (fun _ _ _ left => span_at_left left) above

theorem reads_image_spans (above : Above 0x0F post) :
    Reads readImageSpansTrailer (imageSpansTrailer forward) post (forward.imageSpans.take maxImageSpans) :=
  reads_counted 0x0F 2 maxImageSpans _ 8 spanAt spanBytes _ post (by decide)
    (fun _ _ few => decide_eq_false (not_lt.mpr few)) (by decide) span_width
    (fun _ _ _ _ left => span_at_left left) above

theorem hop_width (hop : ChainHop) : (hopBytes hop).length = 40 := by
  rw [hopBytes, length_append, length_append, u32_width, u32_width, Vector.length_toList]

def ChainHop.valid (hop : ChainHop) : Prop := hop.layerRange.1 < hop.layerRange.2

instance (hop : ChainHop) : Decidable hop.valid := inferInstanceAs (Decidable (hop.layerRange.1 < hop.layerRange.2))

theorem read_hops_left (hops : List ChainHop) (data post : Bytes) (start : Nat)
    (left : Left data start (hops.flatMap hopBytes ++ post)) :
    readHops data start hops.length = .ok (if ∀ hop ∈ hops, hop.valid then some hops else none) := by
  induction hops generalizing start with
  | nil => simp [readHops]
  | cons hop rest ih =>
    simp only [flatMap_cons, hopBytes, append_assoc] at left
    have layerStart := left_skip left hop.nodeId.bytes.length_toList
    have layerEnd := left_u32 layerStart
    have others := ih (start + 40) (left_u32 layerEnd)
    simp only [length_cons, readHops, array_at_left left, u32_at_left layerStart, u32_at_left layerEnd, ok_bind,
      others, forall_mem_cons]
    by_cases served : hop.valid
    · by_cases valid : ∀ other ∈ rest, other.valid
      · rw [if_neg (UInt32.not_le.mpr served), if_pos valid, if_pos ⟨served, valid⟩]
        rfl
      · rw [if_neg (UInt32.not_le.mpr served), if_neg valid, if_neg fun all => valid all.2]
        rfl
    · rw [if_pos (UInt32.not_lt.mp served), if_neg fun all => served all.1]
      rfl

theorem chain_read {post : Bytes} (present : forward.chain.isEmpty = false)
    (left : Left data cursor (chainTrailer forward ++ post)) :
    readChainTrailer data cursor = .ok (if ∀ hop ∈ forward.chain.take u8Max, hop.valid then
      (forward.chain.take u8Max, cursor + (chainTrailer forward).length) else ([], cursor)) := by
  obtain ⟨view, length⟩ := at_counted (E := SwarmError) 0x06 1 u8Max 40 hopBytes forward.chain data post cursor present
    (by decide) hop_width left
  have size := view.size
  have long : ¬ data.length < cursor + 2 := by omega
  have whole : ¬ data.length < cursor + 2 + (forward.chain.take u8Max).length * 40 := by omega
  have some : ((forward.chain.take u8Max).length == 0) = false :=
    beq_false_of_ne (Nat.ne_of_gt (taken_positive _ _ present (by decide)))
  have read := read_hops_left _ _ _ _ view.body
  rw [chainTrailer, length, ← add_assoc]
  simp only [readChainTrailer, if_neg long, view.marker, view.count, ok_bind, ne_eq, not_true_eq_false, if_false, some,
    whole, decide_false, Bool.or_self, Bool.false_eq_true, read]
  by_cases valid : ∀ hop ∈ forward.chain.take u8Max, hop.valid
  · rw [if_pos valid, if_pos valid]
    rfl
  · rw [if_neg valid, if_neg valid]
    rfl

theorem reads_chain {post : Bytes} (valid : ∀ hop ∈ forward.chain.take u8Max, hop.valid)
    (above : Above 0x06 post) : Reads readChainTrailer (chainTrailer forward) post (forward.chain.take u8Max) := by
  intro data cursor left
  cases present : forward.chain.isEmpty with
  | true =>
    have empty := isEmpty_iff.mp present
    rw [chainTrailer, empty] at left ⊢
    exact guard_absent [] _ (by omega) above left
  | false => rw [chain_read present left, if_pos valid]

theorem reads_draft_tree (above : Above 0x10 post) :
    Reads readDraftTreeTrailer (draftTreeTrailer forward) post (forward.draftParents.take maxTreeRows) := by
  intro data cursor left
  cases present : forward.draftParents.isEmpty with
  | true =>
    have empty := isEmpty_iff.mp present
    rw [draftTreeTrailer, empty] at left ⊢
    exact guard_absent [] _ Nat.lt_of_not_le above left
  | false =>
    have width : ∀ parent, (u16Bytes parent).length = 2 := fun parent => length_le_bytes 2
    obtain ⟨view, length⟩ := at_counted (E := SwarmError) 0x10 2 maxTreeRows 2 u16Bytes forward.draftParents data post cursor
      present (by decide) width left
    have size := view.size
    have unended : ¬ data.length ≤ cursor := by omega
    have long : ¬ data.length < cursor + 3 := by omega
    have whole : ¬ data.length < cursor + 3 + (forward.draftParents.take maxTreeRows).length * 2 := by omega
    have some : ((forward.draftParents.take maxTreeRows).length == 0) = false :=
      beq_false_of_ne (Nat.ne_of_gt (taken_positive _ _ present (by decide)))
    have few : ¬ maxTreeRows < (forward.draftParents.take maxTreeRows).length :=
      not_lt.mpr (length_take_le _ _)
    have read := read_each_left 2 u16At width (fun _ _ _ _ here => u16_at_left (E := SwarmError) here) _ _ _ _
      view.body
    rw [draftTreeTrailer, length, ← add_assoc]
    simp only [readDraftTreeTrailer, if_neg unended, if_neg long, view.marker, view.count, ok_bind, ne_eq,
      not_true_eq_false, if_false, some, few, whole, decide_false, Bool.or_self, Bool.false_eq_true, read]
    rfl

variable (forward)

-- The start of a flowing tree travels only beside the tree.
def LayerForward.treeFlow (forward : LayerForward) : Option UInt32 :=
  if forward.draftParents.isEmpty then none else forward.draftTreeFrom

theorem tree_flow_trailer : draftTreeFlowTrailer forward = optionalPart 0x11 u32Bytes forward.treeFlow := by
  unfold draftTreeFlowTrailer treeFlow
  split <;> rfl

theorem reads_draft_tree_flow (above : Above 0x11 post) :
    Reads (readDraftTreeFlowTrailer (!(forward.draftParents.take maxTreeRows).isEmpty)) (draftTreeFlowTrailer forward) post
      forward.treeFlow := by
  rw [tree_flow_trailer]
  refine reads_strict 0x11 5 _ _ u32Bytes _ post (fun _ => by rw [u32_width]) ?_ above
  intro start found data cursor left
  have present : forward.draftParents.isEmpty = false := by
    cases empty : forward.draftParents.isEmpty with
    | false => rfl
    | true =>
      rw [treeFlow, empty, if_pos rfl] at found
      cases found
  rw [is_empty_take maxTreeRows (by decide), present]
  exact u32_at_left left

theorem reads_stream_lookahead (above : Above 0x12 post) :
    Reads readStreamLookaheadTrailer (streamLookaheadTrailer forward) post forward.streamLookahead :=
  reads_strict 0x12 5 _ _ u32Bytes _ post (fun _ => by rw [u32_width]) (fun _ _ _ _ left => u32_at_left left) above

theorem reads_stream_branch (above : Above 0x13 post) :
    Reads readStreamBranchTrailer (streamBranchTrailer forward) post forward.streamBranch := by
  intro data cursor left
  cases found : forward.streamBranch with
  | none =>
    rw [streamBranchTrailer, found] at left ⊢
    exact guard_absent none _ Nat.lt_of_not_le above left
  | some branch =>
    have kindAt : ∀ {rest : Bytes} {kind : UInt8}, Left data (cursor + 1) (kind :: rest) → data[cursor + 1]? = some kind := by
      rintro rest kind ⟨before, rfl, length⟩
      rw [← length, getElem?_append_right (le_refl _), Nat.sub_self, getElem?_cons_zero]
    cases branch with
    | spare of kept token =>
      simp only [streamBranchTrailer, found, optionalPart, streamBranchBytes, cons_append, append_assoc] at left
      have kind := left_next left
      have ofLeft := left_next kind
      have keptLeft := left_u32 ofLeft
      have tokenLeft := left_u32 keptLeft
      have size := left_length (left_u32 tokenLeft)
      have unended : ¬ data.length ≤ cursor := by omega
      have long : ¬ data.length < cursor + 14 := by omega
      simp only [readStreamBranchTrailer, if_neg unended, byte_at_left left, ok_bind, ne_eq, not_true_eq_false, if_false,
        kindAt kind, if_true, if_neg long, u32_at_left ofLeft, u32_at_left keptLeft, u32_at_left tokenLeft,
        streamBranchTrailer, found, optionalPart, streamBranchBytes, length_cons, length_append, u32_width]
      rfl
    | afterSpare spare =>
      simp only [streamBranchTrailer, found, optionalPart, streamBranchBytes, cons_append] at left
      have kind := left_next left
      have spareLeft := left_next kind
      have size := left_length (left_u32 spareLeft)
      have unended : ¬ data.length ≤ cursor := by omega
      have long : ¬ data.length < cursor + 6 := by omega
      have other : (1 : UInt8) ≠ 0 := by decide
      simp only [readStreamBranchTrailer, if_neg unended, byte_at_left left, ok_bind, ne_eq, not_true_eq_false, if_false,
        kindAt kind, if_neg other, if_true, if_neg long, u32_at_left spareLeft, streamBranchTrailer, found,
        optionalPart, streamBranchBytes, length_cons, u32_width]
      rfl

theorem parts_marked {forward : LayerForward} : ∀ part ∈ trailerParts forward, Marked part := by
  have spec : Marked (0x03, specTrailer forward) := by
    unfold specTrailer
    split
    · exact Or.inr ⟨_, rfl⟩
    · exact Or.inl rfl
  have preEmbedded : Marked (0x09, preEmbeddedTrailer forward) := by
    unfold preEmbeddedTrailer
    split
    · exact Or.inl rfl
    · exact Or.inr ⟨_, rfl⟩
  have flow : Marked (0x11, draftTreeFlowTrailer forward) := by
    rw [tree_flow_trailer]
    exact optional_part_marked
  simp only [trailerParts, forall_mem_cons, not_mem_nil, false_implies, implies_true, and_true]
  exact ⟨optional_part_marked, spec, optional_part_marked, optional_part_marked, counted_part_marked,
    optional_part_marked, counted_part_marked, preEmbedded, optional_part_marked, optional_part_marked,
    optional_part_marked, optional_part_marked, optional_part_marked, counted_part_marked,
    counted_part_marked, flow, optional_part_marked, optional_part_marked⟩

theorem parts_ordered : Ordered (trailerParts forward) := by
  refine ⟨?_, parts_marked⟩
  have markers : ((trailerParts forward).map Prod.fst).Pairwise (· < ·) := by
    change List.Pairwise (· < ·) ([0x02, 0x03, 0x04, 0x05, 0x06, 0x07, 0x08, 0x09, 0x0A, 0x0B, 0x0C, 0x0D, 0x0E, 0x0F, 0x10,
      0x11, 0x12, 0x13] : List UInt8)
    decide
  exact pairwise_map.mp markers

def LayerForward.withTrailers (header forward : LayerForward) : LayerForward :=
  { header with
    tpMeta := forward.tpMeta
    chain := forward.chain.take u8Max
    requesterNodeId := forward.requesterNodeId
    preEmbedded := forward.preEmbedded
    generatedIds := forward.generatedIds.take u16Max
    sampling := forward.sampling.map carried
    draftTokens := forward.draftTokens
    specLogitsRequested := forward.specLogitsRequested
    specWalkAtTail := forward.walks
    couplingSeed := forward.couplingSeed
    streamSeq := forward.streamSeq
    truncateKvTo := forward.truncateKvTo
    promptCache := forward.promptCache
    chunkMeta := forward.chunkMeta
    promptSpan := forward.promptSpan
    imageSpans := forward.imageSpans.take maxImageSpans
    draftParents := forward.draftParents.take maxTreeRows
    draftTreeFrom := forward.treeFlow
    streamLookahead := forward.streamLookahead
    streamBranch := forward.streamBranch }

-- The chain and the prompt-cache hint are such that the readers take them.
structure LayerForward.Servable (forward : LayerForward) : Prop where
  hops : ∀ hop ∈ forward.chain.take u8Max, hop.valid
  keys : ∀ hint ∈ forward.promptCache, hint.keys.length ≤ maxKeys

theorem reads_trailers (servable : forward.Servable) (few : forward.draftTokens.length ≤ maxDraftTokens)
    (valid : ∀ chunk ∈ forward.chunkMeta, chunk.invalid = false) :
    Reads (readTrailers header) (trailers forward) [] (header.withTrailers forward) := by
  have ordered := parts_ordered forward
  have embedded : (forward.tpMeta.isSome && forward.preEmbedded || forward.preEmbedded && forward.tpMeta.isNone) =
      forward.preEmbedded := by
    cases forward.tpMeta <;> cases forward.preEmbedded <;> rfl
  unfold trailers readTrailers
  unfold trailerParts at ordered ⊢
  refine reads_part ordered (reads_tp_meta forward) fun ordered => ?_
  refine reads_part ordered (fun post => reads_spec few) fun ordered => ?_
  refine reads_part ordered reads_truncate_kv fun ordered => ?_
  refine reads_part ordered (fun post => reads_chunk_meta valid) fun ordered => ?_
  refine reads_part ordered (fun post => reads_chain servable.hops) fun ordered => ?_
  refine reads_part ordered reads_reply_to fun ordered => ?_
  refine reads_part ordered reads_generated_ids fun ordered => ?_
  refine reads_part ordered (reads_pre_embedded forward) fun ordered => ?_
  refine reads_part ordered reads_sampling fun ordered => ?_
  refine reads_part ordered reads_coupling fun ordered => ?_
  refine reads_part ordered reads_stream fun ordered => ?_
  refine reads_part ordered (fun post => reads_prompt_cache servable.keys) fun ordered => ?_
  refine reads_part ordered reads_prompt_span fun ordered => ?_
  refine reads_part ordered reads_image_spans fun ordered => ?_
  refine reads_part ordered reads_draft_tree fun ordered => ?_
  refine reads_part ordered (reads_draft_tree_flow forward) fun ordered => ?_
  refine reads_part ordered (reads_stream_lookahead forward) fun ordered => ?_
  refine reads_part ordered (reads_stream_branch forward) fun ordered => ?_
  rw [embedded]
  exact reads_pure _

theorem refuses_many_drafts {header forward : LayerForward} (many : maxDraftTokens < forward.draftTokens.length)
    (fits : forward.draftTokens.length ≤ u16Max) :
    Refuses (readTrailers header) (trailers forward) [] (numDraftsRefusal forward.draftTokens.length) := by
  have ordered := parts_ordered forward
  unfold trailers readTrailers
  unfold trailerParts at ordered ⊢
  refine refuses_part ordered (reads_tp_meta forward) fun _ => ?_
  exact refuses_first (refuses_spec many fits)

theorem refuses_invalid_chunk (chunk : ChunkMeta) (few : forward.draftTokens.length ≤ maxDraftTokens)
    (found : forward.chunkMeta = some chunk) (invalid : chunk.invalid = true) :
    Refuses (readTrailers header) (trailers forward) [] chunk.refusal := by
  have ordered := parts_ordered forward
  unfold trailers readTrailers
  unfold trailerParts at ordered ⊢
  refine refuses_part ordered (reads_tp_meta forward) fun ordered => ?_
  refine refuses_part ordered (fun post => reads_spec few) fun ordered => ?_
  refine refuses_part ordered reads_truncate_kv fun _ => ?_
  exact refuses_first (refuses_chunk_meta found invalid)

theorem sampling_bytes_carried {sampling : SamplingParams} : samplingBytes sampling.carried = samplingBytes sampling := by
  have capped : min (min sampling.topLogprobs 255) 255 = min sampling.topLogprobs 255 := by
    change (if (if sampling.topLogprobs ≤ 255 then sampling.topLogprobs else 255) ≤ 255 then
      (if sampling.topLogprobs ≤ 255 then sampling.topLogprobs else 255) else 255) =
        if sampling.topLogprobs ≤ 255 then sampling.topLogprobs else 255
    split <;> rfl
  simp only [samplingBytes, carried, capped]

theorem sampling_trailer_read : samplingTrailer (header.withTrailers forward) = samplingTrailer forward := by
  simp only [samplingTrailer, withTrailers]
  cases forward.sampling with
  | none => rfl
  | some sampling => exact congrArg (List.cons 0x0A) sampling_bytes_carried

theorem draft_tree_flow_trailer_read : draftTreeFlowTrailer (header.withTrailers forward) = draftTreeFlowTrailer forward := by
  simp only [draftTreeFlowTrailer, withTrailers, treeFlow, is_empty_take maxTreeRows (by decide)]
  split <;> rfl

theorem spec_trailer_flags_read {header forward : LayerForward} (present : forward.speculates = true) :
    specTrailerFlags (header.withTrailers forward) = specTrailerFlags forward := by
  simp only [specTrailerFlags, withTrailers, walks, present, Bool.true_and]

theorem later_trailers_read {header forward : LayerForward} :
    (trailerParts (header.withTrailers forward)).drop 2 = (trailerParts forward).drop 2 := by
  have chain : chainTrailer (header.withTrailers forward) = chainTrailer forward :=
    counted_part_take 0x06 1 u8Max hopBytes forward.chain (by decide)
  have generatedIds : generatedIdsTrailer (header.withTrailers forward) = generatedIdsTrailer forward :=
    counted_part_take 0x08 2 u16Max u32Bytes forward.generatedIds (by decide)
  have imageSpans : imageSpansTrailer (header.withTrailers forward) = imageSpansTrailer forward :=
    counted_part_take 0x0F 2 maxImageSpans spanBytes forward.imageSpans (by decide)
  have draftTree : draftTreeTrailer (header.withTrailers forward) = draftTreeTrailer forward :=
    counted_part_take 0x10 2 maxTreeRows u16Bytes forward.draftParents (by decide)
  simp only [trailerParts, drop_succ_cons, drop_zero, chain, generatedIds, imageSpans, draftTree,
    sampling_trailer_read, draft_tree_flow_trailer_read]
  rfl

end SwarmLlm.Network
