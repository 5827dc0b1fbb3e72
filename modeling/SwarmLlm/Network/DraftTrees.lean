import SwarmLlm.Network.Plain

namespace SwarmLlm.Network

open Lib

def TreeKept {S : Type} (tree : S → List UInt16) (parents : List UInt16) (outcome : Checked SwarmError S) : Prop :=
  (∃ error, outcome = refuse error) ∨ ∃ read, outcome = .ok read ∧ tree read = parents

def LayerForward.Refused (forward : LayerForward) : Prop :=
  maxDraftTokens < forward.draftTokens.length ∨ ∃ chunk ∈ forward.chunkMeta, chunk.invalid = true

def LayerForward.TreeTravels (forward : LayerForward) : Prop :=
  forward.Refused ∨ forward.Servable ∧ forward.draftParents.length ≤ maxTreeRows

section Lost

variable {header forward : LayerForward} (few : forward.draftTokens.length ≤ maxDraftTokens)
  (valid : ∀ chunk ∈ forward.chunkMeta, chunk.invalid = false)

include few valid

theorem lost_behind_chain (declined : ¬ ∀ hop ∈ forward.chain.take u8Max, hop.valid) :
    Gives (readTrailers header) (trailers forward) fun read => read.draftParents = [] := by
  have ordered := parts_ordered forward
  have present : forward.chain.isEmpty = false := by
    rw [List.isEmpty_eq_false_iff]
    intro empty
    simp [empty] at declined
  unfold trailers readTrailers
  unfold trailerParts at ordered ⊢
  refine gives_part ordered (reads_tp_meta forward) fun ordered => ?_
  refine gives_part ordered (fun post => reads_spec few) fun ordered => ?_
  refine gives_part ordered reads_truncate_kv fun ordered => ?_
  refine gives_part ordered (fun post => reads_chunk_meta valid) fun _ => ?_
  refine gives_unmoved (show Reads readChainTrailer [] _ [] from fun data cursor left => ?_) ?_
  · rw [chain_read present left, if_neg declined]
    rfl
  rw [List.flatMap_cons, chainTrailer, countedPart, present]
  iterate 2 refine gives_past (fun _ _ => rfl) (by decide) ?_
  refine gives_unmoved (reads_then (reads_elsewhere (fun _ _ => rfl) (by decide)) (reads_pure _)) ?_
  iterate 10 refine gives_past (fun _ _ => rfl) (by decide) ?_
  exact fun _ _ _ => ⟨_, _, rfl, rfl⟩

theorem lost_behind_hint (hops : ∀ hop ∈ forward.chain.take u8Max, hop.valid) {hint : PromptCacheHint}
    (found : forward.promptCache = some hint) (counts : hint.keys.length < 256 ^ 4) (many : ¬ hint.keys.length ≤ maxKeys) :
    Gives (readTrailers header) (trailers forward) fun read => read.draftParents = [] := by
  have ordered := parts_ordered forward
  unfold trailers readTrailers
  unfold trailerParts at ordered ⊢
  refine gives_part ordered (reads_tp_meta forward) fun ordered => ?_
  refine gives_part ordered (fun post => reads_spec few) fun ordered => ?_
  refine gives_part ordered reads_truncate_kv fun ordered => ?_
  refine gives_part ordered (fun post => reads_chunk_meta valid) fun ordered => ?_
  refine gives_part ordered (fun post => reads_chain hops) fun ordered => ?_
  refine gives_part ordered reads_reply_to fun ordered => ?_
  refine gives_part ordered reads_generated_ids fun ordered => ?_
  refine gives_part ordered (reads_pre_embedded forward) fun ordered => ?_
  refine gives_part ordered reads_sampling fun ordered => ?_
  refine gives_part ordered reads_coupling fun ordered => ?_
  refine gives_part ordered reads_stream fun _ => ?_
  refine gives_unmoved (show Reads readPromptCacheTrailer [] _ none from fun data cursor left => ?_) ?_
  · rw [prompt_cache_read found counts left, if_neg many]
    rfl
  · rw [List.flatMap_cons, promptCacheTrailer, found]
    iterate 6 refine gives_past (fun _ _ => rfl) (by decide) ?_
    exact fun _ _ _ => ⟨_, _, rfl, rfl⟩

end Lost

variable {parents : List UInt16}

theorem tree_kept_ok {S : Type} {tree : S → List UInt16} {read : S} : TreeKept tree parents (.ok read) ↔ tree read = parents := by
  simp [TreeKept, refuse]

theorem trailers_keep_tree {header forward : LayerForward} {data : Bytes} {cursor : Nat} (tree : forward.draftParents ≠ [])
    (drafts : forward.draftTokens.length ≤ u16Max) (counts : ∀ hint ∈ forward.promptCache, hint.keys.length < 256 ^ 4)
    (left : Left data cursor (trailers forward ++ [])) :
    TreeKept (fun read => read.1.draftParents) forward.draftParents (readTrailers header data cursor) ↔ forward.TreeTravels := by
  by_cases refused : forward.Refused
  · refine iff_of_true (.inl ?_) (.inl refused)
    by_cases many : maxDraftTokens < forward.draftTokens.length
    · exact ⟨_, refuses_many_drafts many drafts data cursor left⟩
    · obtain ⟨chunk, found, invalid⟩ := refused.resolve_left many
      exact ⟨_, refuses_invalid_chunk header forward chunk (Nat.le_of_not_lt many) found invalid data cursor left⟩
  have few : forward.draftTokens.length ≤ maxDraftTokens := Nat.le_of_not_lt fun many => refused (.inl many)
  have valid : ∀ chunk ∈ forward.chunkMeta, chunk.invalid = false := fun chunk found =>
    Bool.eq_false_iff.mpr fun invalid => refused (.inr ⟨chunk, found, invalid⟩)
  by_cases servable : forward.Servable
  · rw [reads_trailers header forward servable few valid data cursor left, tree_kept_ok]
    simp only [LayerForward.TreeTravels, refused, servable, false_or, true_and]
    refine ⟨fun kept => ?_, List.take_of_length_le⟩
    rw [← kept]
    exact List.length_take_le _ _
  have lost : Gives (readTrailers header) (trailers forward) fun read => read.draftParents = [] := by
    by_cases hops : ∀ hop ∈ forward.chain.take u8Max, hop.valid
    · have declined : ¬ ∀ hint ∈ forward.promptCache, hint.keys.length ≤ maxKeys := fun keys => servable ⟨hops, keys⟩
      cases found : forward.promptCache with
      | none => simp [found] at declined
      | some hint => exact lost_behind_hint few valid hops found (counts hint found) (by simpa [found] using declined)
    · exact lost_behind_chain few valid hops
  rw [List.append_nil] at left
  obtain ⟨read, after, ran, none⟩ := lost data cursor left
  rw [ran, tree_kept_ok, none]
  exact iff_of_false tree.symm fun travels => servable (travels.resolve_left refused).1

theorem tree_kept_after {S T : Type} {tree : T → List UInt16} {outcome : Checked SwarmError S} {make : S → T} :
    TreeKept tree parents (outcome >>= fun read => pure (make read)) ↔ TreeKept (fun read => tree (make read)) parents outcome := by
  cases outcome with
  | error fault => simp [TreeKept, refuse, bind, Except.bind]
  | ok read => rw [ok_bind, tree_kept_ok]; exact tree_kept_ok

theorem large_payload_refused {forward : LayerForward} (large : maxActivationSize < forward.activations.length)
    (small : forward.activations.length < 256 ^ 4) :
    ∃ error, decodeLayerForward (tensorTagForward :: plainBody forward) = refuse error := by
  have header := at_plain small
  have size := left_length header.model
  have long : ¬ (plainBody forward).length < 29 := by omega
  refine ⟨.network s!"LayerForward activation too large: {forward.activations.length} bytes (max {maxActivationSize})", ?_⟩
  simp only [decodeLayerForward, stripTag, if_true, if_neg long, header.requestId, header.sequenceNum, header.indexPos,
    header.format, header.dataLen, ok_bind, format_of_tag, if_pos large]
  rfl

theorem tree_kept_iff (forward : LayerForward) (sealedActivations : Bytes) (tree : forward.draftParents ≠ [])
    (counts : ∀ hint ∈ forward.promptCache, hint.keys.length < 2 ^ 32) (fits : sealedActivations.length < 2 ^ 32) :
    ((∀ bytes, encodeLayerForward forward = .ok bytes →
        TreeKept LayerForward.draftParents forward.draftParents (decodeLayerForward bytes)) ↔
      u16Max < (utf8 forward.modelId).length ∨ maxActivationSize < forward.activations.length ∨ forward.TreeTravels) ∧
    ((∀ bytes, encodeLayerForwardEncrypted forward sealedActivations = .ok bytes →
        TreeKept (fun read => read.1.draftParents) forward.draftParents (decodeLayerForwardEncrypted bytes)) ↔
      u16Max < (utf8 forward.modelId).length ∨ forward.TreeTravels) := by
  by_cases name : u16Max < (utf8 forward.modelId).length
  · simp [plain_encodes, encrypted_encodes, not_le.mpr name, name]
  by_cases drafts : u16Max < forward.draftTokens.length
  · have refused : forward.Refused := Or.inl (lt_trans (by decide) drafts)
    simp [plain_encodes, encrypted_encodes, not_le.mpr drafts, LayerForward.TreeTravels, refused]
  rw [not_lt] at name drafts
  constructor
  · by_cases large : maxActivationSize < forward.activations.length
    · refine iff_of_true (fun bytes encoded => ?_) (.inr (.inl large))
      obtain ⟨⟨_, small, _⟩, rfl⟩ := plain_encodes.mp encoded
      exact .inl (large_payload_refused large (Nat.lt_succ_of_le small))
    rw [not_lt] at large
    have small : forward.activations.length ≤ u32Max := le_trans large (by decide)
    have after := (at_model name (at_plain (Nat.lt_succ_of_le small)).model).after
    rw [← List.append_nil (trailers forward)] at after
    simp only [plain_encodes, name, small, drafts, and_self, true_and, forall_eq, decode_plain name large,
      not_lt.mpr name, not_lt.mpr large, false_or]
    exact tree_kept_after.trans (trailers_keep_tree tree drafts counts after)
  · obtain ⟨data, cursor, after, decoded⟩ := decode_after_header forward name fits
    simp only [encrypted_encodes, name, drafts, and_self, true_and, forall_eq, decoded, not_lt.mpr name, false_or]
    exact tree_kept_after.trans (trailers_keep_tree tree drafts counts after)

theorem tree_kept_iff_sample :
    ∃ bytes, encodeLayerForward sampleForward = .ok bytes ∧ TreeKept LayerForward.draftParents [0, 1] (decodeLayerForward bytes) :=
  ⟨_, rfl, (tree_kept_iff sampleForward [] (by decide) (by decide) (by decide)).1.mpr
    (.inr (.inr (.inr ⟨⟨by decide, by decide⟩, by decide⟩))) _ rfl⟩

-- A hop that serves no layer, and the tree behind it is read as a chain.
theorem tree_read_as_chain :
    ∃ bytes, encodeLayerForward { sampleForward with chain := [⟨.ofByte 9, (12, 12)⟩] } = .ok bytes ∧
      (decodeLayerForward bytes).toOption.map (fun read => (read.draftTokens, read.draftParents)) = some ([42, 43], []) :=
  ⟨_, rfl, by decide +kernel⟩

end SwarmLlm.Network
