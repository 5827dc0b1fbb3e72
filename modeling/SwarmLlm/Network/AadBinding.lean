import SwarmLlm.Network.Encrypted

namespace SwarmLlm.Network

open Lib List LayerForward Except

theorem yields_spec : Yields readSpecTrailer fun spec => spec.1.length ≤ maxDraftTokens := by
  intro data cursor spec after ran
  rcases guard_passed ran with ⟨rfl, _⟩ | ⟨_, _, rest⟩
  · exact Nat.zero_le _
  obtain ⟨flags, _, rest⟩ := ok_of_bind rest
  obtain ⟨numDrafts, _, rest⟩ := ok_of_bind rest
  obtain ⟨few, rest⟩ := past_check rest
  obtain ⟨_, rest⟩ := past_check rest
  obtain ⟨drafts, read, returned⟩ := ok_of_bind rest
  cases returned
  rw [read_each_length 4 data _ drafts read]
  exact Nat.le_of_not_lt few

theorem yields_chunk_meta : Yields readChunkMetaTrailer fun item => ∀ chunk ∈ item, chunk.invalid = false := by
  refine yields_fixed 0x05 9 parseChunkMeta (fun chunk => chunk.invalid = false) ?_
  intro data cursor chunk parsed
  obtain ⟨chunkIdx, _, rest⟩ := ok_of_bind parsed
  obtain ⟨totalChunks, _, rest⟩ := ok_of_bind rest
  obtain ⟨valid, returned⟩ := past_check rest
  cases returned
  exact Bool.not_eq_true _ ▸ valid

variable (first second forward : LayerForward) (rest data : Bytes) (cursor after : Nat)

theorem read_hops_ok (start : Nat) {count : Nat} (hops : List ChainHop) (read : readHops data start count = .ok (some hops)) :
    hops.length = count ∧ ∀ hop ∈ hops, hop.valid := by
  induction count generalizing start hops with
  | zero =>
    cases read
    exact ⟨rfl, fun _ listed => nomatch listed⟩
  | succ count ih =>
    obtain ⟨node, _, rest⟩ := ok_of_bind read
    obtain ⟨layerStart, _, rest⟩ := ok_of_bind rest
    obtain ⟨layerEnd, _, rest⟩ := ok_of_bind rest
    by_cases empty : layerEnd ≤ layerStart
    · rw [if_pos empty] at rest
      cases rest
    rw [if_neg empty] at rest
    obtain ⟨others, readOthers, returned⟩ := ok_of_bind rest
    cases others with
    | none => cases returned
    | some others =>
      cases returned
      obtain ⟨length, valid⟩ := ih (start + 40) others readOthers
      exact ⟨by rw [length_cons, length], forall_mem_cons.mpr ⟨UInt32.not_le.mp empty, valid⟩⟩

theorem yields_chain : Yields readChainTrailer fun chain => chain.length ≤ u8Max ∧ ∀ hop ∈ chain, hop.valid := by
  intro data cursor chain after ran
  have absent : ([] : List ChainHop).length ≤ u8Max ∧ ∀ hop ∈ ([] : List ChainHop), hop.valid :=
    ⟨Nat.zero_le _, fun _ listed => nomatch listed⟩
  rcases guard_passed ran with ⟨rfl, _⟩ | ⟨_, _, rest⟩
  · exact absent
  obtain ⟨count, counted, rest⟩ := ok_of_bind rest
  by_cases declined : (count == 0 || decide (data.length < cursor + 2 + count * 40)) = true
  · rw [if_pos declined] at rest
    cases rest
    exact absent
  rw [if_neg declined] at rest
  obtain ⟨read, readAll, returned⟩ := ok_of_bind rest
  cases read with
  | none =>
    cases returned
    exact absent
  | some hops =>
    cases returned
    obtain ⟨length, valid⟩ := read_hops_ok data (cursor + 2) chain readAll
    have below : count < 256 ^ 1 := (word_at_ok counted).2
    exact ⟨by rw [length]; exact Nat.le_of_lt_succ below, valid⟩

theorem yields_generated_ids : Yields readGeneratedIdsTrailer fun ids => ids.length ≤ u16Max := by
  intro data cursor ids after ran
  rcases yields_counted 0x08 2 (· == 0) 4 u32At data cursor ids after ran with rfl | ⟨below, _⟩
  · exact Nat.zero_le _
  · exact Nat.le_of_lt_succ below

theorem yields_image_spans : Yields readImageSpansTrailer fun spans => spans.length ≤ maxImageSpans := by
  intro data cursor spans after ran
  rcases yields_counted 0x0F 2 (fun count => maxImageSpans < count) 8 spanAt data cursor spans after ran with rfl | ⟨_, few⟩
  · exact Nat.zero_le _
  · exact Nat.le_of_not_lt (of_decide_eq_false few)

theorem byte_below_cap (byte : UInt8) : min byte.toUInt32 255 = byte.toUInt32 := by
  have below : byte.toNat < 256 := byte.toNat_lt
  have small : byte.toUInt32 ≤ 255 := by
    rw [UInt32.le_iff_toNat_le, UInt8.toNat_toUInt32]
    exact Nat.le_of_lt_succ below
  exact if_pos small

theorem yields_sampling : Yields readSamplingTrailer fun item => ∀ sampling ∈ item, sampling.carried = sampling := by
  refine yields_fixed 0x0A 23 parseSampling (fun sampling => sampling.carried = sampling) ?_
  intro data cursor sampling parsed
  obtain ⟨temperature, _, rest⟩ := ok_of_bind parsed
  obtain ⟨topP, _, rest⟩ := ok_of_bind rest
  obtain ⟨topK, _, rest⟩ := ok_of_bind rest
  obtain ⟨frequencyPenalty, _, rest⟩ := ok_of_bind rest
  obtain ⟨presencePenalty, _, rest⟩ := ok_of_bind rest
  obtain ⟨flags, _, rest⟩ := ok_of_bind rest
  obtain ⟨topLogprobs, _, returned⟩ := ok_of_bind rest
  cases returned
  simp only [SamplingParams.carried, byte_below_cap]

theorem yields_prompt_cache : Yields readPromptCacheTrailer fun item => ∀ hint ∈ item, hint.keys.length ≤ maxKeys := by
  intro data cursor item after ran
  have absent : ∀ hint ∈ (none : Option PromptCacheHint), hint.keys.length ≤ maxKeys := fun _ listed => nomatch listed
  rcases guard_passed ran with ⟨rfl, _⟩ | ⟨_, _, rest⟩
  · exact absent
  obtain ⟨blockTokens, _, rest⟩ := ok_of_bind rest
  obtain ⟨resumeAt, _, rest⟩ := ok_of_bind rest
  obtain ⟨count, _, rest⟩ := ok_of_bind rest
  by_cases declined : (decide (maxKeys < count) || decide (data.length < cursor + 13 + count * 32)) = true
  · simp only [declined, if_true] at rest
    cases rest
    exact absent
  simp only [declined, Bool.false_eq_true, if_false] at rest
  obtain ⟨keys, read, returned⟩ := ok_of_bind rest
  cases returned
  intro hint listed
  cases listed
  rw [Bool.not_eq_true, Bool.or_eq_false_iff] at declined
  rw [read_each_length 32 data _ keys read]
  exact Nat.le_of_not_lt (of_decide_eq_false declined.1)

theorem yields_draft_tree : Yields readDraftTreeTrailer fun parents => parents.length ≤ maxTreeRows := by
  intro data cursor parents after ran
  rcases guard_passed ran with ⟨rfl, _⟩ | ⟨_, _, rest⟩
  · exact Nat.zero_le _
  obtain ⟨_, rest⟩ := past_check rest
  obtain ⟨count, _, rest⟩ := ok_of_bind rest
  obtain ⟨taken, rest⟩ := past_check rest
  obtain ⟨read, readAll, returned⟩ := ok_of_bind rest
  cases returned
  rw [Bool.not_eq_true, Bool.or_eq_false_iff, Bool.or_eq_false_iff] at taken
  rw [read_each_length 2 data _ parents readAll]
  exact Nat.le_of_not_lt (of_decide_eq_false taken.1.2)

theorem yields_draft_tree_flow {hasTree : Bool} :
    Yields (readDraftTreeFlowTrailer hasTree) fun start => hasTree = false → start = none := by
  intro data cursor start after ran noTree
  subst noTree
  rcases guard_passed ran with ⟨rfl, _⟩ | ⟨_, _, rest⟩
  · rfl
  · obtain ⟨_, rest⟩ := past_check rest
    obtain ⟨value, parsed, _⟩ := ok_of_bind rest
    cases parsed

-- A forward that reads back as it is, but for the flag a trailer without drafts
-- and without a request for logits may have set.
structure LayerForward.Readable (forward : LayerForward) : Prop where
  draftTokens : forward.draftTokens.length ≤ maxDraftTokens
  chunkMeta : ∀ chunk ∈ forward.chunkMeta, chunk.invalid = false
  servable : forward.Servable
  again : forward.header.withTrailers forward = { forward with specWalkAtTail := forward.walks }

theorem carried_read {item : Option SamplingParams} (kept : ∀ sampling ∈ item, sampling.carried = sampling) :
    item.map SamplingParams.carried = item := by
  cases item with
  | none => rfl
  | some sampling => exact congrArg some (kept sampling rfl)

theorem tree_flow_read {parents : List UInt16} {start : Option UInt32} (flow : (!parents.isEmpty) = false → start = none) :
    (if parents.isEmpty then none else start) = start := by
  cases empty : parents.isEmpty with
  | true => rw [if_pos rfl, flow (by rw [empty]; rfl)]
  | false => rw [if_neg Bool.false_ne_true]

-- What the trailers after the drafts can give, for a header that carries none.
structure LaterRead (header : LayerForward) (spec : List UInt32 × Bool × Bool) (forward : LayerForward) : Prop where
  header : forward.header = header
  draftTokens : forward.draftTokens = spec.1
  logits : forward.specLogitsRequested = spec.2.1
  walk : forward.specWalkAtTail = spec.2.2
  readable : forward.Readable

theorem read_trailers_ok {read : LayerForward} {data : Bytes} {start after : Nat}
    (ran : readTrailers forward.header data start = .ok (read, after)) :
    ∃ tp cursor spec between, readTpMetaTrailer data start = .ok (tp, cursor) ∧
      readSpecTrailer data cursor = .ok (spec, between) ∧ LaterRead forward.header spec read := by
  obtain ⟨tp, cursor, tpRead, ran⟩ := read_of_bind ran
  obtain ⟨spec, between, specRead, ran⟩ := read_of_bind ran
  refine ⟨tp, cursor, spec, between, tpRead, specRead, ?_⟩
  have few := yields_spec data cursor spec between specRead
  refine (?_ : Yields _ (LaterRead forward.header spec)) data between read after ran
  refine yields_bind yields_any fun truncateKvTo _ => ?_
  refine yields_bind yields_chunk_meta fun chunkMeta valid => ?_
  refine yields_bind yields_chain fun chain hops => ?_
  refine yields_bind yields_any fun requesterNodeId _ => ?_
  refine yields_bind yields_generated_ids fun generatedIds ids => ?_
  refine yields_bind yields_any fun preEmbedded _ => ?_
  refine yields_bind yields_sampling fun sampling kept => ?_
  refine yields_bind yields_any fun couplingSeed _ => ?_
  refine yields_bind yields_any fun streamSeq _ => ?_
  refine yields_bind yields_prompt_cache fun promptCache keys => ?_
  refine yields_bind yields_any fun promptSpan _ => ?_
  refine yields_bind yields_image_spans fun imageSpans spans => ?_
  refine yields_bind yields_draft_tree fun draftParents rows => ?_
  refine yields_bind yields_draft_tree_flow fun draftTreeFrom flow => ?_
  refine yields_bind yields_any fun streamLookahead _ => ?_
  refine yields_bind yields_any fun streamBranch _ => ?_
  refine yields_pure _ ⟨rfl, rfl, rfl, rfl, few, valid, ⟨?_, keys⟩, ?_⟩
  · exact fun hop listed => hops.2 hop (mem_of_mem_take listed)
  · simp only [withTrailers, take_of_length_le hops.1, take_of_length_le ids,
      take_of_length_le spans, take_of_length_le rows, carried_read kept, treeFlow,
      tree_flow_read flow]
    rfl

theorem aad_trailers (few : forward.draftTokens.length ≤ maxDraftTokens) :
    buildLayerForwardAad forward = headerBytes forward ++ trailers forward := by
  have counted : forward.draftTokens.length ≤ u16Max := Nat.le_trans few (by decide)
  have spec : aadSpecTrailer forward = specTrailer forward := by
    rw [aadSpecTrailer, specTrailer, Nat.min_eq_left counted]
  rw [buildLayerForwardAad, spec]
  rfl

theorem left_unique {data rest other : Bytes} {cursor : Nat} (left : Left data cursor rest) (right : Left data cursor other) :
    rest = other := by
  obtain ⟨before, rfl, length⟩ := left
  obtain ⟨earlier, same, matching⟩ := right
  exact (append_inj same (by rw [length, matching])).2

theorem header_unique {rest other : Bytes} (one : AtHeader first data rest) (two : AtHeader second data other) :
    first.header = second.header ∧ rest = other := by
  have requestId : first.requestId = second.requestId := by
    have same := ok.inj (one.requestId.symm.trans two.requestId)
    cases firstId : first.requestId
    cases secondId : second.requestId
    rw [firstId, secondId] at same
    exact congrArg Uuid.mk same
  have sequenceNum := ok.inj (one.sequenceNum.symm.trans two.sequenceNum)
  have indexPos := ok.inj (one.indexPos.symm.trans two.indexPos)
  have format : first.format = second.format := by
    have same := congrArg TensorFormat.ofTag (ok.inj (one.format.symm.trans two.format))
    rw [format_of_tag, format_of_tag] at same
    exact Option.some.inj same
  have layerRange : first.layerRange = second.layerRange :=
    Prod.ext (ok.inj (one.layerStart.symm.trans two.layerStart))
      (ok.inj (one.layerEnd.symm.trans two.layerEnd))
  have length := ok.inj (one.midLen.symm.trans two.midLen)
  have modelId : first.modelId = second.modelId := by
    have named := one.modelId
    rw [length] at named
    have same := congrArg fromUtf8 (ok.inj (named.symm.trans two.modelId))
    rw [from_utf8_utf8, from_utf8_utf8] at same
    exact Option.some.inj same
  have after := one.after
  rw [length] at after
  refine ⟨?_, left_unique after two.after⟩
  rw [header, requestId, sequenceNum, indexPos, format, modelId, layerRange, header]

-- Equal data to authenticate: the forwards agree but for that one flag.
theorem aad_determines (one : first.Readable) (two : second.Readable) (firstName : (utf8 first.modelId).length ≤ u16Max)
    (secondName : (utf8 second.modelId).length ≤ u16Max) (same : buildLayerForwardAad first = buildLayerForwardAad second) :
    { first with specWalkAtTail := first.walks } = { second with specWalkAtTail := second.walks } := by
  rw [aad_trailers first one.draftTokens, aad_trailers second two.draftTokens] at same
  have firstHeader := at_header first _ firstName (left_start (headerBytes first ++ trailers first))
  have secondHeader := at_header second _ secondName (left_start (headerBytes second ++ trailers second))
  rw [← same] at secondHeader
  obtain ⟨headers, rest⟩ := header_unique first second _ firstHeader secondHeader
  have firstLeft : Left (trailers first) 0 (trailers first ++ []) := by
    rw [append_nil]
    exact left_start _
  have secondLeft : Left (trailers first) 0 (trailers second ++ []) := by
    rwa [← rest]
  have firstRead := reads_trailers first.header first one.servable one.draftTokens one.chunkMeta _ _ firstLeft
  have secondRead := reads_trailers first.header second two.servable two.draftTokens two.chunkMeta _ _ secondLeft
  have read := congrArg Prod.fst (ok.inj (firstRead.symm.trans secondRead))
  have firstAgain := one.again
  have secondAgain := two.again
  rw [← headers] at secondAgain
  exact firstAgain.symm.trans (Eq.trans read secondAgain)

def trailerStart (data : Bytes) : Nat :=
  let midLen := fromLe ((data.drop 33).take 2)
  35 + midLen + 4 + fromLe ((data.drop (35 + midLen)).take 4)

def specStart (data : Bytes) : Nat :=
  let start := trailerStart data
  if start + 9 ≤ data.length ∧ data[start]? = some 0x02 then start + 9 else start

def strayAt : Bytes → Bool
  | marker :: flags :: low :: high :: _ =>
    marker == 0x03 && (low == 0 && high == 0) && !decide (flags &&& specFlagLogits ≠ 0) &&
      decide (flags &&& specFlagWalkAtTail ≠ 0)
  | _ => false

def strayWalk (input : Bytes) : Bool :=
  let data := stripTag tensorTagEncrypted input
  strayAt (data.drop (specStart data))

theorem byte_at_ok {data : Bytes} {index : Nat} {byte : UInt8} (read : byteAt data index = (.ok byte : Checked SwarmError UInt8)) :
    data[index]? = some byte := by
  unfold byteAt at read
  split at read
  · rename_i found
    cases read
    exact found
  · cases read

theorem tp_meta_end {start cursor : Nat} {tp : Option TensorParallelMeta × Bool}
    (ran : readTpMetaTrailer data start = .ok (tp, cursor)) :
    cursor = if start + 9 ≤ data.length ∧ data[start]? = some 0x02 then start + 9 else start := by
  obtain ⟨item, between, read, returned⟩ := read_of_bind ran
  have same : cursor = between := by
    cases item with
    | none | some =>
      cases returned
      rfl
  subst same
  rcases guard_passed read with ⟨_, stays, short | ⟨byte, found, apart⟩⟩ | ⟨long, found, rest⟩
  · rw [if_neg (fun both => by omega), stays]
  · rw [if_neg, stays]
    intro both
    rw [byte_at_ok found] at both
    exact apart (Option.some.inj both.2)
  · rw [if_pos ⟨by omega, byte_at_ok found⟩]
    obtain ⟨entry, _, ended⟩ := ok_of_bind rest
    cases ended
    rfl

theorem left_drop (inside : cursor ≤ data.length) : Left data cursor (data.drop cursor) :=
  ⟨data.take cursor, (take_append_drop cursor data).symm, length_take_of_le inside⟩

theorem stray_short (short : rest.length < 4) : strayAt rest = false := by
  match rest, short with
  | [], _ | [_], _ | [_, _], _ | [_, _, _], _ => rfl
  | _ :: _ :: _ :: _ :: more, short => exact absurd short (Nat.not_lt.mpr (Nat.le_add_left 4 more.length))

theorem four_bytes (long : ¬ rest.length < 4) : ∃ marker flags low high more, rest = marker :: flags :: low :: high :: more := by
  match rest, long with
  | [], long | [_], long | [_, _], long | [_, _, _], long => exact absurd (by simp) long
  | marker :: flags :: low :: high :: more, _ => exact ⟨marker, flags, low, high, more, rfl⟩

theorem no_drafts (low high : UInt8) : (fromLe [low, high] == 0) = (low == 0 && high == 0) := by
  have value : fromLe [low, high] = low.toNat + 256 * high.toNat := by simp [fromLe]
  rw [Bool.eq_iff_iff, Bool.and_eq_true, beq_iff_eq, beq_iff_eq, beq_iff_eq, value, ← UInt8.toNat_inj, ← UInt8.toNat_inj]
  change low.toNat + 256 * high.toNat = 0 ↔ low.toNat = 0 ∧ high.toNat = 0
  omega

theorem stray_spec {spec : List UInt32 × Bool × Bool} (ran : readSpecTrailer data cursor = .ok (spec, after)) :
    strayAt (data.drop cursor) = (spec.1.isEmpty && !spec.2.1 && spec.2.2) := by
  have dropped : (data.drop cursor).length = data.length - cursor := length_drop
  by_cases short : data.length < cursor + 4
  · simp only [readSpecTrailer, if_pos short] at ran
    cases ran
    exact stray_short _ (by omega)
  have left := left_drop data cursor (by omega)
  obtain ⟨marker, flags, low, high, more, rest⟩ := four_bytes (data.drop cursor) (by omega)
  rw [rest] at left ⊢
  have atFlags := left_next left
  have atCount : Left data (cursor + 2) ([low, high] ++ more) := left_next atFlags
  rcases guard_passed ran with ⟨rfl, _, ended | ⟨byte, found, apart⟩⟩ | ⟨_, found, present⟩
  · exact absurd ended short
  · rw [byte_at_left left] at found
    cases found
    rw [strayAt, beq_eq_false_iff_ne.mpr apart]
    rfl
  rw [byte_at_left left] at found
  cases found
  have counted : wordAt 2 data (cursor + 2) = (.ok (fromLe [low, high]) : Checked SwarmError Nat) := by
    rw [wordAt, slice_left atCount (show [low, high].length = 2 from rfl)]
    rfl
  rw [byte_at_left atFlags, ok_bind, counted, ok_bind] at present
  obtain ⟨_, present⟩ := past_check present
  obtain ⟨_, present⟩ := past_check present
  obtain ⟨drafts, read, returned⟩ := ok_of_bind present
  cases returned
  have size := read_each_length 4 data _ drafts read
  have empty : drafts.isEmpty = (fromLe [low, high] == 0) := by
    rw [← size]
    cases drafts <;> rfl
  rw [strayAt, empty, no_drafts]
  rfl

theorem utf8_from_utf8 {bytes : Bytes} {text : String} (valid : fromUtf8 bytes = some text) : utf8 text = bytes := by
  unfold fromUtf8 String.fromUTF8? at valid
  split at valid
  · cases valid
    rfl
  · cases valid

structure Decoded (input : Bytes) (forward : LayerForward) (aad : Bytes) (read : LayerForward) : Prop where
  forward : forward = { read with sampling := read.sampling.map clampPeerSampling }
  aad : aad = buildLayerForwardAad read
  modelId : (utf8 read.modelId).length ≤ u16Max
  readable : read.Readable
  stray : strayWalk input = (!read.speculates && read.specWalkAtTail)

theorem decode_ok {input sealedActivations aad : Bytes} {forward : LayerForward}
    (decoded : decodeLayerForwardEncrypted input = .ok (forward, sealedActivations, aad)) :
    ∃ read, Decoded input forward aad read := by
  unfold decodeLayerForwardEncrypted at decoded
  obtain ⟨_, rest⟩ := past_check decoded
  obtain ⟨requestId, _, rest⟩ := ok_of_bind rest
  obtain ⟨sequenceNum, _, rest⟩ := ok_of_bind rest
  obtain ⟨indexPos, _, rest⟩ := ok_of_bind rest
  obtain ⟨formatTag, _, rest⟩ := ok_of_bind rest
  split at rest
  · cases rest
  rename_i format _
  obtain ⟨layerStart, _, rest⟩ := ok_of_bind rest
  obtain ⟨layerEnd, _, rest⟩ := ok_of_bind rest
  obtain ⟨midLen, midRead, rest⟩ := ok_of_bind rest
  obtain ⟨_, rest⟩ := past_check rest
  obtain ⟨name, named, rest⟩ := ok_of_bind rest
  split at rest
  · cases rest
  rename_i modelId valid
  obtain ⟨sealedLen, sealedRead, rest⟩ := ok_of_bind rest
  obtain ⟨_, rest⟩ := past_check rest
  obtain ⟨payload, _, rest⟩ := ok_of_bind rest
  obtain ⟨⟨read, after⟩, ran, returned⟩ := ok_of_bind rest
  cases returned
  obtain ⟨tp, cursor, spec, between, tpRead, specRead, later⟩ := read_trailers_ok
    (start ⟨requestId⟩ sequenceNum indexPos format modelId (layerStart, layerEnd)) ran
  obtain ⟨midFound, midBelow⟩ := word_at_ok midRead
  refine ⟨read, rfl, rfl, ?_, later.readable, ?_⟩
  · have same : read.modelId = modelId := congrArg LayerForward.modelId later.header
    rw [same, utf8_from_utf8 valid, (slice_ok named).2]
    exact Nat.le_of_lt_succ midBelow
  have ended := tp_meta_end _ tpRead
  rw [(word_at_ok sealedRead).1, midFound] at ended
  have stray := stray_spec _ cursor between specRead
  rw [ended] at stray
  rw [speculates, later.draftTokens, later.logits, later.walk, Bool.not_or, Bool.not_not]
  exact stray

-- Which of two frames with the same data to authenticate has the stray flag is all
-- that data leaves open.
theorem aad_binds_iff (first second firstSealed secondSealed aad : Bytes) (one two : LayerForward)
    (firstDecoded : decodeLayerForwardEncrypted first = .ok (one, firstSealed, aad))
    (secondDecoded : decodeLayerForwardEncrypted second = .ok (two, secondSealed, aad)) :
    one = two ↔ strayWalk first = strayWalk second := by
  obtain ⟨firstRead, firstWent⟩ := decode_ok firstDecoded
  obtain ⟨secondRead, secondWent⟩ := decode_ok secondDecoded
  have determined := aad_determines firstRead secondRead firstWent.readable secondWent.readable firstWent.modelId
    secondWent.modelId (firstWent.aad.symm.trans secondWent.aad)
  have speculates : firstRead.speculates = secondRead.speculates := by
    have same := congrArg speculates determined
    exact same
  have walks : firstRead.walks = secondRead.walks := by
    have same := congrArg specWalkAtTail determined
    exact same
  rw [firstWent.stray, secondWent.stray]
  constructor
  · intro same
    have flag : firstRead.specWalkAtTail = secondRead.specWalkAtTail := by
      have flags := congrArg specWalkAtTail same
      rw [firstWent.forward, secondWent.forward] at flags
      exact flags
    rw [speculates, flag]
  intro stray
  have flag : firstRead.specWalkAtTail = secondRead.specWalkAtTail := by
    rw [LayerForward.walks, LayerForward.walks, speculates] at walks
    rw [speculates] at stray
    cases speculating : secondRead.speculates with
    | true => rwa [speculating, Bool.true_and, Bool.true_and] at walks
    | false => rwa [speculating, Bool.not_false, Bool.true_and, Bool.true_and] at stray
  have same : firstRead = secondRead := by
    have restored := congrArg (fun read : LayerForward => { read with specWalkAtTail := firstRead.specWalkAtTail })
      determined
    rw [flag] at restored
    calc
      firstRead = { firstRead with specWalkAtTail := secondRead.specWalkAtTail } := by rw [← flag]
      _ = { secondRead with specWalkAtTail := secondRead.specWalkAtTail } := restored
      _ = secondRead := rfl
  rw [firstWent.forward, secondWent.forward, same]

-- The part of the dispatcher that decides from the flag whether a streamed check
-- is judged here.
def walkToJudge (forward : LayerForward) (streamed isLast : Bool) : Option (Nat × Option UInt32) :=
  if streamed && isLast && forward.specWalkAtTail && forward.draftParents.isEmpty && forward.draftTreeFrom.isNone then
    some (forward.draftTokens.length, forward.streamLookahead)
  else none

def streamedStep : LayerForward := { start (.ofByte 7) 5 11 .fp32 "m" (4, 12) with streamSeq := some 6 }

def frameWith (trailer : Bytes) : Bytes :=
  tensorTagEncrypted :: (headerBytes streamedStep ++ (leBytes 4 1 ++ ([9] ++ (trailer ++ streamTrailer streamedStep))))

theorem aad_binds_iff_sample :
    ∃ one two aad, decodeLayerForwardEncrypted (frameWith []) = .ok (one, [9], aad) ∧
      decodeLayerForwardEncrypted (frameWith [0x03, 0x00, 0, 0]) = .ok (two, [9], aad) ∧ one = two := by
  have first : decodeLayerForwardEncrypted (frameWith []) =
      .ok (streamedStep, [9], buildLayerForwardAad streamedStep) := by decide +kernel
  have second : decodeLayerForwardEncrypted (frameWith [0x03, 0x00, 0, 0]) =
      .ok (streamedStep, [9], buildLayerForwardAad streamedStep) := by decide +kernel
  exact ⟨_, _, _, first, second, (aad_binds_iff _ _ _ _ _ _ _ first second).mpr (by decide +kernel)⟩

-- Four bytes put into a sealed frame change what the receiver does and not what
-- it authenticates.
theorem stray_walk_unauthenticated :
    ∃ one two aad, decodeLayerForwardEncrypted (frameWith []) = .ok (one, [9], aad) ∧
      decodeLayerForwardEncrypted (frameWith [0x03, 0x02, 0, 0]) = .ok (two, [9], aad) ∧
      one.specWalkAtTail = false ∧ two.specWalkAtTail = true ∧
      walkToJudge one true true = none ∧ walkToJudge two true true = some (0, none) :=
  ⟨streamedStep, { streamedStep with specWalkAtTail := true }, buildLayerForwardAad streamedStep, by decide +kernel,
    by decide +kernel, rfl, rfl, rfl, rfl⟩

end SwarmLlm.Network
