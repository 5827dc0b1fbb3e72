import SwarmLlm.Api.BufferRun

namespace SwarmLlm.Api

open Lib Inference List

variable {place : Nat} (tools : Bool) (thoughts text : Text) (buffer : Buffer) {block : ReasoningBlock}

theorem closer_apart (listed : block ∈ reasoningBlocks) (inside : place < block.opener.length) :
    ¬block.opener.drop place <+: block.close ∧ ¬block.close <+: block.opener.drop place :=
  (by decide : ∀ block ∈ reasoningBlocks, ∀ place < block.opener.length,
    ¬block.opener.drop place <+: block.close ∧ ¬block.close <+: block.opener.drop place) block listed place inside

theorem closer_black (listed : block ∈ reasoningBlocks) :
    ∃ symbol rest, block.close = symbol :: rest ∧ isWhitespace symbol = false := by
  have black : ∀ block ∈ reasoningBlocks, block.close.head? = some '<' := by decide
  obtain ⟨rest, same⟩ := head?_eq_some_iff.mp (black block listed)
  exact ⟨'<', rest, same, rfl⟩

theorem before_body (block : ReasoningBlock) (place : Nat)
    (opened : openingReasoningBlock (trimStart isWhitespace text) = some block)
    (inside : place < leadLen isWhitespace text + block.opener.length) :
    ¬text.drop place <+: block.close ∧ ¬block.close <+: text.drop place := by
  obtain ⟨listed, rest, begins⟩ := opening_block_some block opened
  obtain ⟨symbol, behind, close, black⟩ := closer_black listed
  by_cases early : place < leadLen isWhitespace text
  · obtain ⟨white, later, here, isBlank⟩ := lead_drop isWhitespace text early
    rw [here, close]
    constructor
    · intro begun
      have same := (cons_prefix_cons.mp begun).1
      rw [same, black] at isBlank
      cases isBlank
    · intro begun
      have same := (cons_prefix_cons.mp begun).1
      rw [← same, black] at isBlank
      cases isBlank
  obtain ⟨within, sum⟩ := Nat.exists_eq_add_of_le (Nat.le_of_not_lt early)
  have small : within < block.opener.length := by omega
  have here : text.drop place = block.opener.drop within ++ rest := by
    rw [sum, ← drop_drop, drop_lead, ← begins, drop_append_of_le_length (le_of_lt small)]
  obtain ⟨neither, nor⟩ := closer_apart listed small
  rw [here]
  constructor
  · intro begun
    exact neither ((prefix_append _ _).trans begun)
  · intro begun
    cases prefix_or_prefix_of_prefix begun (prefix_append (block.opener.drop within) rest) with
    | inl inOpener => exact nor inOpener
    | inr cut => exact neither cut

def shownLimit (tools : Bool) (block : ReasoningBlock) (start : Nat) (text : Text) : Nat :=
  let unclosed := text.length - partialMarkerOverlap text block.close
  if tools then start + beforeAnyMarker (between text start unclosed) framedCallMarkers else unclosed

def thoughtLimit (tools : Bool) (text : Text) : Phase → Nat
  | .thinking block start none => shownLimit tools block start text
  | .thinking _ _ (some stop) | .answered _ _ stop _ => stop
  | .undecided | .plain _ => 0

variable {block : ReasoningBlock} (start : Nat)

theorem unclosed_body (opened : openingReasoningBlock (trimStart isWhitespace text) = some block)
    (begun : start = leadLen isWhitespace text + block.opener.length) :
    start ≤ text.length - partialMarkerOverlap text block.close := by
  by_contra early
  have inside : text.length - partialMarkerOverlap text block.close < leadLen isWhitespace text + block.opener.length := by
    omega
  cases longest_overlap_overlaps text (longest [block.close] - 1) with
  | inl nothing =>
    have none_held : partialMarkerOverlap text block.close = 0 := nothing
    obtain ⟨front, split, length, -⟩ := lead_split isWhitespace text
    obtain ⟨-, begins⟩ := opening_block_some block opened
    have short := begins.length_le
    have total := congrArg List.length split
    rw [length_append] at total
    omega
  | inr overlap =>
    obtain ⟨-, -, pattern, listed, begins⟩ := overlap
    rw [mem_singleton.mp listed] at begins
    exact (before_body text block _ opened inside).1 begins

theorem found_in_body {text : Text} {start : Nat} (opened : openingReasoningBlock (trimStart isWhitespace text) = some block)
    (begun : start = leadLen isWhitespace text + block.opener.length) (found : search block.close text = some place) :
    start ≤ place := by
  by_contra early
  have hit := (search_some block.close place found).1.2
  exact (before_body text block place opened (by omega)).2 hit

theorem shown_within (opened : openingReasoningBlock (trimStart isWhitespace text) = some block)
    (begun : start = leadLen isWhitespace text + block.opener.length) :
    start ≤ shownLimit tools block start text ∧
      shownLimit tools block start text ≤ text.length - partialMarkerOverlap text block.close := by
  have body := unclosed_body text start opened begun
  unfold shownLimit
  dsimp only
  split
  · have short := before_any_le (between text start (text.length - partialMarkerOverlap text block.close)) framedCallMarkers
    rw [between_length _ _ (Nat.sub_le _ _)] at short
    exact ⟨Nat.le_add_right _ _, by omega⟩
  · exact ⟨body, Nat.le_refl _⟩

theorem shown_grows (more : Text) (block : ReasoningBlock) (start : Nat)
    (opened : openingReasoningBlock (trimStart isWhitespace text) = some block)
    (begun : start = leadLen isWhitespace text + block.opener.length) :
    shownLimit tools block start text ≤ shownLimit tools block start (text ++ more) := by
  have body := unclosed_body text start opened begun
  have bound := overlap_append_le [block.close] text more
  have later : text.length - partialMarkerOverlap text block.close ≤
      (text ++ more).length - partialMarkerOverlap (text ++ more) block.close := by
    unfold partialMarkerOverlap
    rw [length_append]
    omega
  unfold shownLimit
  dsimp only
  split
  · have split := between_join (text ++ more) start _ body later
    rw [between_append text more start (Nat.sub_le _ _)] at split
    rw [← split]
    exact Nat.add_le_add_left (before_any_append _ _ framedCallMarkers) start
  · exact later

theorem shown_before_close {tools : Bool} {text more : Text} {start : Nat}
    (opened : openingReasoningBlock (trimStart isWhitespace text) = some block)
    (begun : start = leadLen isWhitespace text + block.opener.length) (missing : search block.close text = none)
    (found : search block.close (text ++ more) = some place) : shownLimit tools block start text ≤ place := by
  have within := (shown_within tools text start opened begun).2
  have unfound : ∀ pattern ∈ [block.close], ∀ place, ¬FoundAt pattern text place :=
    forall_mem_singleton.mpr (search_none block.close missing)
  have held := held_before_found unfound mem_cons_self (search_some _ _ found).1
  exact le_trans within held

theorem limit_of_block :
    thoughtLimit tools text (blockPhase block start text) = (search block.close text).getD (shownLimit tools block start text) := by
  unfold blockPhase
  cases search block.close text with
  | none => rfl
  | some place =>
    dsimp only
    split <;> rfl

theorem phase_of_start {text : Text} {start : Nat} (begun : (phaseOf text).start = some start) :
    ∃ block, openingReasoningBlock (trimStart isWhitespace text) = some block ∧
      start = leadLen isWhitespace text + block.opener.length ∧ phaseOf text = blockPhase block start text := by
  cases ofBlock : (phaseOf text).block with
  | some block => exact ⟨block, block_of_phase rfl ofBlock begun⟩
  | none =>
    cases phase : phaseOf text with
    | undecided | plain =>
      rw [phase] at begun
      cases begun
    | thinking | answered =>
      rw [phase] at ofBlock
      cases ofBlock

theorem limit_within {text : Text} (begun : (phaseOf text).start = some start) :
    start ≤ thoughtLimit tools text (phaseOf text) ∧ thoughtLimit tools text (phaseOf text) ≤ text.length := by
  obtain ⟨block, opened, place, phase⟩ := phase_of_start begun
  rw [phase, limit_of_block]
  cases found : search block.close text with
  | none =>
    obtain ⟨least, most⟩ := shown_within tools text start opened place
    rw [Option.getD_none]
    exact ⟨least, by omega⟩
  | some stop =>
    have fits := (search_some block.close stop found).1.1
    rw [Option.getD_some]
    exact ⟨found_in_body opened place found, fits⟩

variable {start}

theorem limit_grows {text : Text} (more : Text) (begun : (phaseOf text).start = some start) :
    (phaseOf (text ++ more)).start = some start ∧
      thoughtLimit tools text (phaseOf text) ≤ thoughtLimit tools (text ++ more) (phaseOf (text ++ more)) := by
  obtain ⟨block, opened, place, phase⟩ := phase_of_start begun
  have later : phaseOf (text ++ more) = blockPhase block start (text ++ more) := by
    rw [place]
    exact block_append opened
  rw [phase, later, limit_of_block, limit_of_block]
  refine ⟨(block_phase_block _ _).2, ?_⟩
  cases found : search block.close text with
  | some stop =>
    rw [search_append text more stop found]
    exact le_refl _
  | none =>
    rw [Option.getD_none]
    cases further : search block.close (text ++ more) with
    | none => exact shown_grows tools text more block start opened place
    | some stop => exact shown_before_close opened place found further

-- What has been shown of a scratchpad is its text up to some place, trimmed.
structure Shown (start limit : Nat) (thoughts : Text) (buffer : Buffer) : Prop where
  trimmed : thoughts = trim (between buffer.text start limit)
  place : buffer.reasoningReleased =
    if thoughts = [] then start else start + leadLen isWhitespace (between buffer.text start limit) + thoughts.length
  ordered : start ≤ limit
  within : limit ≤ buffer.text.length

theorem trim_fits : leadLen isWhitespace text + (trim text).length ≤ text.length := by
  obtain ⟨front, tail, split, length⟩ := trim_split text
  have total := congrArg List.length split
  rw [length_append, length_append] at total
  omega

variable {limit : Nat}

namespace Buffer

variable {buffer}

section

variable (separate : buffer.reasoningOut = .separate)

include separate

theorem release_first
    (begun : buffer.reasoningFrom = some start) (unshown : buffer.reasoningReleased = start) (ordered : start ≤ limit) :
    buffer.releaseReasoning limit = if trim (between buffer.text start limit) = [] then ([], buffer)
      else (trim (between buffer.text start limit), { buffer with
        reasoningReleased := start + leadLen isWhitespace (between buffer.text start limit) +
          (trim (between buffer.text start limit)).length }) := by
  unfold releaseReasoning
  rw [if_neg (fun other => other separate)]
  split
  · rename_i missing
    cases missing.symm.trans begun
  · rename_i other same
    cases same.symm.trans begun
    dsimp only
    rw [unshown, min_eq_left ordered, if_pos rfl, between_drop, drop_lead, ← trim]

theorem release_next
    (begun : buffer.reasoningFrom = some start) (shown : start < buffer.reasoningReleased)
    (ordered : buffer.reasoningReleased ≤ limit) :
    buffer.releaseReasoning limit =
      if trimEnd isWhitespace (between buffer.text buffer.reasoningReleased limit) = [] then ([], buffer)
      else (trimEnd isWhitespace (between buffer.text buffer.reasoningReleased limit), { buffer with
        reasoningReleased := buffer.reasoningReleased +
          (trimEnd isWhitespace (between buffer.text buffer.reasoningReleased limit)).length }) := by
  unfold releaseReasoning
  rw [if_neg (fun other => other separate)]
  split
  · rename_i missing
    cases missing.symm.trans begun
  · rename_i other same
    cases same.symm.trans begun
    dsimp only
    rw [min_eq_left ordered, if_neg (Nat.ne_of_gt shown)]

theorem release_reasoning_shown {further : Nat} {thoughts : Text} (begun : buffer.reasoningFrom = some start)
    (shown : Shown start limit thoughts buffer) (later : limit ≤ further) (within : further ≤ buffer.text.length) :
    Shown start further (thoughts ++ (buffer.releaseReasoning further).1) (buffer.releaseReasoning further).2 := by
  have ordered := shown.ordered
  have joined := between_join buffer.text start limit ordered later
  by_cases nothing : thoughts = []
  · have place : buffer.reasoningReleased = start := shown.place.trans (if_pos nothing)
    rw [release_first separate begun place (le_trans ordered later), nothing, nil_append]
    by_cases still : trim (between buffer.text start further) = []
    · rw [if_pos still]
      exact ⟨still.symm, place.trans (if_pos rfl).symm, le_trans ordered later, within⟩
    · rw [if_neg still]
      exact ⟨rfl, (if_neg still).symm, le_trans ordered later, within⟩
  have place := shown.place.trans (if_neg nothing)
  have trimmed := shown.trimmed
  have left : trim (between buffer.text start limit) ≠ [] := trimmed ▸ nothing
  have positive : 0 < thoughts.length := length_pos_iff.mpr nothing
  have fits := trim_fits (between buffer.text start limit)
  rw [← trimmed, between_length _ _ (le_trans later within)] at fits
  have started : trimStart isWhitespace (between buffer.text start limit) ≠ [] :=
    fun blank => left ((trim_eq_nil _).mpr blank)
  have lead : leadLen isWhitespace (between buffer.text start further) =
      leadLen isWhitespace (between buffer.text start limit) := by
    rw [← joined, lead_append _ _ started]
  have whole : trim (between buffer.text start further) =
      thoughts ++ trimEnd isWhitespace (between buffer.text buffer.reasoningReleased further) := by
    rw [place, Nat.add_assoc, between_drop, ← joined, trim_append _ _ left, ← trimmed]
  rw [release_next separate begun (by omega) (by omega)]
  by_cases still : trimEnd isWhitespace (between buffer.text buffer.reasoningReleased further) = []
  · rw [if_pos still]
    rw [still] at whole
    refine ⟨whole.symm, ?_, le_trans ordered later, within⟩
    rw [append_nil, if_neg nothing, lead]
    exact place
  · rw [if_neg still]
    refine ⟨whole.symm, ?_, le_trans ordered later, within⟩
    rw [if_neg (fun empty => nothing (append_eq_nil_iff.mp empty).1), length_append, lead]
    dsimp only
    omega

end

theorem release_reasoning_place : ∃ place, (buffer.releaseReasoning limit).2 = { buffer with reasoningReleased := place } := by
  unfold releaseReasoning
  split
  · exact ⟨_, rfl⟩
  · split
    · exact ⟨_, rfl⟩
    · dsimp only
      generalize (if min buffer.reasoningReleased limit = _ then _ else _) = first
      split <;> exact ⟨_, rfl⟩

theorem take_reasoning_eq (inPhase : InPhase (phaseOf buffer.text) buffer) : buffer.takeReasoning =
      match (phaseOf buffer.text).start with
      | none => ([], buffer)
      | some _ => buffer.releaseReasoning (thoughtLimit buffer.toolsRequested buffer.text (phaseOf buffer.text)) := by
  have begun := inPhase.start
  have stop := inPhase.stop
  have state := inPhase.reasoning
  unfold takeReasoning
  cases phase : phaseOf buffer.text with
  | undecided | plain =>
    rw [phase] at begun stop
    rw [begun, stop]
    rfl
  | answered block start at_stop answer =>
    rw [phase] at stop
    rw [stop]
    rfl
  | thinking block start closed =>
    have own : buffer.block = block := inPhase.block block (by rw [phase]; rfl)
    rw [phase] at begun stop state
    rw [begun, stop]
    cases closed with
    | some at_stop => rfl
    | none =>
      have inside : buffer.reasoning = .inside := state
      dsimp only [Phase.stop, Phase.start]
      rw [if_pos inside]
      dsimp only [thoughtLimit]
      rw [thinkingLimit, shownLimit, own]

end Buffer

variable (opened : PromptOpened) (raw : Text)

theorem follows_released {buffer : Buffer} (place : Nat)
    (follows : Follows opened raw buffer) : Follows opened raw { buffer with reasoningReleased := place } where
  text := follows.text
  slot := follows.slot
  phase := ⟨follows.phase.reasoning, follows.phase.start, follows.phase.stop, follows.phase.contentFrom,
    follows.phase.block, follows.phase.floor, follows.phase.quiet, follows.phase.bound⟩

variable (start)

def Thinks (thoughts : Text) (buffer : Buffer) : Prop :=
  match (phaseOf buffer.text).start with
  | none => thoughts = []
  | some start => Shown start (thoughtLimit buffer.toolsRequested buffer.text (phaseOf buffer.text)) thoughts buffer

theorem thinks_none {thoughts : Text} (plain : (phaseOf buffer.text).start = none) : Thinks thoughts buffer ↔ thoughts = [] := by
  rw [Thinks, plain]

theorem thinks_some (begun : (phaseOf buffer.text).start = some start) : Thinks thoughts buffer ↔
      Shown start (thoughtLimit buffer.toolsRequested buffer.text (phaseOf buffer.text)) thoughts buffer := by
  rw [Thinks, begun]

variable {piece written : Text} {after before : Buffer} {start}

theorem pushed_longer (follows : Follows opened raw before) (pushed : Pushed opened (raw ++ piece) before written after)
    (begun : (phaseOf before.text).start = some start) : after.text = before.text ++ piece := by
  have left : trim raw ≠ [] := by
    apply decided_raw opened raw
    intro undecided
    rw [follows.text, undecided] at begun
    cases begun
  rw [pushed.follows.text, follows.text, put_append opened raw piece left]

variable {thoughts}

theorem pushed_unshown {opened : PromptOpened} {raw : Text}
    (follows : Follows opened raw before) (pushed : Pushed opened (raw ++ piece) before written after)
    (thinks : Thinks thoughts before) (plain : (phaseOf after.text).start = none) : thoughts = [] := by
  cases earlier : (phaseOf before.text).start with
  | none => exact (thinks_none before earlier).mp thinks
  | some start =>
    have still := (limit_grows false piece earlier).1
    rw [← pushed_longer opened raw follows pushed earlier] at still
    cases plain.symm.trans still

theorem pushed_shown (follows : Follows opened raw before) (pushed : Pushed opened (raw ++ piece) before written after)
    (thinks : Thinks thoughts before) (begun : (phaseOf after.text).start = some start) :
    ∃ limit, Shown start limit thoughts after ∧ limit ≤ thoughtLimit after.toolsRequested after.text (phaseOf after.text) := by
  have released := pushed.released
  have within := limit_within after.toolsRequested start begun
  cases earlier : (phaseOf before.text).start with
  | none =>
    rw [if_pos earlier, begun] at released
    refine ⟨start, ⟨?_, ?_, le_refl _, by omega⟩, within.1⟩
    · rw [(thinks_none before earlier).mp thinks, between_self]
      rfl
    · rw [if_pos ((thinks_none before earlier).mp thinks)]
      exact released
  | some place =>
    have shown := (thinks_some thoughts before place earlier).mp thinks
    have longer := pushed_longer opened raw follows pushed earlier
    obtain ⟨still, grows⟩ := limit_grows before.toolsRequested piece earlier
    rw [← longer] at still grows
    cases still.symm.trans begun
    rw [if_neg (by rw [earlier]; nofun)] at released
    have same := between_append before.text piece start shown.within
    rw [← longer] at same
    refine ⟨_, ⟨?_, ?_, shown.ordered, ?_⟩, by rw [pushed.tools]; exact grows⟩
    · rw [same]
      exact shown.trimmed
    · rw [same, released]
      exact shown.place
    · rw [longer, length_append]
      have bound := shown.within
      omega

end SwarmLlm.Api
