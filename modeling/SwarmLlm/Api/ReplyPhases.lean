import SwarmLlm.Api.StreamingToolText

namespace SwarmLlm.Api

open Lib Inference List

-- How far a reply has come, as a function of its text so far: the places are those of
-- the scratchpad's own text and of the answer.
inductive Phase where
  | undecided
  | plain (opening : Nat)
  | thinking (block : ReasoningBlock) (start : Nat) (stop : Option Nat)
  | answered (block : ReasoningBlock) (start stop answer : Nat)
  deriving DecidableEq

namespace Phase

def withheld : Phase → Bool
  | undecided | thinking _ _ _ => true
  | plain _ | answered _ _ _ _ => false

def reasoning : Phase → Reasoning
  | undecided => .undecided
  | thinking _ _ _ => .inside
  | plain _ | answered _ _ _ _ => .absent

def block : Phase → Option ReasoningBlock
  | thinking block _ _ | answered block _ _ _ => some block
  | undecided | plain _ => none

def start : Phase → Option Nat
  | thinking _ start _ | answered _ start _ _ => some start
  | undecided | plain _ => none

def stop : Phase → Option Nat
  | thinking _ _ stop => stop
  | answered _ _ stop _ => some stop
  | undecided | plain _ => none

def contentFrom : Phase → Nat
  | answered _ _ _ answer => answer
  | undecided | plain _ | thinking _ _ _ => 0

def floor : Phase → Nat
  | plain opening => opening
  | answered _ _ _ answer => answer
  | undecided | thinking _ _ _ => 0

end Phase

variable (block : ReasoningBlock) (start : Nat) (text : Text)

def blockPhase : Phase :=
  match search block.close text with
  | none => .thinking block start none
  | some place =>
    let after := place + block.close.length
    let blank := leadLen isWhitespace (text.drop after)
    if blank = (text.drop after).length then .thinking block start (some place)
    else .answered block start place (after + blank)

def phaseOf : Phase :=
  match openingReasoningBlock (trimStart isWhitespace text) with
  | some block => blockPhase block (leadLen isWhitespace text + block.opener.length) text
  | none =>
    if reasoningBlocks.any fun block => decide (trimStart isWhitespace text <+: block.opener) then .undecided
    else .plain (leadLen isReplyLeadingWhitespace text)

variable {text}

theorem block_phase_block :
    (blockPhase block start text).block = some block ∧ (blockPhase block start text).start = some start := by
  unfold blockPhase
  split
  · exact ⟨rfl, rfl⟩
  · dsimp only
    split <;> exact ⟨rfl, rfl⟩

theorem leading_whitespace {symbol : Char} (leading : isReplyLeadingWhitespace symbol = true) : isWhitespace symbol = true := by
  simp only [isReplyLeadingWhitespace, Bool.or_eq_true, beq_iff_eq] at leading
  rcases leading with (newline | other) | space
  · subst newline
    rfl
  · subst other
    rfl
  · subst space
    rfl

theorem trim_leading (left : trimStart isWhitespace text ≠ []) : trimStart isReplyLeadingWhitespace text ≠ [] := by
  intro nothing
  apply left
  rw [trim_start_eq_nil] at nothing ⊢
  exact fun symbol inside => leading_whitespace (nothing symbol inside)

theorem opening_block_some (block : ReasoningBlock) (opened : openingReasoningBlock text = some block) :
    block ∈ reasoningBlocks ∧ block.opener <+: text := by
  have listed := mem_of_find?_eq_some opened
  have begins := find?_some opened
  exact ⟨listed, of_decide_eq_true begins⟩

theorem openers_apart {first second : ReasoningBlock} (one : first ∈ reasoningBlocks)
    (other : second ∈ reasoningBlocks) (begins : first.opener <+: second.opener) : first = second :=
  (by decide : ∀ first ∈ reasoningBlocks, ∀ second ∈ reasoningBlocks, first.opener <+: second.opener → first = second)
    first one second other begins

variable {block}

theorem opening_block_eq (listed : block ∈ reasoningBlocks)
    (begins : block.opener <+: text) : openingReasoningBlock text = some block := by
  cases opened : openingReasoningBlock text with
  | none =>
    have missing := find?_eq_none.mp opened block listed
    exact absurd (decide_eq_true begins) missing
  | some other =>
    obtain ⟨otherListed, otherBegins⟩ := opening_block_some other opened
    cases prefix_or_prefix_of_prefix otherBegins begins with
    | inl shorter => rw [openers_apart otherListed listed shorter]
    | inr longer => rw [openers_apart listed otherListed longer]

theorem opening_block_append {more : Text} (opened : openingReasoningBlock text = some block) :
    openingReasoningBlock (text ++ more) = some block := by
  obtain ⟨listed, begins⟩ := opening_block_some block opened
  exact opening_block_eq listed (begins.trans (prefix_append _ _))

variable (block)

theorem opening_block_none {more : Text} (closed : openingReasoningBlock text = none)
    (decided : (reasoningBlocks.any fun block => decide (text <+: block.opener)) = false) :
    openingReasoningBlock (text ++ more) = none ∧
      (reasoningBlocks.any fun block => decide (text ++ more <+: block.opener)) = false := by
  have apart : ∀ block ∈ reasoningBlocks, ¬text <+: block.opener := by
    intro block listed begins
    have yes : (reasoningBlocks.any fun block => decide (text <+: block.opener)) = true :=
      any_eq_true.mpr ⟨block, listed, decide_eq_true begins⟩
    rw [yes] at decided
    cases decided
  constructor
  · apply find?_eq_none.mpr
    intro block listed opened
    cases prefix_or_prefix_of_prefix (of_decide_eq_true opened) (prefix_append text more) with
    | inl inside => exact find?_eq_none.mp closed block listed (decide_eq_true inside)
    | inr cut => exact apart block listed cut
  · rw [any_eq_false]
    intro block listed begins
    exact apart block listed ((prefix_append text more).trans (of_decide_eq_true begins))

theorem decided_not_blank (decided : (reasoningBlocks.any fun block => decide (text <+: block.opener)) = false) : text ≠ [] := by
  intro nothing
  subst nothing
  revert decided
  decide

theorem plain_phase {opening : Nat} (plain : phaseOf text = .plain opening) :
    openingReasoningBlock (trimStart isWhitespace text) = none ∧
      (reasoningBlocks.any fun block => decide (trimStart isWhitespace text <+: block.opener)) = false ∧
      opening = leadLen isReplyLeadingWhitespace text := by
  unfold phaseOf at plain
  split at plain
  · have same := (block_phase_block _ _).1.symm.trans (congrArg Phase.block plain)
    cases same
  · split at plain
    · cases plain
    · rename_i opened decided
      cases plain
      exact ⟨opened, Bool.eq_false_iff.mpr decided, rfl⟩

theorem plain_append {more : Text} {opening : Nat} (plain : phaseOf text = .plain opening) :
    phaseOf (text ++ more) = .plain opening := by
  obtain ⟨opened, decided, rfl⟩ := plain_phase plain
  have left := decided_not_blank decided
  obtain ⟨still, stays⟩ := opening_block_none opened decided
  unfold phaseOf
  rw [trim_start_append left, still]
  dsimp only
  rw [stays, if_neg Bool.false_ne_true, lead_append text more (trim_leading left)]

theorem block_append {more : Text} {block : ReasoningBlock}
    (opened : openingReasoningBlock (trimStart isWhitespace text) = some block) :
    phaseOf (text ++ more) = blockPhase block (leadLen isWhitespace text + block.opener.length) (text ++ more) := by
  have left : trimStart isWhitespace text ≠ [] := by
    intro nothing
    rw [nothing] at opened
    revert opened
    decide +revert
  unfold phaseOf
  rw [trim_start_append left, opening_block_append opened]
  dsimp only
  rw [lead_append text more left]

theorem answered_append (stop answer : Nat) (more : Text)
    (answered : blockPhase block start text = .answered block start stop answer) :
    blockPhase block start (text ++ more) = .answered block start stop answer := by
  unfold blockPhase at answered ⊢
  cases found : search block.close text with
  | none =>
    rw [found] at answered
    cases answered
  | some place =>
    have fits := found_fits (search_some _ _ found).1
    rw [found] at answered
    rw [search_append text more place found]
    dsimp only at answered ⊢
    rw [drop_append_of_le_length fits]
    by_cases blank : leadLen isWhitespace (text.drop (place + block.close.length)) = (text.drop (place + block.close.length)).length
    · rw [if_pos blank] at answered
      cases answered
    rw [if_neg blank] at answered
    have left : trimStart isWhitespace (text.drop (place + block.close.length)) ≠ [] := by
      intro nothing
      rw [leadLen, nothing] at blank
      exact blank rfl
    have bound := lead_le isWhitespace (text.drop (place + block.close.length))
    rw [lead_append _ more left, if_neg]
    · exact answered
    · rw [length_append]
      omega

theorem blank_undecided (blank : trim text = []) : phaseOf text = .undecided := by
  rw [trim_eq_nil] at blank
  rw [phaseOf, blank]
  rfl

theorem block_of_phase {block : ReasoningBlock} {start : Nat} {phase : Phase}
    (inPhase : phaseOf text = phase) (ofBlock : phase.block = some block) (begun : phase.start = some start) :
    openingReasoningBlock (trimStart isWhitespace text) = some block ∧
      start = leadLen isWhitespace text + block.opener.length ∧ phase = blockPhase block start text := by
  subst inPhase
  unfold phaseOf at ofBlock begun ⊢
  cases opened : openingReasoningBlock (trimStart isWhitespace text) with
  | some other =>
    rw [opened] at ofBlock begun
    obtain ⟨same, place⟩ := block_phase_block other (leadLen isWhitespace text + other.opener.length)
    cases same.symm.trans ofBlock
    cases place.symm.trans begun
    exact ⟨rfl, rfl, rfl⟩
  | none =>
    rw [opened] at ofBlock
    dsimp only at ofBlock
    split at ofBlock <;> cases ofBlock

variable (text)

theorem stop_found : (blockPhase block start text).stop = search block.close text := by
  unfold blockPhase
  split
  · rename_i missing
    exact missing.symm
  · rename_i place found
    dsimp only
    split <;> exact found.symm

variable (opened : PromptOpened) (raw : Text)

theorem put_blank (blank : trim raw = []) : opened.putInFrontOf raw = raw := by
  unfold PromptOpened.putInFrontOf
  cases opened with
  | inside block => exact if_pos blank
  | nothing => rfl
  | harmony => rfl

theorem put_append (more : Text) (left : trim raw ≠ []) :
    opened.putInFrontOf (raw ++ more) = opened.putInFrontOf raw ++ more := by
  unfold PromptOpened.putInFrontOf
  cases opened with
  | inside block =>
    dsimp only
    rw [if_neg left, if_neg (trim_append_ne raw more left), append_assoc]
  | nothing => rfl
  | harmony => rfl

theorem decided_raw (decided : phaseOf (opened.putInFrontOf raw) ≠ .undecided) : trim raw ≠ [] := by
  intro blank
  rw [put_blank opened raw blank] at decided
  exact decided (blank_undecided blank)

end SwarmLlm.Api
