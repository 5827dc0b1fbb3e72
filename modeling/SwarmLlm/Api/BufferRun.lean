import SwarmLlm.Api.ReplyPhases
import SwarmLlm.Api.SafePrefix

namespace SwarmLlm.Api

open Lib Inference

structure InPhase (phase : Phase) (buffer : Buffer) : Prop where
  reasoning : buffer.reasoning = phase.reasoning
  start : buffer.reasoningFrom = phase.start
  stop : buffer.reasoningTo = phase.stop
  contentFrom : buffer.contentFrom = phase.contentFrom
  block : ∀ block, phase.block = some block → buffer.block = block
  floor : phase.floor ≤ buffer.emitted
  quiet : phase.withheld = true → buffer.emitted = 0
  bound : buffer.emitted ≤ buffer.text.length

structure Follows (opened : PromptOpened) (raw : Text) (buffer : Buffer) : Prop where
  text : buffer.text = opened.putInFrontOf raw
  slot : buffer.promptOpened = if trim raw = [] then some opened else none
  phase : InPhase (phaseOf buffer.text) buffer

structure Decided (before after : Buffer) : Prop where
  text : after.text = before.text
  tools : after.toolsRequested = before.toolsRequested
  out : after.reasoningOut = before.reasoningOut
  slot : after.promptOpened = before.promptOpened
  emitted : after.emitted = max before.emitted (phaseOf before.text).floor

theorem floor_le (text : Text) : (phaseOf text).floor ≤ text.length := by
  unfold phaseOf
  split
  · rename_i block _
    unfold blockPhase
    split
    · exact Nat.zero_le _
    rename_i place found
    have fits := found_fits (search_some _ _ found).1
    have bound := lead_le isWhitespace (text.drop (place + block.close.length))
    dsimp only
    split
    · exact Nat.zero_le _
    · rw [List.length_drop] at bound
      dsimp only [Phase.floor]
      omega
  · split
    · exact Nat.zero_le _
    · exact lead_le _ _

variable {buffer : Buffer} {opened : PromptOpened} {piece raw : Text} {buffer : Buffer}

namespace Buffer

theorem withhold_inside_phase (buffer : Buffer) (start : Nat) (inside : buffer.reasoning = .inside)
    (begun : buffer.reasoningFrom = some start) (fresh : buffer.emitted = 0) (whole : buffer.contentFrom = 0)
    (unset : search buffer.block.close buffer.text = none → buffer.reasoningTo = none)
    (same : phaseOf buffer.text = blockPhase buffer.block start buffer.text) :
    buffer.withholdInside.1 = (phaseOf buffer.text).withheld ∧ InPhase (phaseOf buffer.text) buffer.withholdInside.2 ∧
      Decided buffer buffer.withholdInside.2 ∧ buffer.withholdInside.2.reasoningReleased = buffer.reasoningReleased := by
  have below := floor_le buffer.text
  have within : buffer.emitted ≤ buffer.text.length := by rw [fresh]; exact Nat.zero_le _
  unfold withholdInside
  rw [same] at below ⊢
  unfold blockPhase at below ⊢
  cases found : search buffer.block.close buffer.text with
  | none =>
    have phase : phaseOf buffer.text = .thinking buffer.block start none := by rw [same, blockPhase, found]
    exact ⟨rfl, ⟨inside, begun, unset found, whole, fun _ => Option.some.inj, Nat.zero_le _, fun _ => fresh, within⟩,
      ⟨rfl, rfl, rfl, rfl, by rw [phase]; exact (Nat.max_zero _).symm⟩, rfl⟩
  | some place =>
    rw [found] at below
    dsimp only at below ⊢
    by_cases blank : leadLen isWhitespace (buffer.text.drop (place + buffer.block.close.length)) =
        (buffer.text.drop (place + buffer.block.close.length)).length
    · have phase : phaseOf buffer.text = .thinking buffer.block start (some place) := by
        rw [same, blockPhase, found]
        exact if_pos blank
      rw [if_pos blank, if_pos blank]
      exact ⟨rfl, ⟨inside, begun, rfl, whole, fun _ => Option.some.inj, Nat.zero_le _, fun _ => fresh, within⟩,
        ⟨rfl, rfl, rfl, rfl, by rw [phase]; exact (Nat.max_zero _).symm⟩, rfl⟩
    have phase : phaseOf buffer.text = .answered buffer.block start place
        (place + buffer.block.close.length + leadLen isWhitespace (buffer.text.drop (place + buffer.block.close.length))) := by
      rw [same, blockPhase, found]
      exact if_neg blank
    rw [if_neg blank] at below
    rw [if_neg blank, if_neg blank]
    refine ⟨rfl, ⟨rfl, begun, rfl, rfl, fun _ => Option.some.inj, le_max_right _ _, nofun, ?_⟩,
      ⟨rfl, rfl, rfl, rfl, by rw [phase]; rfl⟩, rfl⟩
    rw [fresh]
    exact Nat.max_le.mpr ⟨Nat.zero_le _, below⟩

theorem withhold_undecided_phase (undecided : InPhase .undecided buffer) :
    buffer.withholdUndecided.1 = (phaseOf buffer.text).withheld ∧
      InPhase (phaseOf buffer.text) buffer.withholdUndecided.2 ∧ Decided buffer buffer.withholdUndecided.2 ∧
      buffer.withholdUndecided.2.reasoningReleased = ((phaseOf buffer.text).start).getD buffer.reasoningReleased := by
  have fresh := undecided.quiet rfl
  have below := floor_le buffer.text
  unfold withholdUndecided
  dsimp only
  rw [drop_lead]
  cases opened : openingReasoningBlock (trimStart isWhitespace buffer.text) with
  | some block =>
    have same : phaseOf buffer.text = blockPhase block (leadLen isWhitespace buffer.text + block.opener.length) buffer.text := by
      rw [phaseOf, opened]
    have begun : (phaseOf buffer.text).start = some (leadLen isWhitespace buffer.text + block.opener.length) := by
      rw [same]
      exact (block_phase_block _ _).2
    dsimp only
    obtain ⟨flag, phase, decided, released⟩ := withhold_inside_phase
      { buffer with
        reasoning := .inside
        block := block
        reasoningFrom := some (leadLen isWhitespace buffer.text + block.opener.length)
        reasoningReleased := leadLen isWhitespace buffer.text + block.opener.length }
      (leadLen isWhitespace buffer.text + block.opener.length) rfl rfl fresh undecided.contentFrom
      (fun _ => undecided.stop) same
    refine ⟨flag, phase, { decided with }, ?_⟩
    rw [released, begun]
    rfl
  | none =>
    dsimp only
    cases may : reasoningBlocks.any fun block => decide (trimStart isWhitespace buffer.text <+: block.opener) with
    | true =>
      have same : phaseOf buffer.text = .undecided := by rw [phaseOf, opened]; exact if_pos may
      rw [same, if_pos rfl]
      exact ⟨rfl, undecided, ⟨rfl, rfl, rfl, rfl, by rw [same]; exact (Nat.max_zero _).symm⟩, rfl⟩
    | false =>
      have same : phaseOf buffer.text = .plain (leadLen isReplyLeadingWhitespace buffer.text) := by
        rw [phaseOf, opened]
        dsimp only
        rw [may, if_neg Bool.false_ne_true]
      rw [same] at below
      rw [same, if_neg Bool.false_ne_true]
      refine ⟨rfl, ⟨rfl, undecided.start, undecided.stop, undecided.contentFrom, ?_, le_max_right _ _, ?_, ?_⟩,
        ⟨rfl, rfl, rfl, rfl, by rw [same]; rfl⟩, rfl⟩
      · intro block blocked
        cases blocked
      · intro held
        cases held
      · rw [fresh]
        exact Nat.max_le.mpr ⟨Nat.zero_le _, below⟩

def grow (buffer : Buffer) (piece : Text) : Buffer := { buffer with text := buffer.text ++ piece }

theorem grow_in_phase {phase : Phase} (piece : Text) (inPhase : InPhase phase buffer) : InPhase phase (buffer.grow piece) where
  reasoning := inPhase.reasoning
  start := inPhase.start
  stop := inPhase.stop
  contentFrom := inPhase.contentFrom
  block := inPhase.block
  floor := inPhase.floor
  quiet := inPhase.quiet
  bound := by
    have longer : (buffer.grow piece).text.length = buffer.text.length + piece.length := List.length_append
    exact le_trans inPhase.bound (by omega)

theorem put_back_grows (follows : Follows opened raw buffer) (undecided : phaseOf buffer.text = .undecided) :
    InPhase .undecided (buffer.grow piece).putBack ∧ (buffer.grow piece).putBack.text = opened.putInFrontOf (raw ++ piece) ∧
      (buffer.grow piece).putBack.promptOpened = (if trim (raw ++ piece) = [] then some opened else none) ∧
      (buffer.grow piece).putBack.toolsRequested = buffer.toolsRequested ∧
      (buffer.grow piece).putBack.reasoningOut = buffer.reasoningOut ∧
      (buffer.grow piece).putBack.reasoningReleased = buffer.reasoningReleased := by
  have inPhase := follows.phase
  rw [undecided] at inPhase
  have grown := grow_in_phase piece inPhase
  have slot := follows.slot
  unfold putBack
  by_cases blank : trim raw = []
  · have text : (buffer.grow piece).text = raw ++ piece := by rw [grow, follows.text, put_blank opened raw blank]
    have open_slot : (buffer.grow piece).promptOpened = some opened := by
      rw [grow]
      exact slot.trans (if_pos blank)
    rw [open_slot]
    dsimp only
    rw [text]
    by_cases still : trim (raw ++ piece) = []
    · rw [if_pos still, if_pos still, put_blank opened _ still]
      exact ⟨grown, text, open_slot, rfl, rfl, rfl⟩
    rw [if_neg still, if_neg still]
    have fresh := grown.quiet rfl
    refine ⟨{ grown with bound := ?_ }, rfl, rfl, rfl, rfl, rfl⟩
    dsimp only
    rw [fresh]
    exact Nat.zero_le _
  have text : (buffer.grow piece).text = opened.putInFrontOf (raw ++ piece) := by
    rw [grow, follows.text, put_append opened raw piece blank]
  have taken : (buffer.grow piece).promptOpened = none := by
    rw [grow]
    exact slot.trans (if_neg blank)
  rw [taken, if_neg (trim_append_ne raw piece blank)]
  exact ⟨grown, text, taken, rfl, rfl, rfl⟩

end Buffer

def Buffer.content (buffer : Buffer) : Text := between buffer.text (phaseOf buffer.text).floor buffer.emitted

structure Grown (opened : PromptOpened) (raw : Text) (before after : Buffer) : Prop where
  follows : Follows opened raw after
  tools : after.toolsRequested = before.toolsRequested
  out : after.reasoningOut = before.reasoningOut
  emitted : after.emitted = max before.emitted (phaseOf after.text).floor
  released : after.reasoningReleased =
    if (phaseOf before.text).start = none then (phaseOf after.text).start.getD before.reasoningReleased
    else before.reasoningReleased
  content : after.content = before.content

theorem fresh_content (buffer : Buffer) (none_out : buffer.emitted = (phaseOf buffer.text).floor) : buffer.content = [] := by
  rw [Buffer.content, none_out]
  exact between_self _

namespace Buffer

theorem undecided_grows (follows : Follows opened raw buffer) (undecided : phaseOf buffer.text = .undecided) :
    (buffer.grow piece).withholdingReasoning.1 = (phaseOf (buffer.grow piece).withholdingReasoning.2.text).withheld ∧
      Grown opened (raw ++ piece) buffer (buffer.grow piece).withholdingReasoning.2 := by
  obtain ⟨inPhase, text, slot, tools, out, released⟩ := put_back_grows follows undecided
  have state : (buffer.grow piece).reasoning = .undecided := by
    rw [grow]
    exact follows.phase.reasoning.trans (by rw [undecided]; rfl)
  have fresh : buffer.emitted = 0 := follows.phase.quiet (by rw [undecided]; rfl)
  have unset : (buffer.grow piece).putBack.emitted = 0 := inPhase.quiet rfl
  obtain ⟨flag, phase, decided, place⟩ := withhold_undecided_phase inPhase
  have result : (buffer.grow piece).withholdingReasoning = (buffer.grow piece).putBack.withholdUndecided := by
    rw [withholdingReasoning, state]
  rw [result]
  rw [← decided.text] at flag phase place
  refine ⟨flag, ⟨decided.text.trans text, decided.slot.trans slot, phase⟩, decided.tools.trans tools,
    decided.out.trans out, ?_, ?_, ?_⟩
  · rw [decided.emitted, unset, fresh, decided.text]
  · rw [place, released, undecided]
    rfl
  · rw [fresh_content buffer (by rw [fresh, undecided]; rfl)]
    apply fresh_content
    rw [decided.emitted, unset, Nat.zero_max, decided.text]

theorem thinking_grows (follows : Follows opened raw buffer)
    {block : ReasoningBlock} {start : Nat} {stop : Option Nat} (thinking : phaseOf buffer.text = .thinking block start stop) :
    (buffer.grow piece).withholdingReasoning.1 = (phaseOf (buffer.grow piece).withholdingReasoning.2.text).withheld ∧
      Grown opened (raw ++ piece) buffer (buffer.grow piece).withholdingReasoning.2 := by
  have inPhase := follows.phase
  have left : trim raw ≠ [] := by
    apply decided_raw opened raw
    rw [← follows.text, thinking]
    nofun
  obtain ⟨opens, place, whole⟩ := block_of_phase thinking rfl rfl
  have closes := stop_found block start buffer.text
  rw [← whole] at closes
  have own : buffer.block = block := inPhase.block block (by rw [thinking]; rfl)
  rw [thinking] at inPhase
  have unset : search (buffer.grow piece).block.close (buffer.grow piece).text = none → (buffer.grow piece).reasoningTo = none := by
    intro missing
    have stopAt : buffer.reasoningTo = stop := inPhase.stop
    cases found : stop with
    | none => exact stopAt.trans found
    | some at_stop =>
      have further := search_append buffer.text piece at_stop (closes.symm.trans found)
      rw [grow] at missing
      dsimp only at missing
      rw [own, further] at missing
      cases missing
  have same : phaseOf (buffer.grow piece).text = blockPhase (buffer.grow piece).block start (buffer.grow piece).text := by
    rw [grow]
    dsimp only
    rw [own, block_append opens, ← place]
  obtain ⟨flag, phase, decided, released⟩ := withhold_inside_phase (buffer.grow piece) start inPhase.reasoning
    inPhase.start (inPhase.quiet rfl) inPhase.contentFrom unset same
  have result : (buffer.grow piece).withholdingReasoning = (buffer.grow piece).withholdInside := by
    have state : (buffer.grow piece).reasoning = .inside := inPhase.reasoning
    rw [withholdingReasoning, state]
  have text : (buffer.grow piece).text = opened.putInFrontOf (raw ++ piece) := by
    rw [grow, follows.text, put_append opened raw piece left]
  have slot : (buffer.grow piece).promptOpened = if trim (raw ++ piece) = [] then some opened else none := by
    rw [grow, if_neg (trim_append_ne raw piece left)]
    exact follows.slot.trans (if_neg left)
  rw [result]
  rw [← decided.text] at flag phase
  refine ⟨flag, ⟨decided.text.trans text, decided.slot.trans slot, phase⟩, decided.tools, decided.out, ?_, ?_, ?_⟩
  · rw [decided.emitted, decided.text]
    rfl
  · rw [released, thinking, if_neg nofun]
    rfl
  · have fresh : buffer.emitted = 0 := inPhase.quiet rfl
    have unset : (buffer.grow piece).emitted = 0 := fresh
    rw [fresh_content buffer (by rw [fresh, thinking]; rfl)]
    apply fresh_content
    rw [decided.emitted, unset, Nat.zero_max, decided.text]

variable (opened : PromptOpened) (raw piece : Text)

theorem absent_grows (follows : Follows opened raw buffer)
    (absent : (phaseOf buffer.text).reasoning = .absent) (stays : phaseOf (buffer.text ++ piece) = phaseOf buffer.text) :
    (buffer.grow piece).withholdingReasoning.1 = (phaseOf (buffer.grow piece).withholdingReasoning.2.text).withheld ∧
      Grown opened (raw ++ piece) buffer (buffer.grow piece).withholdingReasoning.2 := by
  have inPhase := follows.phase
  have left : trim raw ≠ [] := by
    apply decided_raw opened raw
    intro undecided
    rw [follows.text, undecided] at absent
    cases absent
  have grown := grow_in_phase piece inPhase
  have result : (buffer.grow piece).withholdingReasoning = (false, buffer.grow piece) := by
    have state : (buffer.grow piece).reasoning = .absent := inPhase.reasoning.trans absent
    rw [withholdingReasoning, state]
  have flag : (phaseOf buffer.text).withheld = false := by
    cases phase : phaseOf buffer.text with
    | undecided | thinking =>
      rw [phase] at absent
      cases absent
    | plain | answered => rfl
  rw [result]
  have same : phaseOf (buffer.grow piece).text = phaseOf buffer.text := stays
  dsimp only
  rw [same]
  refine ⟨flag.symm, ⟨?_, ?_, ?_⟩, rfl, rfl, ?_, ?_, ?_⟩
  · rw [grow, follows.text, put_append opened raw piece left]
  · rw [grow, if_neg (trim_append_ne raw piece left)]
    exact follows.slot.trans (if_neg left)
  · rw [same]
    exact grown
  · rw [same, max_eq_left inPhase.floor]
    rfl
  · rw [same]
    cases (phaseOf buffer.text).start with
    | none | some => rfl
  · rw [content, content, same]
    exact between_append buffer.text piece _ inPhase.bound

theorem grows (buffer : Buffer) (follows : Follows opened raw buffer) :
    (buffer.grow piece).withholdingReasoning.1 = (phaseOf (buffer.grow piece).withholdingReasoning.2.text).withheld ∧
      Grown opened (raw ++ piece) buffer (buffer.grow piece).withholdingReasoning.2 := by
  cases phase : phaseOf buffer.text with
  | undecided => exact undecided_grows follows phase
  | plain opening =>
    exact absent_grows opened raw piece follows (by rw [phase]; rfl) (by rw [phase, plain_append phase])
  | thinking block start stop => exact thinking_grows follows phase
  | answered block start stop answer =>
    obtain ⟨opens, place, whole⟩ := block_of_phase phase rfl rfl
    have further := answered_append block start stop answer piece whole.symm
    exact absent_grows opened raw piece follows (by rw [phase]; rfl)
      (by rw [phase, block_append opens, ← place, further])

theorem releasable_le {phase : Phase} (inPhase : InPhase phase buffer) : buffer.releasableLen ≤ buffer.text.length := by
  unfold releasableLen
  split
  · have from_bound : buffer.contentFrom ≤ buffer.text.length := by
      have floor := inPhase.floor
      have bound := inPhase.bound
      rw [inPhase.contentFrom]
      cases phase with
      | undecided | plain | thinking => exact Nat.zero_le _
      | answered _ _ _ _ => exact Nat.le_trans floor bound
    have safe := content_prefix_le (buffer.text.drop buffer.contentFrom)
    rw [List.length_drop] at safe
    exact Nat.max_le.mpr ⟨by omega, inPhase.bound⟩
  · exact le_refl _

end Buffer

structure Pushed (opened : PromptOpened) (raw : Text) (before : Buffer) (written : Text) (after : Buffer) : Prop where
  follows : Follows opened raw after
  tools : after.toolsRequested = before.toolsRequested
  out : after.reasoningOut = before.reasoningOut
  content : after.content = before.content ++ written
  emitted : after.emitted = if (phaseOf after.text).withheld then 0
    else max (max before.emitted (phaseOf after.text).floor) after.releasableLen
  released : after.reasoningReleased =
    if (phaseOf before.text).start = none then (phaseOf after.text).start.getD before.reasoningReleased
    else before.reasoningReleased

namespace Buffer

theorem released_releasable : { buffer with emitted := buffer.releasableLen }.releasableLen = buffer.releasableLen := by
  unfold releasableLen
  by_cases tools : buffer.toolsRequested = true
  · rw [if_pos tools, if_pos tools]
    dsimp only
    omega
  · rw [if_neg tools, if_neg tools]

theorem push_spec (opened : PromptOpened) (raw piece : Text) (buffer : Buffer) (follows : Follows opened raw buffer) :
    Pushed opened (raw ++ piece) buffer (buffer.push piece).1 (buffer.push piece).2 := by
  obtain ⟨flag, grown⟩ := grows opened raw piece buffer follows
  have result : buffer.push piece = (buffer.grow piece).released := rfl
  rw [result, released]
  generalize (buffer.grow piece).withholdingReasoning = decision at flag grown
  obtain ⟨withheld, after⟩ := decision
  dsimp only at flag grown
  have inPhase := grown.follows.phase
  cases withheld with
  | true =>
    refine ⟨grown.follows, grown.tools, grown.out, ?_, ?_, grown.released⟩
    · rw [grown.content, List.append_nil]
    · rw [if_pos flag.symm]
      exact inPhase.quiet flag.symm
  | false =>
    dsimp only
    unfold release
    dsimp only
    by_cases more : after.emitted < after.releasableLen
    · rw [if_pos more]
      refine ⟨⟨grown.follows.text, grown.follows.slot, ?_⟩, grown.tools, grown.out, ?_, ?_, grown.released⟩
      · exact { inPhase with floor := le_trans inPhase.floor (le_of_lt more), quiet := fun held => absurd (flag.trans held) Bool.false_ne_true, bound := releasable_le inPhase }
      · rw [← grown.content]
        exact (between_join after.text _ _ inPhase.floor (le_of_lt more)).symm
      · rw [if_neg (by rw [← flag]; exact Bool.false_ne_true), released_releasable, ← grown.emitted, max_eq_right (le_of_lt more)]
    rw [if_neg more]
    refine ⟨grown.follows, grown.tools, grown.out, ?_, ?_, grown.released⟩
    · rw [grown.content, List.append_nil]
    · rw [if_neg (by rw [← flag]; exact Bool.false_ne_true), ← grown.emitted]
      dsimp only
      omega

def sureLen (buffer : Buffer) : Nat :=
  if buffer.toolsRequested then buffer.contentFrom + contentPrefixLen (buffer.text.drop buffer.contentFrom)
  else buffer.text.length

theorem release_state (buffer : Buffer) :
    buffer.release.2 = { buffer with emitted := max buffer.emitted buffer.releasableLen } := by
  unfold release
  dsimp only
  by_cases more : buffer.emitted < buffer.releasableLen
  · rw [if_pos more, max_eq_right (le_of_lt more)]
  · rw [if_neg more, max_eq_left (Nat.le_of_not_lt more)]

theorem emitted_releasable : max buffer.emitted buffer.releasableLen = max buffer.emitted buffer.sureLen := by
  unfold releasableLen sureLen
  split <;> omega

theorem push_emitted (opened : PromptOpened) (raw piece : Text) (follows : Follows opened raw buffer) :
    (buffer.push piece).2.emitted = if (phaseOf (buffer.push piece).2.text).withheld then 0
      else max (max buffer.emitted (phaseOf (buffer.push piece).2.text).floor) (buffer.push piece).2.sureLen := by
  obtain ⟨flag, grown⟩ := grows opened raw piece buffer follows
  have result : buffer.push piece = (buffer.grow piece).released := rfl
  rw [result, released]
  generalize (buffer.grow piece).withholdingReasoning = decision at flag grown
  obtain ⟨withheld, after⟩ := decision
  dsimp only at flag grown
  have inPhase := grown.follows.phase
  cases withheld with
  | true =>
    rw [if_pos flag.symm]
    exact inPhase.quiet flag.symm
  | false =>
    have unheld : ¬(phaseOf after.text).withheld = true := by
      rw [← flag]
      exact Bool.false_ne_true
    have sure : { after with emitted := max after.emitted after.releasableLen }.sureLen = after.sureLen := rfl
    change after.release.2.emitted = if (phaseOf after.release.2.text).withheld then 0
      else max (max buffer.emitted (phaseOf after.release.2.text).floor) after.release.2.sureLen
    rw [release_state, if_neg unheld, sure, ← grown.emitted]
    exact emitted_releasable

end Buffer

end SwarmLlm.Api
