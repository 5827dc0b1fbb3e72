import SwarmLlm.Api.Thoughts

namespace SwarmLlm.Api

open Lib Inference List StreamingToolText

def NoControlToken (text : Text) : Prop := ∀ rest ∈ text.tails, pastControlToken rest = none

instance (text : Text) : Decidable (NoControlToken text) := inferInstanceAs (Decidable (∀ rest ∈ text.tails, _))

variable (buffer : Buffer) {content raw thoughts : Text} (text : Text)

theorem strip_loop_id (unspelled : NoControlToken text) : stripLoop text.length text = text := by
  induction text with
  | nil => rfl
  | cons symbol rest ih =>
    have here := unspelled (symbol :: rest) ((mem_tails _ _).mpr suffix_rfl)
    have behind : NoControlToken rest := by
      intro left listed
      apply unspelled
      exact (mem_tails _ _).mpr (((mem_tails _ _).mp listed).trans (suffix_cons symbol rest))
    rw [length_cons, stripLoop, here]
    dsimp only
    rw [ih behind]

theorem strip_id (unspelled : NoControlToken text) : stripControlTokenArtifacts text = text := by
  unfold stripControlTokenArtifacts
  split
  · rfl
  · exact strip_loop_id text unspelled

def scratchpad (text : Text) : Option (Text × Bool) :=
  match openingReasoningBlock (trimStart isWhitespace text) with
  | none => none
  | some block =>
    let body := text.drop (leadLen isWhitespace text + block.opener.length)
    match search block.close body with
    | none => some (body, false)
    | some place => some (body.take place, true)

theorem search_shift (pattern front text : Text) (clear : ∀ place < front.length, ¬FoundAt pattern (front ++ text) place) :
    search pattern (front ++ text) = (search pattern text).map fun place => front.length + place := by
  induction front with
  | nil => simp
  | cons symbol front ih =>
    have closed : ¬pattern <+: symbol :: (front ++ text) := fun opens => clear 0 (Nat.succ_pos _) ⟨Nat.zero_le _, opens⟩
    have behind := ih fun place below found => clear (place + 1) (Nat.succ_lt_succ below) ⟨Nat.succ_le_succ found.1, found.2⟩
    rw [cons_append, search, if_neg closed, behind, Option.map_map, length_cons]
    congr 1
    funext place
    exact (Nat.succ_add front.length place).symm

variable {start : Nat} {text} {block : ReasoningBlock}

theorem search_body (opened : openingReasoningBlock (trimStart isWhitespace text) = some block)
    (within : start ≤ leadLen isWhitespace text + block.opener.length) :
    search block.close text = (search block.close (text.drop start)).map fun place => start + place := by
  obtain ⟨front, split, length, -⟩ := lead_split isWhitespace text
  have short := (opening_block_some block opened).2.length_le
  have total := congrArg List.length split
  rw [length_append] at total
  have fits : (text.take start).length = start := by
    rw [length_take]
    omega
  have shifted := search_shift block.close (text.take start) (text.drop start)
  rw [take_append_drop, fits] at shifted
  apply shifted
  intro place early found
  exact (before_body text block place opened (by omega)).2 found.2

def finalized (text : Text) : Text := trimStart isReplyLeadingWhitespace (takeLeadingReasoningBlock text).1

theorem finalize_plain {opened : PromptOpened} (unspelled : NoControlToken text) :
    (finalizeText text [] opened).1 = finalized (opened.putInFrontOf text) := by
  unfold finalizeText finalized
  rw [strip_id text unspelled]
  rfl

theorem lead_all {blank : Char → Bool} (whole : leadLen blank text = text.length) : trimStart blank text = [] := by
  have short := (trim_start_suffix blank text).length_le
  rw [leadLen] at whole
  apply length_eq_zero_iff.mp
  omega

variable (text)

theorem trim_again : trimStart isReplyLeadingWhitespace (trimStart isWhitespace text) = trimStart isWhitespace text := by
  cases left : trimStart isWhitespace text with
  | nil => rfl
  | cons symbol rest =>
    have black := trim_start_head text symbol rest left
    apply dropWhile_cons_of_neg
    intro leading
    rw [leading_whitespace leading] at black
    cases black

theorem finalized_phase : finalized text = match phaseOf text with
    | .undecided | .plain _ | .thinking _ _ none => trimStart isReplyLeadingWhitespace text
    | .thinking _ _ (some _) => []
    | .answered _ _ _ answer => text.drop answer := by
  unfold finalized takeLeadingReasoningBlock phaseOf
  dsimp only
  rw [drop_lead]
  cases opened : openingReasoningBlock (trimStart isWhitespace text) with
  | none =>
    dsimp only
    cases reasoningBlocks.any fun block => decide (trimStart isWhitespace text <+: block.opener) <;> rfl
  | some block =>
    have same := search_body opened (Nat.le_add_right _ _)
    rw [drop_lead] at same
    unfold blockPhase
    dsimp only
    rw [same]
    cases found : search block.close (trimStart isWhitespace text) with
    | none => rfl
    | some place =>
      dsimp only [Option.map_some]
      by_cases blank : leadLen isWhitespace (text.drop (leadLen isWhitespace text + place + block.close.length)) =
          (text.drop (leadLen isWhitespace text + place + block.close.length)).length
      · rw [if_pos blank]
        dsimp only
        rw [← drop_drop, drop_lead, lead_all blank]
        rfl
      · rw [if_neg blank]
        dsimp only
        rw [← drop_drop, drop_lead, trim_again]

variable (isJson : Text → Bool) (fuel : Nat)

-- A push, and the content and the scratchpad that go out with it; `takes` says
-- whether the surface asks for the scratchpad after each push.
def feedOne (takes : Bool) (reply : StreamingToolText) (piece : Text) : Option (Text × Text × StreamingToolText) :=
  (reply.push isJson fuel piece).map fun pushed =>
    let taken := if takes then pushed.2.takeReasoning else ([], pushed.2)
    (pushed.1, taken.1, taken.2)

def feed (takes : Bool) : StreamingToolText → List Text → Option (Text × Text × StreamingToolText)
  | reply, [] => some ([], [], reply)
  | reply, piece :: pieces =>
    match feedOne isJson fuel takes reply piece with
    | none => none
    | some (content, thoughts, next) =>
      (feed takes next pieces).map fun later => (content ++ later.1, thoughts ++ later.2.1, later.2.2)

def streamReply (takes toolsRequested : Bool) (out : ReasoningOut) (opened : PromptOpened) (pieces : List Text) :
    Option (Text × Text) :=
  (feed isJson fuel takes (new toolsRequested out opened) pieces).map fun fed =>
    let finished := if takes then fed.2.2.finishReasoning isJson false else ([], fed.2.2)
    (fed.1 ++ (finished.2.pendingAll isJson).1, fed.2.1 ++ finished.1)

def Unrewritten (reply : StreamingToolText) : Prop := reply.harmony = .undecided ∨ reply.harmony = .off

variable {reply : StreamingToolText}

theorem unrewritten_end (unrewritten : Unrewritten reply) : reply.endOfReply isJson = reply := by
  unfold endOfReply
  cases unrewritten with
  | inl undecided => rw [undecided]
  | inr off => rw [off]

theorem unrewritten_push {token : Text} (unrewritten : Unrewritten reply) (slot : reply.buffer.promptOpened ≠ some .harmony) :
    ∃ harmony, reply.push isJson fuel token = some ((reply.buffer.push token).1, ⟨(reply.buffer.push token).2, harmony⟩) ∧
      Unrewritten ⟨(reply.buffer.push token).2, harmony⟩ := by
  have settled : ∃ harmony, reply.settleHarmony token = ⟨reply.buffer, harmony⟩ ∧ (harmony = .undecided ∨ harmony = .off) := by
    unfold settleHarmony
    rw [if_neg slot]
    split
    · exact ⟨.off, rfl, .inr rfl⟩
    · exact ⟨reply.harmony, rfl, unrewritten⟩
  obtain ⟨harmony, same, still⟩ := settled
  refine ⟨harmony, ?_, still⟩
  unfold push readPiece
  rw [same]
  cases still with
  | inl undecided =>
    subst undecided
    rfl
  | inr off =>
    subst off
    rfl

structure Streaming (takes tools : Bool) (out : ReasoningOut) (opened : PromptOpened) (raw content thoughts : Text)
    (reply : StreamingToolText) : Prop where
  unrewritten : Unrewritten reply
  follows : Follows opened raw reply.buffer
  withTools : reply.buffer.toolsRequested = tools
  withOut : reply.buffer.reasoningOut = out
  written : reply.buffer.content = content
  thinks : takes = true → out = .separate → Thinks thoughts reply.buffer

variable (takes tools : Bool) (out : ReasoningOut) {opened : PromptOpened}

theorem new_streaming : Streaming takes tools out opened [] [] [] (new tools out opened) where
  unrewritten := .inl rfl
  follows := ⟨(put_blank opened [] rfl).symm, rfl, ⟨rfl, rfl, rfl, rfl, nofun, Nat.zero_le _, fun _ => rfl, Nat.le_refl _⟩⟩
  withTools := rfl
  withOut := rfl
  written := rfl
  thinks := fun _ _ => rfl

theorem take_streaming {piece written : Text} {before : Buffer} {after : StreamingToolText} (unrewritten : Unrewritten after)
    (beforeTools : before.toolsRequested = tools) (beforeOut : before.reasoningOut = out) (beforeContent : before.content = content)
    (follows : Follows opened raw before) (thinks : out = .separate → Thinks thoughts before)
    (pushed : Pushed opened (raw ++ piece) before written after.buffer) :
    Streaming true tools out opened (raw ++ piece) (content ++ written) (thoughts ++ after.takeReasoning.1)
      after.takeReasoning.2 := by
  have pushedTools := pushed.tools.trans beforeTools
  have pushedOut := pushed.out.trans beforeOut
  have pushedContent : after.buffer.content = content ++ written := by rw [pushed.content, beforeContent]
  have taken := Buffer.take_reasoning_eq pushed.follows.phase
  have result : after.takeReasoning = (after.buffer.takeReasoning.1, { after with buffer := after.buffer.takeReasoning.2 }) := rfl
  rw [result, taken]
  cases begun : (phaseOf after.buffer.text).start with
  | none =>
    refine ⟨unrewritten, pushed.follows, pushedTools, pushedOut, pushedContent, ?_⟩
    intro _ separate
    apply (thinks_none after.buffer begun).mpr
    rw [pushed_unshown follows pushed (thinks separate) begun]
    rfl
  | some start =>
    dsimp only
    obtain ⟨place, same⟩ := Buffer.release_reasoning_place
    refine ⟨unrewritten, ?_, ?_, ?_, ?_, ?_⟩
    · dsimp only
      rw [same]
      exact follows_released opened _ place pushed.follows
    · dsimp only
      rw [same]
      exact pushedTools
    · dsimp only
      rw [same]
      exact pushedOut
    · dsimp only
      rw [same]
      exact pushedContent
    intro _ separate
    obtain ⟨limit, shown, later⟩ :=
      pushed_shown opened raw follows pushed (thinks separate) begun
    have within := limit_within after.buffer.toolsRequested start begun
    have released := Buffer.release_reasoning_shown (pushedOut.trans separate)
      (pushed.follows.phase.start.trans begun) shown later within.2
    dsimp only
    rw [same] at released ⊢
    exact (thinks_some _ { after.buffer with reasoningReleased := place } start begun).mpr released

theorem feed_one_streaming {piece : Text} (plain : opened ≠ .harmony)
    (streaming : Streaming takes tools out opened raw content thoughts reply) :
    ∃ written shown next, feedOne isJson fuel takes reply piece = some (written, shown, next) ∧
      Streaming takes tools out opened (raw ++ piece) (content ++ written) (thoughts ++ shown) next := by
  have slot : reply.buffer.promptOpened ≠ some .harmony := by
    rw [streaming.follows.slot]
    split
    · intro same
      exact plain (Option.some.inj same)
    · nofun
  obtain ⟨harmony, pushes, unrewritten⟩ := unrewritten_push isJson fuel streaming.unrewritten slot
  have pushed := Buffer.push_spec opened raw piece reply.buffer streaming.follows
  rw [feedOne, pushes]
  cases takes with
  | true =>
    refine ⟨_, _, _, rfl, ?_⟩
    exact take_streaming tools out unrewritten streaming.withTools streaming.withOut streaming.written
      streaming.follows (streaming.thinks rfl) pushed
  | false =>
    refine ⟨_, _, _, rfl, unrewritten, pushed.follows, pushed.tools.trans streaming.withTools,
      pushed.out.trans streaming.withOut, ?_, nofun⟩
    rw [← streaming.written]
    exact pushed.content

theorem feed_streaming (raw content thoughts : Text) (reply : StreamingToolText) {pieces : List Text}
    (plain : opened ≠ .harmony) (streaming : Streaming takes tools out opened raw content thoughts reply) :
    ∃ written shown last, feed isJson fuel takes reply pieces = some (written, shown, last) ∧
      Streaming takes tools out opened (raw ++ pieces.flatten) (content ++ written) (thoughts ++ shown) last := by
  induction pieces generalizing raw content thoughts reply with
  | nil =>
    refine ⟨[], [], reply, rfl, ?_⟩
    rw [flatten_nil, append_nil, append_nil, append_nil]
    exact streaming
  | cons piece pieces ih =>
    obtain ⟨written, shown, next, first, going⟩ :=
      feed_one_streaming isJson fuel takes tools out plain streaming
    obtain ⟨laterWritten, laterShown, last, rest, ends⟩ := ih _ _ _ next going
    refine ⟨written ++ laterWritten, shown ++ laterShown, last, ?_, ?_⟩
    · rw [feed, first]
      dsimp only
      rw [rest]
      rfl
    · rw [flatten_cons, ← append_assoc, ← append_assoc, ← append_assoc]
      exact ends

variable (opened)

theorem answer_positive {stop answer : Nat} (answered : phaseOf text = .answered block start stop answer) : 0 < answer := by
  obtain ⟨opened, -, whole⟩ := block_of_phase answered rfl rfl
  have listed := (opening_block_some block opened).1
  have long : 0 < block.close.length := (by decide : ∀ block ∈ reasoningBlocks, 0 < block.close.length) block listed
  unfold blockPhase at whole
  split at whole
  · cases whole
  · dsimp only at whole
    split at whole
    · cases whole
    · cases whole
      omega

theorem between_rest {stop : Nat} (ordered : start ≤ stop) : between text start stop ++ text.drop stop = text.drop start := by
  by_cases inside : stop ≤ text.length
  · have joined := between_join text start stop ordered inside
    rw [between, between, between, take_length] at joined
    exact joined
  · have nothing : text.drop stop = [] := drop_of_length_le (by omega)
    rw [between, take_of_length_le (by omega), nothing, append_nil]

theorem pending_all_text {buffer : Buffer} (free : ¬(buffer.reasoning = .inside ∧ (buffer.reasoningTo.isSome ∨ buffer.reasoningOut = .separate))) :
    buffer.pendingAll.1 = buffer.text.drop buffer.dropOpening.emitted := by
  have same : buffer.dropOpening.text = buffer.text := by
    unfold Buffer.dropOpening
    split <;> rfl
  unfold Buffer.pendingAll
  rw [if_neg free]
  dsimp only
  rw [same]
  split
  · rfl
  · exact (drop_of_length_le (by omega)).symm

theorem pending_spec (inPhase : InPhase (phaseOf buffer.text) buffer) : buffer.content ++ buffer.pendingAll.1 =
      if (phaseOf buffer.text).start ≠ none ∧ (phaseOf buffer.text).stop = none ∧ buffer.reasoningOut = .separate then []
      else finalized buffer.text := by
  have state := inPhase.reasoning
  have stop := inPhase.stop
  have left := finalized_phase buffer.text
  have floor := inPhase.floor
  have quiet := inPhase.quiet
  unfold Buffer.content
  cases phase : phaseOf buffer.text with
  | undecided =>
    rw [phase] at state left quiet
    have fresh := quiet rfl
    rw [pending_all_text (fun inside => by cases state.symm.trans inside.1), Buffer.dropOpening, if_pos fresh, fresh,
      drop_lead, left, if_neg (fun thinking => thinking.1 rfl)]
    rfl
  | plain opening =>
    rw [phase] at state left floor
    have opens := (plain_phase phase).2.2
    have least : opening ≤ buffer.emitted := floor
    have same : buffer.dropOpening.emitted = buffer.emitted := by
      unfold Buffer.dropOpening
      split
      · rename_i fresh
        dsimp only
        omega
      · rfl
    rw [pending_all_text (fun inside => by cases state.symm.trans inside.1), same, left, if_neg (fun thinking => thinking.1 rfl)]
    dsimp only [Phase.floor]
    rw [between_rest _ least, opens, drop_lead]
  | answered block start at_stop answer =>
    rw [phase] at state left floor
    have positive := answer_positive buffer.text phase
    have least : answer ≤ buffer.emitted := floor
    have same : buffer.dropOpening.emitted = buffer.emitted := by
      rw [Buffer.dropOpening, if_neg (by omega)]
    rw [pending_all_text (fun inside => by cases state.symm.trans inside.1), same, left,
      if_neg (fun thinking => by cases thinking.2.1)]
    exact between_rest _ floor
  | thinking block start closed =>
    rw [phase] at state left quiet stop
    have fresh := quiet rfl
    have inside : buffer.reasoning = .inside := state
    have ended : buffer.reasoningTo = closed := stop
    have nothing : between buffer.text (Phase.thinking block start closed).floor buffer.emitted = [] := by
      rw [fresh]
      exact between_self _
    rw [nothing, nil_append]
    cases closed with
    | some place =>
      rw [Buffer.pendingAll, if_pos ⟨inside, .inl (by rw [ended]; rfl)⟩, left, if_neg (fun thinking => by cases thinking.2.1)]
    | none =>
      by_cases separate : buffer.reasoningOut = .separate
      · rw [Buffer.pendingAll, if_pos ⟨inside, .inr separate⟩, if_pos ⟨nofun, rfl, separate⟩]
      have free : ¬(buffer.reasoning = .inside ∧ (buffer.reasoningTo.isSome ∨ buffer.reasoningOut = .separate)) := by
        intro held
        rw [ended] at held
        cases held.2 with
        | inl closed => cases closed
        | inr same => exact separate same
      rw [pending_all_text free, Buffer.dropOpening, if_pos fresh, drop_lead, left,
        if_neg (fun thinking => separate thinking.2.2)]

variable {text}

theorem scratchpad_none : scratchpad text = none ↔ (phaseOf text).start = none := by
  unfold scratchpad phaseOf
  cases openingReasoningBlock (trimStart isWhitespace text) with
  | none =>
    dsimp only
    constructor
    · intro _
      split <;> rfl
    · intro _
      rfl
  | some block =>
    dsimp only
    rw [(block_phase_block _ _).2]
    constructor
    · intro missing
      split at missing <;> cases missing
    · nofun

theorem scratchpad_some (begun : (phaseOf text).start = some start) :
    scratchpad text = some (between text start ((phaseOf text).stop.getD text.length), (phaseOf text).stop.isSome) := by
  obtain ⟨block, opened, place, phase⟩ := phase_of_start begun
  have same := search_body opened (Nat.le_of_eq place)
  rw [phase, stop_found]
  unfold scratchpad
  rw [opened]
  dsimp only
  rw [← place]
  cases found : search block.close (text.drop start) with
  | none =>
    rw [found] at same
    rw [same]
    dsimp only [Option.map_none, Option.getD_none, Option.isSome_none]
    rw [between, take_length]
  | some stop =>
    rw [found] at same
    rw [same]
    dsimp only [Option.map_some, Option.getD_some, Option.isSome_some]
    rw [between, drop_take, Nat.add_sub_cancel_left]

theorem limit_le_stop {tools : Bool} (begun : (phaseOf text).start = some start) :
    thoughtLimit tools text (phaseOf text) ≤ (phaseOf text).stop.getD text.length ∧
      (phaseOf text).stop.getD text.length ≤ text.length := by
  have within := limit_within tools start begun
  obtain ⟨block, opened, place, phase⟩ := phase_of_start begun
  rw [phase, limit_of_block] at within ⊢
  rw [stop_found]
  cases found : search block.close text with
  | none =>
    rw [found] at within
    exact ⟨within.2, Nat.le_refl _⟩
  | some stop =>
    rw [found] at within
    exact ⟨Nat.le_refl _, within.2⟩

variable {buffer}

theorem finish_shown (inPhase : InPhase (phaseOf buffer.text) buffer)
    (separate : buffer.reasoningOut = .separate) (thinks : Thinks thoughts buffer) :
    thoughts ++ (buffer.finishReasoning false).1 =
      match scratchpad buffer.text with
      | none => []
      | some (body, _) => trim body := by
  have stop := inPhase.stop
  cases begun : (phaseOf buffer.text).start with
  | none =>
    have unstopped : (phaseOf buffer.text).stop = none := by
      cases phase : phaseOf buffer.text with
      | undecided | plain => rfl
      | thinking | answered =>
        rw [phase] at begun
        cases begun
    rw [scratchpad_none.mpr begun, (thinks_none buffer begun).mp thinks, Buffer.finishReasoning,
      stop, unstopped, inPhase.start, begun]
    rfl
  | some start =>
    have shown := (thinks_some thoughts buffer start begun).mp thinks
    have result : buffer.finishReasoning false = buffer.releaseReasoning ((phaseOf buffer.text).stop.getD buffer.text.length) := by
      rw [Buffer.finishReasoning, stop, inPhase.start, begun]
      cases (phaseOf buffer.text).stop <;> rfl
    obtain ⟨later, within⟩ := limit_le_stop begun
    have released := Buffer.release_reasoning_shown separate (inPhase.start.trans begun) shown later within
    obtain ⟨place, same⟩ := Buffer.release_reasoning_place
    have trimmed := released.trimmed
    rw [same] at trimmed
    rw [result, trimmed, scratchpad_some begun]

theorem finish_place : ∃ place, (buffer.finishReasoning false).2 = { buffer with reasoningReleased := place } := by
  unfold Buffer.finishReasoning
  split
  · exact Buffer.release_reasoning_place
  · exact Buffer.release_reasoning_place
  · exact ⟨_, rfl⟩

theorem end_streaming {last : StreamingToolText} (streaming : Streaming takes tools out opened raw content thoughts last) :
    (content ++ ((if takes then last.finishReasoning isJson false else ([], last)).2.pendingAll isJson).1 =
      if (phaseOf last.buffer.text).start ≠ none ∧ (phaseOf last.buffer.text).stop = none ∧ out = .separate then []
      else finalized last.buffer.text) ∧
      (takes = true → out = .separate → thoughts ++ (if takes then last.finishReasoning isJson false else ([], last)).1 =
          match scratchpad last.buffer.text with
          | none => []
          | some (body, _) => trim body) := by
  have unended := unrewritten_end isJson streaming.unrewritten
  cases takes with
  | false =>
    refine ⟨?_, nofun⟩
    have result : (last.pendingAll isJson).1 = last.buffer.pendingAll.1 := by
      rw [pendingAll, unended]
    rw [if_neg Bool.false_ne_true, result, ← streaming.written, ← streaming.withOut]
    exact pending_spec last.buffer streaming.follows.phase
  | true =>
    obtain ⟨place, same⟩ := finish_place
    have finished : last.finishReasoning isJson false =
        ((last.buffer.finishReasoning false).1, ⟨{ last.buffer with reasoningReleased := place }, last.harmony⟩) := by
      rw [finishReasoning, unended, same]
    have still : Unrewritten ⟨{ last.buffer with reasoningReleased := place }, last.harmony⟩ := streaming.unrewritten
    have follows := follows_released opened raw place streaming.follows
    have result : ((⟨{ last.buffer with reasoningReleased := place }, last.harmony⟩ : StreamingToolText).pendingAll isJson).1 =
        { last.buffer with reasoningReleased := place }.pendingAll.1 := by
      rw [pendingAll, unrewritten_end isJson still]
    rw [if_pos rfl, finished]
    dsimp only
    rw [result, ← streaming.written, ← streaming.withOut]
    refine ⟨pending_spec { last.buffer with reasoningReleased := place } follows.phase, ?_⟩
    intro _ separate
    exact finish_shown streaming.follows.phase separate
      (streaming.thinks rfl (streaming.withOut.symm.trans separate))

theorem streamed_as_finalized (text : Text) (pieces : List Text) (plain : opened ≠ .harmony)
    (unspelled : NoControlToken text) (cut : pieces.flatten = text) :
    ∃ content thoughts final, streamReply isJson fuel takes tools out opened pieces = some (content, thoughts) ∧
      finalizeReplyText isJson fuel text [] opened = some final ∧
      match scratchpad (opened.putInFrontOf text) with
      | none => content = final.1 ∧ (takes = true → out = .separate → thoughts = [])
      | some (body, closed) =>
        content = (if closed = false ∧ out = .separate then [] else final.1) ∧
          (takes = true → out = .separate → thoughts = trim body) := by
  obtain ⟨written, shown, last, feeds, ends⟩ :=
    feed_streaming isJson fuel takes tools out [] [] [] _ plain (new_streaming takes tools out)
  rw [nil_append, nil_append, nil_append, cut] at ends
  obtain ⟨pending, ended⟩ := end_streaming isJson takes tools out opened ends
  have run : streamReply isJson fuel takes tools out opened pieces =
      some (written ++ ((if takes then last.finishReasoning isJson false else ([], last)).2.pendingAll isJson).1,
        shown ++ (if takes then last.finishReasoning isJson false else ([], last)).1) := by
    rw [streamReply, feeds]
    rfl
  refine ⟨_, _, _, run, if_neg plain, ?_⟩
  rw [finalize_plain unspelled, pending, ends.follows.text]
  rw [ends.follows.text] at ended
  cases begun : (phaseOf (opened.putInFrontOf text)).start with
  | none =>
    rw [(scratchpad_none).mpr begun] at ended ⊢
    exact ⟨if_neg (fun thinking => thinking.1 rfl), ended⟩
  | some start =>
    rw [scratchpad_some begun] at ended ⊢
    refine ⟨?_, ended⟩
    cases (phaseOf (opened.putInFrontOf text)).stop with
    | none | some => simp

def thinkBlock : ReasoningBlock := ⟨"<think>".toList, "</think>".toList⟩

def sampleAnswer : Text := " plan</think>\n\nYes".toList

def samplePieces : List Text := [" ".toList, "pl".toList, "an</th".toList, "ink>\n".toList, "\nYes".toList]

theorem streamed_as_finalized_sample :
    PromptOpened.inside thinkBlock ≠ .harmony ∧ NoControlToken sampleAnswer ∧ samplePieces.flatten = sampleAnswer ∧
      ∃ content thoughts final,
        streamReply (fun _ => false) 0 true true .separate (.inside thinkBlock) samplePieces = some (content, thoughts) ∧
        finalizeReplyText (fun _ => false) 0 sampleAnswer [] (.inside thinkBlock) = some final ∧
        match scratchpad (PromptOpened.putInFrontOf (.inside thinkBlock) sampleAnswer) with
        | none => content = final.1 ∧ (true = true → ReasoningOut.separate = .separate → thoughts = [])
        | some (body, closed) =>
          content = (if closed = false ∧ ReasoningOut.separate = .separate then [] else final.1) ∧
            (true = true → ReasoningOut.separate = .separate → thoughts = trim body) := by
  have unspelled : NoControlToken sampleAnswer := by decide +kernel
  have cut : samplePieces.flatten = sampleAnswer := by decide +kernel
  exact ⟨nofun, unspelled, cut, streamed_as_finalized (fun _ => false) 0 true true .separate (.inside thinkBlock)
    sampleAnswer samplePieces nofun unspelled cut⟩

example : streamReply (fun _ => false) 0 true true .separate (.inside thinkBlock) samplePieces =
    some ("Yes".toList, "plan".toList) := by decide +kernel

end SwarmLlm.Api
