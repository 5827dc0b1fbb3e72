import SwarmLlm.Api.SafePrefix

namespace SwarmLlm.Api

open Lib Inference List

variable {symbol : Char} (blank : Char → Bool) {place : Nat} (front name text blanks marker other : Text) (safe : Nat)
  (last : Char)

theorem trim_end_all (tail : Text) (blanks : ∀ symbol ∈ tail, blank symbol = true) :
    trimEnd blank (front ++ tail) = trimEnd blank front := by
  have nothing : trimEnd blank tail = [] := rdropWhile_eq_nil_iff.mpr blanks
  rw [trim_end_append, if_pos nothing]

theorem trim_end_stays (ends : text.getLast? = some last) (black : blank last = false) : trimEnd blank text = text := by
  apply rdropWhile_eq_self_iff.mpr
  intro left
  rw [getLast?_eq_some_getLast left] at ends
  rw [Option.some.inj ends, black]
  exact Bool.false_ne_true

theorem trim_end_tail : ∃ tail, text = trimEnd blank text ++ tail ∧ ∀ symbol ∈ tail, blank symbol = true := by
  have whole : trimEnd blank text ++ text.rtakeWhile blank = text := rdropWhile_append_rtakeWhile
  refine ⟨text.rtakeWhile blank, whole.symm, ?_⟩
  intro symbol inside
  exact mem_rtakeWhile_imp inside

theorem tag_opener_same (same : text.take safe = other.take safe) :
    retractOverTagOpener text safe = retractOverTagOpener other safe := by
  rw [retractOverTagOpener, retractOverTagOpener, same]

theorem fence_opener_same (same : text.take safe = other.take safe) :
    retractOverFenceOpener text safe = retractOverFenceOpener other safe := by
  rw [retractOverFenceOpener, retractOverFenceOpener, same]

def isLineBreak (symbol : Char) : Bool := symbol == '\n' || symbol == '\r'

theorem fence_opener_lines :
    retractOverFenceOpener text safe = (trailingFenceOpener (trimEnd isLineBreak (text.take safe))).getD safe := rfl

theorem line_break_blank (line : isLineBreak symbol = true) : isWhitespace symbol = true := by
  rcases Bool.or_eq_true_iff.mp line with newline | other
  · rw [beq_iff_eq.mp newline]
    rfl
  · rw [beq_iff_eq.mp other]
    rfl

def isTick (symbol : Char) : Bool := symbol == '\x60'

def endsFence (symbol : Char) : Bool := symbol == '\x60' || isAsciiAlphanumeric symbol

theorem alphanumeric_not_blank (plain : isAsciiAlphanumeric symbol = true) : isWhitespace symbol = false := by
  by_contra blank
  simp only [isAsciiAlphanumeric, isWhitespace, Bool.or_eq_true, Bool.and_eq_true, decide_eq_true_eq, beq_iff_eq,
    Bool.not_eq_false] at plain blank
  omega

theorem ends_fence_not_blank (ends : endsFence symbol = true) : isWhitespace symbol = false := by
  rcases Bool.or_eq_true_iff.mp ends with tick | plain
  · rw [beq_iff_eq.mp tick]
    rfl
  · exact alphanumeric_not_blank plain

theorem fence_lang_last {front lang : Text} (plain : lang.all isAsciiAlphanumeric = true) :
    ∃ last, (front ++ (fence ++ lang)).getLast? = some last ∧ endsFence last = true := by
  by_cases bare : lang = []
  · refine ⟨'\x60', ?_, rfl⟩
    rw [bare, append_nil, getLast?_append]
    rfl
  · refine ⟨lang.getLast bare, ?_, ?_⟩
    · rw [getLast?_append, getLast?_append, getLast?_eq_some_getLast bare]
      rfl
    · rw [endsFence, all_eq_true.mp plain _ (getLast_mem bare), Bool.or_true]

theorem fence_head_last {head : Text} (fenced : trailingFenceOpener head = some place) :
    ∃ last, head.getLast? = some last ∧ endsFence last = true := by
  obtain ⟨front, lang, split, plain, -⟩ := (fence_opener_iff head place).mp fenced
  rw [split]
  exact fence_lang_last plain

theorem fence_lines_trimmed {text : Text} (fenced : trailingFenceOpener (trimEnd isLineBreak text) = some place) :
    trimEnd isWhitespace text = trimEnd isLineBreak text := by
  obtain ⟨last, ends, letter⟩ := fence_head_last fenced
  obtain ⟨tail, split, lines⟩ := trim_end_tail isLineBreak text
  nth_rewrite 1 [split]
  rw [trim_end_all isWhitespace _ tail (fun symbol inside => line_break_blank (lines symbol inside))]
  exact trim_end_stays isWhitespace _ last ends (ends_fence_not_blank letter)

theorem fence_before_le_opener {text : Text} : fenceBefore text place ≤ retractOverFenceOpener text place := by
  rw [fence_opener_lines]
  cases fenced : trailingFenceOpener (trimEnd isLineBreak (text.take place)) with
  | none =>
    rw [Option.getD_none]
    exact fence_before_le
  | some start =>
    rw [fenceBefore, fence_lines_trimmed fenced, fenced]

variable {safe}

theorem fence_opener_id (ends : (trimEnd isWhitespace (text.take safe)).getLast? = some last)
    (other : endsFence last = false) : retractOverFenceOpener text safe = safe := by
  rw [fence_opener_lines]
  cases fenced : trailingFenceOpener (trimEnd isLineBreak (text.take safe)) with
  | none => rfl
  | some start =>
    obtain ⟨letter, lettered, isLetter⟩ := fence_head_last fenced
    rw [fence_lines_trimmed fenced, lettered] at ends
    rw [← Option.some.inj ends, isLetter] at other
    cases other

theorem open_tag_last (head : Text) (last : Char) (ends : head.getLast? = some last) (other : last ≠ '>') :
    trailingOpenTag head = none := by
  unfold trailingOpenTag
  rw [ends, if_neg]
  intro same
  exact other (Option.some.inj same)

theorem tag_last {front name : Text} : (front ++ ('<' :: (name ++ ['>']))).getLast? = some '>' := by
  have whole : front ++ ('<' :: (name ++ ['>'])) = (front ++ '<' :: name) ++ ['>'] := by
    rw [append_assoc]
    rfl
  rw [whole, getLast?_concat]

theorem tag_opener_id (ends : (trimEnd isWhitespace (text.take safe)).getLast? = some last) (other : last ≠ '>') :
    retractOverTagOpener text safe = safe := by
  rw [retractOverTagOpener, open_tag_last _ last ends other, Option.getD_none]

theorem tag_then_fence : retractOverFenceOpener text (retractOverTagOpener text place) ≤ retractOverFenceOpener text place := by
  unfold retractOverTagOpener
  cases tag : trailingOpenTag (trimEnd isWhitespace (text.take place)) with
  | none => exact le_refl _
  | some start =>
    obtain ⟨front, name, split, -, -⟩ := open_tag_iff.mp tag
    have ends : (trimEnd isWhitespace (text.take place)).getLast? = some '>' := by
      rw [split]
      exact tag_last
    have inside := open_tag_lt _ start tag
    have short := trim_end_length isWhitespace (text.take place)
    rw [length_take] at short
    rw [fence_opener_id text '>' ends rfl, Option.getD_some]
    exact le_trans (fence_back_le _ _) (by omega)

theorem retract_le_openers (place : Nat) (other : (text.drop place).head? ≠ some '\x7b') :
    retract text place ≤ retractOverFenceOpener text (retractOverTagOpener text place) := by
  by_cases array : (trimEnd isWhitespace (text.take place)).getLast? = some '['
  · rw [tag_opener_id text '[' array (by decide), fence_opener_id text '[' array rfl]
    exact retract_le text place
  · have unbracketed : retractOverArrayOpener text place = place := if_neg array
    have unangled : retractOverAngleOpener text place = place := if_neg fun both => other both.2
    rw [retract, unbracketed, unangled]

theorem marker_symbols : ∀ marker ∈ callMarkers, '<' ∉ marker.tail ∧ '[' ∉ marker.tail ∧ '>' ∉ marker.dropLast ∧
    '\x60' ∉ marker ∧ marker.any isWhitespace = false := by decide +kernel

theorem marker_black (listed : marker ∈ callMarkers) (symbol : Char) (inside : symbol ∈ marker) : isWhitespace symbol = false := by
  by_contra blank
  have held : marker.any isWhitespace = true := any_eq_true.mpr ⟨symbol, inside, Bool.not_eq_false _ ▸ blank⟩
  rw [(marker_symbols marker listed).2.2.2.2] at held
  cases held

theorem fence_ticks : ∀ symbol ∈ fence, isTick symbol = true := all_eq_true.mp rfl

theorem before_cut (cut : beforeAnyMarker text callMarkers < text.length) :
    ∃ marker ∈ callMarkers, FoundAt marker text (beforeAnyMarker text callMarkers) ∨
      (text.drop (beforeAnyMarker text callMarkers) <+: marker ∧
        text.length - beforeAnyMarker text callMarkers < marker.length) := by
  obtain ⟨-, least⟩ := (le_before_any text callMarkers).mp (le_refl _)
  have tight : ¬beforeAnyMarker text callMarkers + 1 ≤ beforeAnyMarker text callMarkers := by omega
  rw [le_before_any, not_and_or] at tight
  rcases tight with long | met
  · omega
  rw [not_forall] at met
  obtain ⟨marker, met⟩ := met
  rw [Classical.not_imp] at met
  obtain ⟨listed, reached⟩ := met
  have same : beforeOne text marker = beforeAnyMarker text callMarkers := by
    have bound := least marker listed
    omega
  refine ⟨marker, listed, ?_⟩
  rw [← same]
  unfold beforeOne at same ⊢
  cases found : search marker text with
  | some place => exact .inl (search_some _ _ found).1
  | none =>
    rw [found] at same
    dsimp only [partialMarkerOverlap] at same ⊢
    rcases longest_overlap_overlaps text (longest [marker] - 1) with nothing | ⟨short, within, some_marker⟩
    · rw [overlapLen, nothing] at same
      omega
    obtain ⟨other, isMarker, opens⟩ := some_marker
    rw [mem_singleton.mp isMarker] at opens
    have length : longest [marker] = marker.length := Nat.max_zero _
    refine .inr ⟨opens, ?_⟩
    rw [overlapLen] at same ⊢
    omega

theorem before_le_cut (place : Nat) (listed : marker ∈ callMarkers) (unfound : search marker text = none)
    (within : place ≤ text.length) (opens : text.drop place <+: marker) (short : text.length - place < marker.length) :
    beforeAnyMarker text callMarkers ≤ place := by
  obtain ⟨-, least⟩ := (le_before_any text callMarkers).mp (le_refl _)
  have bound := least marker listed
  have length : longest [marker] = marker.length := Nat.max_zero _
  have overlap : text.length - place ≤ longestOverlap [marker] text (longest [marker] - 1) := by
    apply longest_overlap_most
    · omega
    · refine ⟨Nat.sub_le _ _, marker, mem_cons_self, ?_⟩
      rw [Nat.sub_sub_self within]
      exact opens
  rw [beforeOne, unfound, partialMarkerOverlap, overlapLen] at bound
  dsimp only at bound
  omega

def Unmarked (text : Text) : Prop := ∀ marker ∈ callMarkers, search marker text = none

theorem unmarked_cut {text : Text} (unmarked : Unmarked text) (cut : beforeAnyMarker text callMarkers < text.length) :
    ∃ marker ∈ callMarkers, text.drop (beforeAnyMarker text callMarkers) <+: marker ∧
      text.length - beforeAnyMarker text callMarkers < marker.length := by
  obtain ⟨marker, listed, found | opens⟩ := before_cut text cut
  · exact absurd found (search_none _ (unmarked marker listed) _)
  · exact ⟨marker, listed, opens⟩

theorem cut_last (unmarked : Unmarked text) (cut : beforeAnyMarker text callMarkers < text.length) (last : Char)
    (ends : text.getLast? = some last) : last ≠ '>' ∧ last ≠ '\x60' ∧ isWhitespace last = false := by
  obtain ⟨marker, listed, opens, short⟩ := unmarked_cut unmarked cut
  obtain ⟨-, -, unclosed, unticked, -⟩ := marker_symbols marker listed
  have present : last ∈ text.drop (beforeAnyMarker text callMarkers) := by
    have same : (text.drop (beforeAnyMarker text callMarkers)).getLast? = some last := by
      rw [getLast?_drop, if_neg (by omega), ends]
    exact mem_of_getLast? same
  have inside : last ∈ marker := opens.subset present
  refine ⟨?_, ?_, marker_black marker listed last inside⟩
  · intro angle
    rw [angle] at present
    apply unclosed
    obtain ⟨tail, whole⟩ := opens
    have left : tail ≠ [] := by
      intro nothing
      rw [nothing, append_nil] at whole
      rw [← whole, length_drop] at short
      omega
    rw [← whole, dropLast_append_of_ne_nil left]
    exact mem_append_left _ present
  · intro tick
    rw [tick] at inside
    exact unticked inside

theorem cut_tail {text marker : Text} (opens : text.drop place <+: marker) (later : symbol ∈ text.drop (place + 1)) :
    symbol ∈ marker.tail := by
  rw [← tail_drop] at later
  obtain ⟨more, whole⟩ := opens
  cases left : text.drop place with
  | nil =>
    rw [left] at later
    cases later
  | cons head rest =>
    rw [left] at later whole
    rw [← whole]
    exact mem_append_left _ later

theorem content_prefix_cut (cut : beforeAnyMarker text callMarkers < text.length) :
    contentPrefixLen text = retract text (beforeAnyMarker text callMarkers) := if_pos cut

theorem content_prefix_whole (whole : ¬beforeAnyMarker text callMarkers < text.length) :
    contentPrefixLen text = (unfinishedOpenerStart text).getD (beforeAnyMarker text callMarkers) := if_neg whole

theorem cut_at_lead (front rest : Text) (symbol : Char) (leads : symbol = '[' ∨ symbol = '<')
    (unmarked : Unmarked (front ++ symbol :: rest))
    (cut : beforeAnyMarker (front ++ symbol :: rest) callMarkers < (front ++ symbol :: rest).length) :
    front.length ≤ beforeAnyMarker (front ++ symbol :: rest) callMarkers := by
  by_contra early
  obtain ⟨marker, listed, opens, -⟩ := unmarked_cut unmarked cut
  obtain ⟨angled, bracketed, -⟩ := marker_symbols marker listed
  have later : symbol ∈ (front ++ symbol :: rest).drop (beforeAnyMarker (front ++ symbol :: rest) callMarkers + 1) := by
    rw [drop_append_of_le_length (by omega)]
    exact mem_append_right _ mem_cons_self
  have inside := cut_tail opens later
  rcases leads with bracket | angle
  · rw [bracket] at inside
    exact bracketed inside
  · rw [angle] at inside
    exact angled inside

theorem single_opener (front : Text) (symbol : Char) (leads : symbol = '[' ∨ symbol = '<')
    (unmarked : Unmarked (front ++ [symbol])) :
    contentPrefixLen (front ++ [symbol]) ≤
      retractOverFenceOpener (front ++ [symbol]) (retractOverTagOpener (front ++ [symbol]) front.length) := by
  have dropped : (front ++ [symbol]).drop front.length = [symbol] := drop_left
  have length : (front ++ [symbol]).length = front.length + 1 := length_append
  have upper : beforeAnyMarker (front ++ [symbol]) callMarkers ≤ front.length := by
    rcases leads with bracket | angle
    · subst bracket
      apply before_le_cut _ "[TOOL_CALLS]".toList front.length (by decide) (unmarked _ (by decide)) (by omega)
      · rw [dropped]
        decide
      · rw [length, Nat.add_sub_cancel_left]
        decide
    subst angle
    apply before_le_cut _ "<tool_call>".toList front.length (by decide) (unmarked _ (by decide)) (by omega)
    · rw [dropped]
      decide
    · rw [length, Nat.add_sub_cancel_left]
      decide
  have cut : beforeAnyMarker (front ++ [symbol]) callMarkers < (front ++ [symbol]).length := by omega
  have same := le_antisymm upper (cut_at_lead front [] symbol leads unmarked cut)
  rw [content_prefix_cut _ cut, same]
  apply retract_le_openers
  rw [dropped]
  intro brace
  rcases leads with bracket | angle
  · rw [bracket] at brace
    cases brace
  · rw [angle] at brace
    cases brace

theorem in_tag (named : name = [] ∨ isTagName name = true) (unmarked : Unmarked (front ++ '<' :: name))
    (kept : ¬(front.length < beforeAnyMarker (front ++ '<' :: name) callMarkers ∧ beforeAnyMarker (front ++ '<' :: name) callMarkers < (front ++ '<' :: name).length)) :
    contentPrefixLen (front ++ '<' :: name) ≤ retractOverFenceOpener (front ++ '<' :: name) front.length := by
  have tag := unfinished_tag_iff.mpr ⟨front, name, rfl, named, rfl⟩
  by_cases cut : beforeAnyMarker (front ++ '<' :: name) callMarkers < (front ++ '<' :: name).length
  · have lower := cut_at_lead front name '<' (.inr rfl) unmarked cut
    have same : beforeAnyMarker (front ++ '<' :: name) callMarkers = front.length := by omega
    rw [content_prefix_cut _ cut, same]
    apply le_trans (retract_le_openers _ _ _) (tag_then_fence _)
    rw [drop_left, head?_cons]
    decide
  · rw [content_prefix_whole _ cut, unfinishedOpenerStart, tag]
    exact fence_before_le_opener

theorem unfinished_tag_none (ends : text.getLast? = some last)
    (other : last = '>' ∨ last = '\x60' ∨ isWhitespace last = true) : unfinishedTag text = none := by
  cases tag : unfinishedTag text with
  | none => rfl
  | some place =>
    obtain ⟨front, name, split, named, -⟩ := unfinished_tag_iff.mp tag
    have final : last = '<' ∨ last ∈ name := by
      have inside : last ∈ '<' :: name := by
        rw [split, getLast?_append_of_ne_nil _ (cons_ne_nil _ _)] at ends
        exact mem_of_getLast? ends
      exact mem_cons.mp inside
    exfalso
    rcases final with angle | inside
    · rw [angle] at other
      revert other
      decide
    rcases named with nothing | tagged
    · rw [nothing] at inside
      exact not_mem_nil inside
    have letter := all_eq_true.mp (Bool.and_eq_true_iff.mp tagged).2 last inside
    rcases other with angle | tick | blank
    · rw [angle] at letter
      revert letter
      decide
    · rw [tick] at letter
      revert letter
      decide
    simp only [Bool.or_eq_true, beq_iff_eq] at letter
    rcases letter with ((plain | dash) | dash) | dash
    · rw [alphanumeric_not_blank plain] at blank
      cases blank
    all_goals
      rw [dash] at blank
      revert blank
      decide

theorem last_or_blank (ends : text.getLast? = some last) :
    ∃ final, (text ++ blanks).getLast? = some final ∧ (final = last ∨ final ∈ blanks) := by
  by_cases nothing : blanks = []
  · refine ⟨last, ?_, .inl rfl⟩
    rw [nothing, append_nil]
    exact ends
  · refine ⟨blanks.getLast nothing, ?_, .inr (getLast_mem nothing)⟩
    rw [getLast?_append_of_ne_nil _ nothing, getLast?_eq_some_getLast nothing]

theorem unfinished_start_eq (untagged : unfinishedTag text = none) : unfinishedOpenerStart text =
      if text.length - (trimEnd isTick text).length = 1 ∨ text.length - (trimEnd isTick text).length = 2 then
        some (text.length - (text.length - (trimEnd isTick text).length))
      else
        match trailingOpenTag (trimEnd isWhitespace text) with
        | some place => some (fenceBefore text place)
        | none => trailingFenceOpener (trimEnd isWhitespace text) := by
  rw [unfinishedOpenerStart, untagged]
  rfl

theorem behind_tag (named : isTagName name = true) (blank : ∀ symbol ∈ blanks, isWhitespace symbol = true)
    (unmarked : Unmarked (front ++ ('<' :: (name ++ ['>'])) ++ blanks)) :
    contentPrefixLen (front ++ ('<' :: (name ++ ['>'])) ++ blanks) ≤
      retractOverFenceOpener (front ++ ('<' :: (name ++ ['>'])) ++ blanks) front.length := by
  obtain ⟨final, ends, kind⟩ := last_or_blank _ blanks '>' tag_last
  have other : final = '>' ∨ final = '\x60' ∨ isWhitespace final = true := by
    rcases kind with angle | inside
    · exact .inl angle
    · exact .inr (.inr (blank final inside))
  have whole : ¬beforeAnyMarker (front ++ ('<' :: (name ++ ['>'])) ++ blanks) callMarkers <
      (front ++ ('<' :: (name ++ ['>'])) ++ blanks).length := by
    intro cut
    obtain ⟨noAngle, -, black⟩ := cut_last _ unmarked cut final ends
    rcases kind with angle | inside
    · exact noAngle angle
    · rw [blank final inside] at black
      cases black
  have unticked : trimEnd isTick (front ++ ('<' :: (name ++ ['>'])) ++ blanks) = front ++ ('<' :: (name ++ ['>'])) ++ blanks := by
    apply trim_end_stays isTick _ final ends
    rcases kind with angle | inside
    · rw [angle]
      rfl
    · by_contra tick
      have same : final = '\x60' := beq_iff_eq.mp (Bool.not_eq_false _ ▸ tick)
      have white := blank final inside
      rw [same] at white
      cases white
  have trimmed : trimEnd isWhitespace (front ++ ('<' :: (name ++ ['>'])) ++ blanks) = front ++ ('<' :: (name ++ ['>'])) := by
    rw [trim_end_all isWhitespace _ blanks blank]
    exact trim_end_stays isWhitespace _ '>' tag_last rfl
  have tag := open_tag_iff.mpr ⟨front, name, rfl, named, rfl⟩
  rw [content_prefix_whole _ whole, unfinished_start_eq _ (unfinished_tag_none _ final ends other), unticked, Nat.sub_self,
    if_neg (by omega), trimmed, tag]
  exact fence_before_le_opener

end SwarmLlm.Api
