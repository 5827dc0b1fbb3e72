import SwarmLlm.Api.OpenerCuts

namespace SwarmLlm.Api

open Lib Inference List

theorem in_ticks {front ticks : Text} (ticked : ∀ symbol ∈ ticks, isTick symbol = true) (some_tick : ticks ≠ [])
    (few : ticks.length ≤ 2) (unmarked : Unmarked (front ++ ticks)) : contentPrefixLen (front ++ ticks) ≤ front.length := by
  have ends : (front ++ ticks).getLast? = some '\x60' := by
    have last := ticked (ticks.getLast some_tick) (getLast_mem some_tick)
    rw [getLast?_append_of_ne_nil _ some_tick, getLast?_eq_some_getLast some_tick, beq_iff_eq.mp last]
  have whole : ¬beforeAnyMarker (front ++ ticks) callMarkers < (front ++ ticks).length := by
    intro cut
    exact (cut_last _ unmarked cut _ ends).2.1 rfl
  have trimmed := trim_end_all isTick front ticks ticked
  have short := trim_end_length isTick front
  have length : (front ++ ticks).length = front.length + ticks.length := length_append
  rw [content_prefix_whole _ whole, unfinished_start_eq _ (unfinished_tag_none _ _ ends (.inr (.inl rfl))), trimmed]
  by_cases one : (front ++ ticks).length - (trimEnd isTick front).length = 1 ∨
      (front ++ ticks).length - (trimEnd isTick front).length = 2
  · rw [if_pos one, Option.getD_some]
    omega
  obtain ⟨tail, split, more⟩ := trim_end_tail isTick front
  have total : (front ++ ticks).length = (trimEnd isTick front).length + (tail ++ ticks).length := by
    nth_rewrite 1 [split]
    rw [append_assoc, length_append]
  have positive := length_pos_of_ne_nil some_tick
  have all : ∀ symbol ∈ tail ++ ticks, symbol = '\x60' := by
    intro symbol inside
    rcases mem_append.mp inside with early | late
    · exact beq_iff_eq.mp (more symbol early)
    · exact beq_iff_eq.mp (ticked symbol late)
  have run : tail ++ ticks = List.replicate ((tail ++ ticks).length - 3) '\x60' ++ fence := by
    have same := eq_replicate_of_mem all
    have counted : (tail ++ ticks).length = ((tail ++ ticks).length - 3) + 3 := by omega
    nth_rewrite 1 [same]
    nth_rewrite 1 [counted]
    rw [replicate_add]
    rfl
  have fenced : trailingFenceOpener (front ++ ticks) =
      some (trimEnd isTick front ++ List.replicate ((tail ++ ticks).length - 3) '\x60').length := by
    apply (fence_opener_iff _ _).mpr
    refine ⟨trimEnd isTick front ++ List.replicate ((tail ++ ticks).length - 3) '\x60', [], ?_, rfl, rfl⟩
    rw [append_nil, append_assoc, ← run, ← append_assoc, ← split]
  rw [if_neg one, trim_end_stays isWhitespace _ _ ends rfl, open_tag_last _ _ ends (by decide), fenced, Option.getD_some,
    length_append, length_replicate]
  rw [length_append] at total
  omega

theorem behind_ticks_untagged {front lang breaks : Text} (plain : lang.all isAsciiAlphanumeric = true)
    (lines : ∀ symbol ∈ breaks, isLineBreak symbol = true) : unfinishedTag (front ++ (fence ++ lang) ++ breaks) = none := by
  cases tag : unfinishedTag (front ++ (fence ++ lang) ++ breaks) with
  | none => rfl
  | some place =>
    exfalso
    obtain ⟨other, name, split, named, -⟩ := unfinished_tag_iff.mp tag
    rw [append_assoc] at split
    rcases append_eq_append_iff.mp split with ⟨between, -, same⟩ | ⟨between, -, same⟩
    · have inside : '<' ∈ fence ++ lang ++ breaks := by
        rw [same]
        exact mem_append_right _ mem_cons_self
      rcases mem_append.mp inside with early | late
      · rcases mem_append.mp early with ticks | letters
        · revert ticks
          decide
        · have letter := all_eq_true.mp plain _ letters
          revert letter
          decide
      · have broken := lines _ late
        revert broken
        decide
    have inside : '\x60' ∈ name := by
      have present : '\x60' ∈ '<' :: name := by
        rw [same]
        apply mem_append_right
        rw [append_assoc]
        exact mem_append_left _ mem_cons_self
      rcases mem_cons.mp present with angle | later
      · cases angle
      · exact later
    rcases named with nothing | tagged
    · rw [nothing] at inside
      exact not_mem_nil inside
    · have letter := all_eq_true.mp (Bool.and_eq_true_iff.mp tagged).2 _ inside
      revert letter
      decide

theorem behind_ticks_whole {front lang breaks : Text} (plain : lang.all isAsciiAlphanumeric = true)
    (lines : ∀ symbol ∈ breaks, isLineBreak symbol = true)
    (whole : ¬beforeAnyMarker (front ++ (fence ++ lang) ++ breaks) callMarkers < (front ++ (fence ++ lang) ++ breaks).length) :
    contentPrefixLen (front ++ (fence ++ lang) ++ breaks) ≤ front.length := by
  obtain ⟨letter, lettered, isLetter⟩ := fence_lang_last plain
  have blank : ∀ symbol ∈ breaks, isWhitespace symbol = true := fun symbol inside => line_break_blank (lines symbol inside)
  have trimmed : trimEnd isWhitespace (front ++ (fence ++ lang) ++ breaks) = front ++ (fence ++ lang) := by
    rw [trim_end_all isWhitespace _ breaks blank]
    exact trim_end_stays isWhitespace _ letter lettered (ends_fence_not_blank isLetter)
  have fenced := (fence_opener_iff (front ++ (fence ++ lang)) front.length).mpr ⟨front, lang, rfl, plain, rfl⟩
  have untagged : trailingOpenTag (front ++ (fence ++ lang)) = none := by
    apply open_tag_last _ letter lettered
    intro angle
    rw [angle] at isLetter
    cases isLetter
  have ticks : ¬((front ++ (fence ++ lang) ++ breaks).length - (trimEnd isTick (front ++ (fence ++ lang) ++ breaks)).length = 1 ∨
      (front ++ (fence ++ lang) ++ breaks).length - (trimEnd isTick (front ++ (fence ++ lang) ++ breaks)).length = 2) := by
    by_cases bare : lang ++ breaks = []
    · obtain ⟨noLang, noBreaks⟩ := append_eq_nil_iff.mp bare
      rw [noLang, noBreaks, append_nil, append_nil, trim_end_all isTick front fence fence_ticks, length_append]
      have short := trim_end_length isTick front
      have three : fence.length = 3 := rfl
      omega
    have stays : trimEnd isTick (front ++ (fence ++ lang) ++ breaks) = front ++ (fence ++ lang) ++ breaks := by
      apply rdropWhile_eq_self_iff.mpr
      intro _ tick
      have final : (front ++ (fence ++ lang) ++ breaks).getLast? = (lang ++ breaks).getLast? := by
        rw [← append_assoc, append_assoc, getLast?_append_of_ne_nil _ bare]
      rw [getLast?_eq_some_getLast ‹_›, getLast?_eq_some_getLast bare] at final
      rw [Option.some.inj final] at tick
      have present := getLast_mem bare
      rw [beq_iff_eq.mp tick] at present
      rcases mem_append.mp present with letters | later
      · have letter := all_eq_true.mp plain _ letters
        revert letter
        decide
      · have broken := lines _ later
        revert broken
        decide
    rw [stays]
    omega
  rw [content_prefix_whole _ whole, unfinished_start_eq _ (behind_ticks_untagged plain lines), if_neg ticks,
    trimmed, untagged, fenced]
  exact Nat.le_refl _

theorem retract_in_lang {front lang : Text} (plain : lang.all isAsciiAlphanumeric = true) (place : Nat)
    (past : front.length + fence.length ≤ place) : retract (front ++ (fence ++ lang)) place ≤ front.length := by
  have plainly : (lang.take (place - front.length - fence.length)).all isAsciiAlphanumeric = true := by
    apply all_eq_true.mpr
    intro symbol inside
    exact all_eq_true.mp plain symbol (mem_of_mem_take inside)
  have head : (front ++ (fence ++ lang)).take place = front ++ (fence ++ lang.take (place - front.length - fence.length)) := by
    have ticks : fence.take (place - front.length) = fence := take_of_length_le (by omega)
    rw [take_append, take_of_length_le (by omega), take_append, ticks]
  obtain ⟨last, ends, letter⟩ := fence_lang_last plainly
  rw [← head] at ends
  have apart : ∀ symbol : Char, endsFence symbol = false → last ≠ symbol := by
    intro symbol unlettered same
    rw [same, unlettered] at letter
    cases letter
  have trimmed := trim_end_stays isWhitespace _ last ends (ends_fence_not_blank letter)
  have lined := trim_end_stays isLineBreak _ last ends (by
    by_contra broken
    have blank := line_break_blank (Bool.not_eq_false _ ▸ broken)
    rw [ends_fence_not_blank letter] at blank
    cases blank)
  have trimmedEnds : (trimEnd isWhitespace ((front ++ (fence ++ lang)).take place)).getLast? = some last := by
    rw [trimmed]
    exact ends
  have array : retractOverArrayOpener (front ++ (fence ++ lang)) place = place := by
    apply if_neg
    rw [trimmedEnds]
    exact fun same => apart '[' rfl (Option.some.inj same)
  have angle : retractOverAngleOpener (front ++ (fence ++ lang)) place = place := by
    apply if_neg
    rw [ends]
    exact fun both => apart '<' rfl (Option.some.inj both.1)
  have fenced := (fence_opener_iff ((front ++ (fence ++ lang)).take place) front.length).mpr ⟨front, _, head, plainly, rfl⟩
  rw [retract, array, angle, tag_opener_id _ last trimmedEnds (apart '>' rfl), fence_opener_lines, lined, fenced]
  exact Nat.le_refl _

theorem behind_ticks (front : Text) {lang : Text} (breaks : Text) (plain : lang.all isAsciiAlphanumeric = true)
    (lines : ∀ symbol ∈ breaks, isLineBreak symbol = true) (unmarked : Unmarked (front ++ (fence ++ lang) ++ breaks)) :
    contentPrefixLen (front ++ (fence ++ lang) ++ breaks) ≤ front.length := by
  by_cases cut : beforeAnyMarker (front ++ (fence ++ lang) ++ breaks) callMarkers < (front ++ (fence ++ lang) ++ breaks).length
  · obtain ⟨marker, listed, opens, -⟩ := unmarked_cut unmarked cut
    obtain ⟨-, -, -, unticked, -⟩ := marker_symbols marker listed
    have nothing : breaks = [] := by
      by_contra broken
      have ends : (front ++ (fence ++ lang) ++ breaks).getLast? = some (breaks.getLast broken) := by
        rw [getLast?_append_of_ne_nil _ broken, getLast?_eq_some_getLast broken]
      have black := (cut_last _ unmarked cut _ ends).2.2
      rw [line_break_blank (lines _ (getLast_mem broken))] at black
      cases black
    subst nothing
    rw [content_prefix_cut _ cut]
    rw [append_nil] at opens ⊢
    apply retract_in_lang plain
    generalize beforeAnyMarker (front ++ (fence ++ lang)) callMarkers = place at opens ⊢
    by_contra early
    apply unticked
    apply opens.subset
    have three : fence.length = 3 := rfl
    have split : front ++ (fence ++ lang) = (front ++ ['\x60', '\x60']) ++ ('\x60' :: lang) := by
      rw [append_assoc]
      rfl
    rw [split, drop_append_of_le_length]
    · exact mem_append_right _ mem_cons_self
    · have length : (front ++ ['\x60', '\x60']).length = front.length + 2 := length_append
      omega
  · exact behind_ticks_whole plain lines cut

end SwarmLlm.Api
