import SwarmLlm.Api.FenceCuts

namespace SwarmLlm.Api

open Lib Inference List

-- The cuts after which an opener of a call is let go: blanks behind its bracket, and the
-- name of its tag when the end of the name may begin a marker.
def LosesOpener (text : Text) : Prop :=
  (trimEnd isWhitespace text ≠ text ∧ (trimEnd isWhitespace text).getLast? = some '[') ∨
    ((unfinishedTag text).any fun place =>
      decide (place < beforeAnyMarker text callMarkers ∧ beforeAnyMarker text callMarkers < text.length)) = true

instance (text : Text) : Decidable (LosesOpener text) := inferInstanceAs (Decidable (_ ∨ _))

theorem split_longer {front tail text : Text} (begins : text <+: front ++ tail) (long : front.length ≤ text.length) :
    ∃ part, text = front ++ part ∧ part <+: tail := by
  obtain ⟨part, same⟩ := prefix_of_prefix_length_le (prefix_append front tail) begins long
  subst same
  exact ⟨part, rfl, (prefix_append_right_inj front).mp begins⟩

theorem unmarked_before {text more : Text} (within : text.length ≤ beforeAnyMarker (text ++ more) callMarkers) : Unmarked text := by
  intro marker listed
  cases found : search marker text with
  | none => rfl
  | some place =>
    have fits := found_fits (search_some _ _ found).1
    have long : 0 < marker.length := (by decide : ∀ marker ∈ callMarkers, 0 < marker.length) marker listed
    have least := ((le_before_any (text ++ more) callMarkers).mp (Nat.le_refl _)).2 marker listed
    rw [beforeOne, search_append text more place found] at least
    dsimp only at least
    omega

section BeforeMarker

variable (text more : Text) {text}

theorem openers_same (place : Nat) (within : place ≤ text.length) :
    retractOverFenceOpener text (retractOverTagOpener text place) =
      retractOverFenceOpener (text ++ more) (retractOverTagOpener (text ++ more) place) := by
  have tag : retractOverTagOpener text place = retractOverTagOpener (text ++ more) place := by
    apply tag_opener_same
    rw [take_append_of_le_length within]
  have bound := tag_opener_le (text ++ more) place
  rw [tag]
  apply fence_opener_same
  rw [take_append_of_le_length (by omega)]

variable {more} {safe : Nat}

section

variable (unmarked : Unmarked text)

include unmarked

theorem array_kept (kept : ¬LosesOpener text) (within : text.length ≤ safe)
    (past : retractOverArrayOpener (text ++ more) safe < text.length) : contentPrefixLen text ≤ retract (text ++ more) safe := by
  unfold retract
  dsimp only
  unfold retractOverArrayOpener at past ⊢
  dsimp only at past ⊢
  by_cases bracketed : (trimEnd isWhitespace ((text ++ more).take safe)).getLast? = some '['
  · rw [if_pos bracketed] at past ⊢
    obtain ⟨tail, split, blanks⟩ := trim_end_tail isWhitespace ((text ++ more).take safe)
    have begins : text <+: (text ++ more).take safe := prefix_take_iff.mpr ⟨prefix_append _ _, within⟩
    rw [split] at begins
    have whole : (text ++ more).take safe <+: text ++ more := take_prefix _ _
    rw [split] at whole
    generalize trimEnd isWhitespace ((text ++ more).take safe) = head at *
    obtain ⟨part, same, opened⟩ := split_longer begins (by omega)
    have front : head.dropLast ++ ['['] = head := dropLast_append_getLast? '[' bracketed
    have length : head.length - 1 = head.dropLast.length := length_dropLast.symm
    have nothing : part = [] := by
      by_contra some_blank
      apply kept
      have trimmed : trimEnd isWhitespace text = head := by
        rw [same, trim_end_all isWhitespace head part (fun symbol inside => blanks symbol (opened.subset inside))]
        exact trim_end_stays isWhitespace head '[' bracketed rfl
      refine .inl ⟨?_, ?_⟩
      · rw [trimmed]
        intro equal
        apply some_blank
        rw [← equal] at same
        exact append_right_eq_self.mp same.symm
      · rw [trimmed]
        exact bracketed
    rw [nothing, append_nil] at same
    have angle : retractOverAngleOpener (text ++ more) (head.length - 1) = head.length - 1 := by
      apply if_neg
      rintro ⟨-, brace⟩
      rw [same, length] at brace
      nth_rewrite 2 [← front] at brace
      rw [append_assoc, drop_left] at brace
      cases brace
    have bound := single_opener head.dropLast '[' (.inl rfl) (by rw [front, ← same]; exact unmarked)
    rw [front, ← length, ← same, openers_same more _ (Nat.sub_le _ _)] at bound
    rw [angle, ← same]
    exact bound
  · rw [if_neg bracketed] at past
    omega

theorem angle_kept (within : text.length ≤ safe)
    (past : retractOverAngleOpener (text ++ more) safe < text.length) :
    contentPrefixLen text ≤ retractOverFenceOpener (text ++ more) (retractOverTagOpener (text ++ more)
      (retractOverAngleOpener (text ++ more) safe)) := by
  unfold retractOverAngleOpener at past ⊢
  by_cases angled : ((text ++ more).take safe).getLast? = some '<' ∧ ((text ++ more).drop safe).head? = some '\x7b'
  · rw [if_pos angled] at past ⊢
    have length : text.length = safe := by omega
    have same : (text ++ more).take safe = text := by rw [← length, take_left]
    rw [same] at angled
    have front : text.dropLast ++ ['<'] = text := dropLast_append_getLast? '<' angled.1
    have bound := single_opener text.dropLast '<' (.inr rfl) (by rw [front]; exact unmarked)
    rw [front, openers_same more _ (by rw [length_dropLast]; omega), length_dropLast, length] at bound
    exact bound
  · rw [if_neg angled] at past
    omega

theorem tag_kept (kept : ¬LosesOpener text) (within : text.length ≤ safe)
    (past : retractOverTagOpener (text ++ more) safe < text.length) :
    contentPrefixLen text ≤ retractOverFenceOpener (text ++ more) (retractOverTagOpener (text ++ more) safe) := by
  unfold retractOverTagOpener at past ⊢
  cases tag : trailingOpenTag (trimEnd isWhitespace ((text ++ more).take safe)) with
  | none =>
    rw [tag, Option.getD_none] at past
    omega
  | some place =>
    rw [tag, Option.getD_some] at past
    rw [Option.getD_some]
    obtain ⟨front, name, head, named, start⟩ := open_tag_iff.mp tag
    obtain ⟨tail, split, blanks⟩ := trim_end_tail isWhitespace ((text ++ more).take safe)
    have begins : text <+: (text ++ more).take safe := prefix_take_iff.mpr ⟨prefix_append _ _, within⟩
    rw [split, head, append_assoc, cons_append] at begins
    obtain ⟨part, same, opened⟩ := split_longer begins (by omega)
    have fenced : retractOverFenceOpener (text ++ more) place = retractOverFenceOpener text front.length := by
      rw [start]
      apply fence_opener_same
      rw [take_append_of_le_length (by omega)]
    rw [fenced]
    cases part with
    | nil =>
      rw [append_nil] at same
      rw [same] at past
      omega
    | cons symbol rest =>
      obtain ⟨angle, inner⟩ := cons_prefix_cons.mp opened
      subst angle
      rw [append_assoc] at inner
      by_cases short : rest.length ≤ name.length
      · have naming : rest <+: name := prefix_of_prefix_length_le inner (prefix_append _ _) short
        have valid : rest = [] ∨ isTagName rest = true := by
          by_cases bare : rest = []
          · exact .inl bare
          refine .inr (Bool.and_eq_true_iff.mpr ⟨?_, ?_⟩)
          · rw [Bool.not_eq_true', isEmpty_eq_false_iff]
            exact bare
          · apply all_eq_true.mpr
            intro letter inside
            exact all_eq_true.mp (Bool.and_eq_true_iff.mp named).2 letter (naming.subset inside)
        subst same
        apply in_tag front rest valid unmarked
        rintro ⟨early, late⟩
        apply kept
        right
        rw [unfinished_tag_iff.mpr ⟨front, rest, rfl, valid, rfl⟩, Option.any_some]
        exact decide_eq_true ⟨early, late⟩
      obtain ⟨behind, split_rest, later⟩ := split_longer inner (by omega)
      cases behind with
      | nil =>
        rw [append_nil] at split_rest
        rw [split_rest] at short
        omega
      | cons close spaces =>
        obtain ⟨closed, spaced⟩ := cons_prefix_cons.mp later
        subst closed
        have shape : text = front ++ ('<' :: (name ++ ['>'])) ++ spaces := by
          rw [same, split_rest, append_assoc, cons_append, append_assoc]
          rfl
        rw [shape] at unmarked ⊢
        exact behind_tag front name spaces named (fun symbol inside => blanks symbol (spaced.subset inside)) unmarked

theorem fence_kept (within : text.length ≤ safe)
    (past : retractOverFenceOpener (text ++ more) safe < text.length) :
    contentPrefixLen text ≤ retractOverFenceOpener (text ++ more) safe := by
  rw [fence_opener_lines] at past ⊢
  cases fenced : trailingFenceOpener (trimEnd isLineBreak ((text ++ more).take safe)) with
  | none =>
    rw [fenced, Option.getD_none] at past
    omega
  | some place =>
    rw [fenced, Option.getD_some] at past
    rw [Option.getD_some]
    obtain ⟨front, lang, head, plain, start⟩ := (fence_opener_iff _ place).mp fenced
    obtain ⟨tail, split, lines⟩ := trim_end_tail isLineBreak ((text ++ more).take safe)
    have begins : text <+: (text ++ more).take safe := prefix_take_iff.mpr ⟨prefix_append _ _, within⟩
    rw [split, head, append_assoc] at begins
    obtain ⟨part, same, opened⟩ := split_longer begins (by omega)
    have some_tick : part ≠ [] := by
      intro nothing
      rw [nothing, append_nil] at same
      rw [same] at past
      omega
    rw [append_assoc] at opened
    rw [start]
    by_cases short : part.length ≤ 2
    · have ticks : part <+: fence := by
        apply prefix_of_prefix_length_le opened (prefix_append _ _)
        have three : fence.length = 3 := rfl
        omega
      rw [same] at unmarked ⊢
      exact in_ticks (fun symbol inside => fence_ticks symbol (ticks.subset inside)) some_tick short unmarked
    obtain ⟨letters, shape, later⟩ := split_longer opened (by
      have three : fence.length = 3 := rfl
      omega)
    by_cases naming : letters.length ≤ lang.length
    · have inside := prefix_of_prefix_length_le later (prefix_append _ _) naming
      have spelled : text = front ++ (fence ++ letters) ++ [] := by rw [same, shape, append_nil]
      rw [spelled] at unmarked ⊢
      apply behind_ticks front [] _ nofun unmarked
      apply all_eq_true.mpr
      intro symbol present
      exact all_eq_true.mp plain symbol (inside.subset present)
    · obtain ⟨breaks, spelled, broken⟩ := split_longer later (by omega)
      have whole : text = front ++ (fence ++ lang) ++ breaks := by
        rw [same, shape, spelled, ← append_assoc, ← append_assoc, ← append_assoc]
      rw [whole] at unmarked ⊢
      exact behind_ticks front breaks plain (fun symbol present => lines symbol (broken.subset present)) unmarked

end

theorem kept_before_marker (within : text.length ≤ beforeAnyMarker (text ++ more) callMarkers) (kept : ¬LosesOpener text)
    (past : retract (text ++ more) (beforeAnyMarker (text ++ more) callMarkers) < text.length) :
    contentPrefixLen text ≤ retract (text ++ more) (beforeAnyMarker (text ++ more) callMarkers) := by
  have unmarked := unmarked_before within
  generalize beforeAnyMarker (text ++ more) callMarkers = safe at *
  -- The cut lies in the last of the openers whose place is before it.
  by_cases array : retractOverArrayOpener (text ++ more) safe < text.length
  · exact array_kept unmarked kept within array
  unfold retract at past ⊢
  dsimp only at past ⊢
  generalize retractOverArrayOpener (text ++ more) safe = bracket at *
  by_cases angle : retractOverAngleOpener (text ++ more) bracket < text.length
  · exact angle_kept unmarked (by omega) angle
  · generalize retractOverAngleOpener (text ++ more) bracket = angled at *
    by_cases tag : retractOverTagOpener (text ++ more) angled < text.length
    · exact tag_kept unmarked kept (by omega) tag
    · exact fence_kept unmarked (by omega) past

end BeforeMarker

end SwarmLlm.Api
