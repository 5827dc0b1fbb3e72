import SwarmLlm.Api.ToolMarkers

namespace SwarmLlm.Api

open Lib Inference List

variable {symbol : Char} {text front back head : Text} {place : Nat}

theorem drop_past : (front ++ symbol :: back).drop (front.length + 1) = back := by
  rw [← drop_drop, drop_left]
  rfl

theorem last_place_some (last : lastPlace symbol text = some place) :
    ∃ front back, text = front ++ symbol :: back ∧ place = front.length := by
  obtain ⟨behind, found, same⟩ := Option.map_eq_some_iff.mp last
  obtain ⟨front, back, rfl, length⟩ := search_back_some _ _ found
  refine ⟨front, back, rfl, ?_⟩
  rw [← same, length_append, length_append, length_reverse, length_singleton]
  omega

theorem last_place_eq (last : symbol ∉ back) : lastPlace symbol (front ++ symbol :: back) = some front.length := by
  have turned : (front ++ symbol :: back).reverse = back.reverse ++ ([symbol] ++ front.reverse) := by
    rw [reverse_append, reverse_cons, append_assoc]
  rw [lastPlace, turned, search_past (mt mem_reverse.mp last), Option.map_some, length_append, length_cons, length_reverse]
  congr 1
  omega

theorem tag_name_no_angle {name : Text} (named : isTagName name = true) : '<' ∉ name := by
  intro present
  have each := (Bool.and_eq_true_iff.mp named).2
  exact absurd (all_eq_true.mp each '<' present) (by decide)

theorem open_tag_iff : trailingOpenTag head = some place ↔
      ∃ front name, head = front ++ ('<' :: (name ++ ['>'])) ∧ isTagName name = true ∧ place = front.length := by
  unfold trailingOpenTag
  constructor
  · intro tag
    split at tag
    · rename_i ended
      have whole := dropLast_append_getLast? '>' ended
      split at tag
      · cases tag
      rename_i place last
      obtain ⟨front, name, split, at_front⟩ := last_place_some last
      have named : head.dropLast.drop (place + 1) = name := by rw [split, at_front, drop_past]
      split at tag
      · rename_i valid
        cases tag
        rw [named] at valid
        refine ⟨front, name, ?_, valid, at_front⟩
        rw [← whole, split, append_assoc]
        rfl
      · cases tag
    · cases tag
  rintro ⟨front, name, split, valid, at_front⟩
  subst split at_front
  have whole : front ++ ('<' :: (name ++ ['>'])) = (front ++ '<' :: name) ++ ['>'] := by
    rw [append_assoc]
    rfl
  rw [whole, if_pos getLast?_concat, dropLast_concat, last_place_eq (tag_name_no_angle valid)]
  dsimp only
  rw [drop_past, if_pos valid]

theorem unfinished_tag_iff : unfinishedTag text = some place ↔
      ∃ front name, text = front ++ '<' :: name ∧ (name = [] ∨ isTagName name = true) ∧ place = front.length := by
  unfold unfinishedTag
  constructor
  · intro tag
    split at tag
    · cases tag
    rename_i other last
    obtain ⟨front, name, split, at_front⟩ := last_place_some last
    have named : text.drop (other + 1) = name := by rw [split, at_front, drop_past]
    dsimp only at tag
    rw [named] at tag
    split at tag
    · rename_i valid
      cases tag
      refine ⟨front, name, split, ?_, at_front⟩
      rcases Bool.or_eq_true_iff.mp valid with nothing | tagged
      · exact .inl (isEmpty_iff.mp nothing)
      · exact .inr tagged
    · cases tag
  rintro ⟨front, name, split, valid, at_front⟩
  subst split at_front
  have clear : '<' ∉ name := by
    rcases valid with nothing | tagged
    · rw [nothing]
      exact not_mem_nil
    · exact tag_name_no_angle tagged
  rw [last_place_eq clear]
  dsimp only
  rw [drop_past, if_pos]
  rcases valid with nothing | tagged
  · rw [nothing]
    rfl
  · rw [tagged, Bool.or_true]

theorem fence_opener_iff (head : Text) (place : Nat) : trailingFenceOpener head = some place ↔
      ∃ front lang, head = front ++ (fence ++ lang) ∧ lang.all isAsciiAlphanumeric = true ∧ place = front.length := by
  unfold trailingFenceOpener lastFence
  constructor
  · intro opener
    split at opener
    · cases opener
    rename_i other last
    obtain ⟨behind, found, same⟩ := Option.map_eq_some_iff.mp last
    obtain ⟨front, lang, split, length⟩ := search_back_some _ _ found
    have at_front : other = front.length := by
      rw [← same, split, length_append, length_append, length_reverse]
      omega
    have named : head.drop (other + fence.length) = lang := by
      rw [split, at_front, ← drop_drop, drop_left]
      exact drop_left
    rw [named] at opener
    split at opener
    · rename_i plain
      cases opener
      exact ⟨front, lang, split, plain, at_front⟩
    · cases opener
  rintro ⟨front, lang, split, plain, at_front⟩
  subst split at_front
  have turned : (front ++ (fence ++ lang)).reverse = lang.reverse ++ (fence ++ front.reverse) := by
    rw [reverse_append, reverse_append, append_assoc]
    rfl
  have clear : '\x60' ∉ lang.reverse := fun present =>
    absurd (all_eq_true.mp plain _ (mem_reverse.mp present)) (by decide)
  have found : search fence (front ++ (fence ++ lang)).reverse = some lang.length := by
    rw [turned, ← length_reverse]
    exact search_past clear
  have lang_left : (front ++ (fence ++ lang)).drop (front.length + fence.length) = lang := by
    rw [← drop_drop, drop_left, drop_left]
  have length : (front ++ (fence ++ lang)).length - fence.length - lang.length = front.length := by
    rw [length_append, length_append]
    omega
  rw [found, Option.map_some]
  dsimp only
  rw [length, lang_left, if_pos plain]

end SwarmLlm.Api
