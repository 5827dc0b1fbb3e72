import SwarmLlm.Api.OpenerShapes

namespace SwarmLlm.Api

open Lib Inference List

variable {place : Nat} (text : Text) (markers : List Text) (safe : Nat) (marker : Text)

theorem before_marker_le : beforeMarker text safe marker ≤ safe := by
  unfold beforeMarker
  split <;> exact min_le_left _ _

theorem before_markers_le : markers.foldl (beforeMarker text) safe ≤ safe := by
  induction markers generalizing safe with
  | nil => exact le_refl _
  | cons marker rest ih => exact le_trans (ih (beforeMarker text safe marker)) (before_marker_le text safe marker)

theorem before_any_le : beforeAnyMarker text markers ≤ text.length :=
  before_markers_le text markers text.length

def beforeOne (text marker : Text) : Nat :=
  match search marker text with
  | some place => place
  | none => text.length - partialMarkerOverlap text marker

theorem before_marker_eq : beforeMarker text safe marker = min safe (beforeOne text marker) := by
  unfold beforeMarker beforeOne
  cases search marker text <;> rfl

theorem le_before_markers {text : Text} {markers : List Text} {safe : Nat} :
    place ≤ markers.foldl (beforeMarker text) safe ↔ place ≤ safe ∧ ∀ marker ∈ markers, place ≤ beforeOne text marker := by
  induction markers generalizing safe with
  | nil => simp only [foldl_nil, not_mem_nil, false_imp_iff, implies_true, and_true]
  | cons marker rest ih =>
    rw [foldl_cons, ih, before_marker_eq, Nat.le_min, forall_mem_cons, and_assoc]

theorem le_before_any :
    place ≤ beforeAnyMarker text markers ↔ place ≤ text.length ∧ ∀ marker ∈ markers, place ≤ beforeOne text marker :=
  le_before_markers

theorem before_one_append {more marker : Text} : beforeOne text marker ≤ beforeOne (text ++ more) marker := by
  unfold beforeOne
  cases found : search marker text with
  | some place => rw [search_append text more place found]
  | none =>
    cases later : search marker (text ++ more) with
    | some place =>
      have missing : ∀ pattern ∈ [marker], ∀ place, ¬FoundAt pattern text place :=
        forall_mem_singleton.mpr (search_none marker found)
      exact held_before_found missing mem_cons_self (search_some _ _ later).1
    | none =>
      have bound := overlap_append_le [marker] text more
      dsimp only [partialMarkerOverlap]
      rw [length_append]
      omega

theorem before_any_append (more : Text) (markers : List Text) :
    beforeAnyMarker text markers ≤ beforeAnyMarker (text ++ more) markers := by
  obtain ⟨within, each⟩ := (le_before_any text markers).mp (le_refl _)
  refine (le_before_any _ markers).mpr ⟨?_, ?_⟩
  · rw [length_append]
    omega
  · intro marker listed
    exact le_trans (each marker listed) (before_one_append text)

theorem trim_end_length (blank : Char → Bool) (text : Text) : (trimEnd blank text).length ≤ text.length :=
  trim_end_starts.length_le

theorem open_tag_lt (head : Text) (place : Nat) (tag : trailingOpenTag head = some place) : place < head.length := by
  obtain ⟨front, name, rfl, -, rfl⟩ := open_tag_iff.mp tag
  simp

theorem fence_opener_lt {head : Text} (fenced : trailingFenceOpener head = some place) : place + fence.length ≤ head.length := by
  obtain ⟨front, lang, rfl, -, rfl⟩ := (fence_opener_iff _ _).mp fenced
  simp

theorem array_opener_le : retractOverArrayOpener text safe ≤ safe := by
  have short := trim_end_length isWhitespace (text.take safe)
  rw [length_take] at short
  unfold retractOverArrayOpener
  dsimp only
  split <;> omega

theorem angle_opener_le : retractOverAngleOpener text safe ≤ safe := by
  unfold retractOverAngleOpener
  split <;> omega

theorem tag_opener_le : retractOverTagOpener text safe ≤ safe := by
  have short := trim_end_length isWhitespace (text.take safe)
  rw [length_take] at short
  unfold retractOverTagOpener
  cases tag : trailingOpenTag (trimEnd isWhitespace (text.take safe)) with
  | none => exact le_refl _
  | some place =>
    have inside := open_tag_lt _ place tag
    rw [Option.getD_some]
    omega

theorem fence_back_le {blank : Char → Bool} : (trailingFenceOpener (trimEnd blank (text.take safe))).getD safe ≤ safe := by
  cases fenced : trailingFenceOpener (trimEnd blank (text.take safe)) with
  | none => exact le_refl _
  | some place =>
    have inside := fence_opener_lt fenced
    have short := trim_end_length blank (text.take safe)
    rw [length_take] at short
    rw [Option.getD_some]
    omega

theorem retract_le : retract text safe ≤ safe := by
  unfold retract
  dsimp only
  apply le_trans (fence_back_le _ _)
  apply le_trans (tag_opener_le _ _)
  apply le_trans (angle_opener_le _ _)
  exact array_opener_le _ _

theorem fence_before_le {text : Text} : fenceBefore text place ≤ place := fence_back_le text place

theorem unfinished_tag_lt {text : Text} (tag : unfinishedTag text = some place) : place < text.length := by
  obtain ⟨front, name, rfl, -, rfl⟩ := unfinished_tag_iff.mp tag
  simp

theorem unfinished_start_le {text : Text} (start : unfinishedOpenerStart text = some place) : place ≤ text.length := by
  unfold unfinishedOpenerStart at start
  split at start
  · rename_i tagged tag
    cases start
    exact le_trans fence_before_le (le_of_lt (unfinished_tag_lt tag))
  dsimp only at start
  split at start
  · cases start
    exact Nat.sub_le _ _
  have short := trim_end_length isWhitespace text
  split at start
  · rename_i tagged tag
    cases start
    have inside := open_tag_lt _ tagged tag
    exact le_trans fence_before_le (by omega)
  · have inside := fence_opener_lt start
    omega

theorem content_prefix_le : contentPrefixLen text ≤ text.length := by
  unfold contentPrefixLen
  dsimp only
  split
  · exact le_trans (retract_le text _) (before_any_le text callMarkers)
  cases start : unfinishedOpenerStart text with
  | none =>
    rw [Option.getD_none]
    exact before_any_le text callMarkers
  | some place =>
    rw [Option.getD_some]
    exact unfinished_start_le start

end SwarmLlm.Api
