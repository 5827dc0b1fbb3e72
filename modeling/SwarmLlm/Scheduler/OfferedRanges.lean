import SwarmLlm.Scheduler.Offers
import Mathlib.Data.List.TakeWhile

namespace SwarmLlm.Scheduler.Search

open Lib FloatArith List

variable {S D : Type} {part : Clamped S D} {c : NodeCandidate S D} {points : List Nat} {s : Search S D} {whole range : LayerRange}

theorem sorted_points_strict : (sortedPoints points).Pairwise (· < ·) := by
  have ordered : (sortedPoints points).Pairwise (· ≤ ·) :=
    List.Pairwise.sublist (dedup_sublist _) (pairwise_insertionSort (· ≤ ·) points)
  have distinct : (sortedPoints points).Pairwise (· ≠ ·) := nodup_dedup _
  exact (ordered.and distinct).imp fun both => Nat.lt_of_le_of_ne both.1 both.2

structure Holds (s : Search S D) (idx : Nat) (c : NodeCandidate S D) (range : LayerRange) : Prop where
  known : s.candidates[idx]? = some c
  held : ∃ available ∈ c.availableRanges, available.1 ≤ range.1 ∧ range.2 ≤ available.2
  rising : range.1 < range.2
  ends : range.2 ≤ s.numLayers

theorem clamped_holds (listed : part ∈ s.clamped) : Holds s part.candIdx part.candidate part.range := by
  unfold clamped at listed
  obtain ⟨listed, rising⟩ := mem_filter.mp listed
  obtain ⟨⟨c, idx⟩, entry, ranged⟩ := mem_flatMap.mp listed
  obtain ⟨range, available, rfl⟩ := mem_map.mp ranged
  exact {
    known := mem_zipIdx_iff_getElem?.mp entry
    held := ⟨range, available, le_refl _, min_le_left _ _⟩
    rising := of_decide_eq_true rising
    ends := min_le_right _ _ }

theorem holds_within {idx : Nat} (holds : Holds s idx c whole) (low : whole.1 ≤ range.1) (high : range.2 ≤ whole.2)
    (rising : range.1 < range.2) : Holds s idx c range := by
  obtain ⟨available, listed, starts, stops⟩ := holds.held
  exact {
    known := holds.known
    held := ⟨available, listed, le_trans starts low, le_trans high stops⟩
    rising := rising
    ends := le_trans high holds.ends }

theorem cuts_within (strict : points.Pairwise (· < ·)) (listed : range ∈ cuts whole points) :
    whole.1 ≤ range.1 ∧ range.2 ≤ whole.2 ∧ range.1 < range.2 := by
  induction points with
  | nil => cases listed
  | cons point rest ih =>
    obtain ⟨below, later⟩ := pairwise_cons.mp strict
    rcases mem_append.mp listed with here | behind
    · by_cases within : whole.1 ≤ point ∧ point < whole.2
      · rw [if_pos within] at here
        obtain ⟨next, taken, rfl⟩ := mem_map.mp (mem_filter.mp here).1
        have stops := mem_takeWhile_imp taken
        exact ⟨within.1, of_decide_eq_true stops, below next (( takeWhile_prefix _).subset taken)⟩
      · rw [if_neg within] at here
        cases here
    · exact ih later behind

theorem met_within (listed : range ∈ s.metAt whole) : whole.1 ≤ range.1 ∧ range.2 ≤ whole.2 ∧ range.1 < range.2 := by
  unfold metAt at listed
  obtain ⟨point, cut, either⟩ := mem_flatMap.mp listed
  have between := (mem_filter.mp cut).2
  rw [Bool.and_eq_true, decide_eq_true_eq, decide_eq_true_eq] at between
  rcases mem_cons.mp either with first | second
  · rw [first]
    exact ⟨le_refl _, le_of_lt between.2, between.1⟩
  · rw [mem_singleton.mp second]
    exact ⟨le_of_lt between.1, le_refl _, between.2⟩

theorem held_within (listed : range ∈ s.heldInside part) : part.range.1 ≤ range.1 ∧ range.2 ≤ part.range.2 ∧ range.1 < range.2 := by
  unfold heldInside at listed
  have kept := (mem_filter.mp listed).2
  simp only [Bool.and_eq_true, decide_eq_true_eq] at kept
  exact ⟨kept.1.1.1, kept.1.1.2, kept.1.2⟩

variable [FloatArith D]

theorem split_points_strict : s.splitPoints.Pairwise (· < ·) := by
  unfold splitPoints
  split
  · split
    · exact sorted_points_strict
    · split
      · exact sorted_points_strict
      · exact sorted_points_strict
  · exact sorted_points_strict

theorem offered_holds (clamps : part ∈ s.clamped) (offered : range ∈ s.offeredRanges part) :
    Holds s part.candIdx part.candidate range := by
  have whole := clamped_holds clamps
  unfold offeredRanges at offered
  rcases mem_cons.mp offered with same | cut
  · rw [same]
    exact whole
  have within : part.range.1 ≤ range.1 ∧ range.2 ≤ part.range.2 ∧ range.1 < range.2 := by
    split at cut
    · rcases mem_append.mp cut with held | met
      · exact held_within held
      · split at met
        · exact met_within met
        · cases met
    · exact cuts_within split_points_strict cut
  exact holds_within whole within.1 within.2.1 within.2.2

theorem fits_cap {cap : D} (peer : c.nodeId ≠ s.localNode) (capped : s.capacity.peerCap c = some cap)
    (fits : s.fits c range = true) : le (c.capacityCharge range) cap = true := by
  have figure : s.vertexCap c = some cap := by
    rw [vertexCap, if_neg peer]
    exact capped
  have runless : s.freshRunOf c = none := by
    rw [freshRunOf, if_neg]
    exact fun both => peer both.1
  rw [Search.fits, figure, runless] at fits
  exact (Bool.or_eq_true_iff.mp fits).elim id fun never => nomatch never

variable [FloatArith S] [Narrows D S]

theorem vertex_holds {v : Vertex S D} (listed : v ∈ s.vertices) :
    Holds s v.candIdx v.candidate v.range ∧ s.fits v.candidate v.range = true := by
  obtain ⟨part, clamps, made⟩ := mem_flatMap.mp listed
  obtain ⟨range, offered, rfl⟩ := mem_map.mp made
  obtain ⟨offered, fits⟩ := mem_filter.mp offered
  exact ⟨offered_holds clamps offered, fits⟩

end SwarmLlm.Scheduler.Search
