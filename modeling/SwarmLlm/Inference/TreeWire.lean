import SwarmLlm.Inference.FlowExact

namespace SwarmLlm.Inference

open Lib List FlowTree

-- A shape is read back as it was written, and nothing but a shape is read.
theorem wire_round_trip (base : Nat) (wire : List Nat) (tree : DraftTree) :
    DraftTree.fromWire base wire = .ok tree ↔ tree.base = base ∧ tree.toWire = wire := by
  constructor
  · intro made
    obtain ⟨same, shape⟩ := DraftTree.new_shape made
    refine ⟨same, ?_⟩
    rw [DraftTree.toWire, shape, map_map]
    refine (map_congr_left fun word _ => ?_).trans (map_id wire)
    cases word <;> rfl
  · rintro ⟨rfl, rfl⟩
    rw [DraftTree.fromWire, to_wire_parents, DraftTree.new_ok tree.based tree.few tree.ordered]
    cases tree
    simp_all

theorem rows_few (flow : FlowTree) : flow.walked.length + flow.keptRows.length ≤ maxTreeRows := by
  have short : (flow.tree.line flow.here).length ≤ flow.here + 1 := by
    refine path_induction flow.tree.ordered (fun row rows => rows.length ≤ row + 1) (fun row _ => Nat.le_add_left 1 row) ?_
    intro row parent follows shorter
    have before := flow.tree.ordered row parent follows
    rw [length_append, length_singleton]
    omega
  have kept : flow.keptRows.length ≤ flow.tree.length - flow.here := by
    simpa [keptRows, FlowTree.length, flow.filled] using length_filter_le flow.isLive (List.range' flow.here _)
  have inside := flow.inside
  have most : flow.tree.length ≤ maxTreeRows := flow.tree.few
  rw [walked, length_map, length_dropLast]
  omega

theorem rebase_ok (flow : FlowTree) : ∃ rebased cut, flow.rebase = .ok (rebased, cut) := by
  have few : (restrict flow.tree.parents flow.here flow.keptRows).length ≤ maxTreeRows := by
    rw [restrict, length_map]
    exact Nat.le_trans (Nat.le_add_left _ _) (rows_few flow)
  have made := @DraftTree.new_ok (flow.base + flow.walked.length) _ (Nat.add_pos_left flow.tree.based _) few
    (restrict_ordered flow.here kept_sorted kept_closed flow.tree.ordered)
  rw [rebase]
  split
  · next failed => cases failed.symm.trans made
  · exact ⟨_, _, rfl⟩

-- A kept row in the tree that is left, and in the forward that sends it again.
structure Carried (flow : FlowTree) (rebased : Rebased) (cut : FlowTree) (forward : DraftTree) (index row : Nat) : Prop where
  tokens : flow.pathTokens row = rebased.path ++ cut.pathTokens index
  place : cut.base + cut.tree.depth index = flow.base + flow.tree.depth row
  resent : forward.base + forward.depth (rebased.path.length + index) = flow.base + flow.tree.depth row
  line : forward.line (rebased.path.length + index) =
    List.range rebased.path.length ++ (cut.tree.line index).map (rebased.path.length + ·)

theorem rebase_carries_rows (flow : FlowTree) : ∃ rebased cut forward, flow.rebase = .ok (rebased, cut) ∧
    rebased.path = flow.walked ∧ (∀ row, row ∈ rebased.kept ↔ row < flow.length ∧ flow.here ∈ flow.tree.line row) ∧
    DraftTree.fromWire flow.base (cut.rebaseForward rebased).2 = .ok forward ∧
    (cut.rebaseForward rebased).1.length = forward.length ∧
    ∀ index row, rebased.kept[index]? = some row → Carried flow rebased cut forward index row := by
  obtain ⟨rebased, cut, done⟩ := rebase_ok flow
  have spec := rebase_spec done
  have count : cut.length = cut.tree.length := cut.filled
  obtain ⟨forward, read⟩ : ∃ forward, DraftTree.fromWire flow.base (cut.rebaseForward rebased).2 = .ok forward := by
    rw [DraftTree.fromWire, rebase_wire_parents]
    refine ⟨_, DraftTree.new_ok flow.tree.based ?_ (graft_ordered _ _ cut.tree.ordered)⟩
    have size := spec.rows
    rw [spec.kept, count, DraftTree.length] at size
    rw [graft_length, spec.path, size]
    exact rows_few flow
  have shape := DraftTree.new_shape read
  rw [rebase_wire_parents] at shape
  have size : forward.length = rebased.path.length + cut.tree.length := by
    rw [DraftTree.length, shape.2]
    exact graft_length _ _
  refine ⟨rebased, cut, forward, done, spec.path, fun row => ?_, read, ?_, fun index row found => ?_⟩
  · rw [spec.kept, mem_kept, FlowTree.length, flow.filled]
  · rw [rebaseForward, length_append, size, cut.filled]
  · have tokens := spec.tokens index row found
    have within : index < cut.tree.length := by
      rw [← count, spec.rows]
      exact (List.getElem?_eq_some_iff.mp found).1
    have line := path_graft rebased.path.length _ cut.tree.ordered within
    rw [← shape.2] at line
    have old := flow.tree.depth_line row (mem_kept.mp (spec.kept ▸ mem_of_getElem? found)).1
    have new := cut.tree.depth_line index within
    have resent := forward.depth_line (rebased.path.length + index) (by omega)
    have deep := congrArg List.length tokens
    have base := spec.base
    rw [DraftTree.line, line] at resent
    simp only [pathTokens, DraftTree.line, length_append, length_map, length_range] at deep resent old new
    exact ⟨tokens, by omega, by omega, line⟩

end SwarmLlm.Inference
