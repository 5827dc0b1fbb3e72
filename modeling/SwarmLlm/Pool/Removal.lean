import SwarmLlm.Pool.Manager

namespace SwarmLlm.Pool

open Lib NodeId

variable (prims : Primitives)

-- One of the handler's checks turns the removal away. The signature is checked
-- against the key the removal itself names.
def removalRefused (node : PoolNode) (removal : PoolRemoval) (now : DateTime) : Bool :=
  decide (removal.removedNodeId ≠ node.nodeId) || !isFresh now removal.removedAt "pool_removal" ||
    decide (removal.removalId = Uuid.nil) || (node.removalReplays.lookup (.removal removal.removalId)).isSome ||
    !prims.keyValid removal.poolId || !verifyRemoval prims removal removal.poolId

variable (node : PoolNode) (removal : PoolRemoval) (now : DateTime) (fates : List WriteFate)

def afterRemoval : PoolNode :=
  ((handleInboundRemoval prims removal now) ⟨node, fates⟩).2.store

theorem removal_refused_keeps {node : PoolNode} {removal : PoolRemoval} {now : DateTime} {fates : List WriteFate}
    (refused : removalRefused prims node removal now = true) : afterRemoval prims node removal now fates = node := by
  simp only [removalRefused, Bool.or_eq_true, Bool.not_eq_true', decide_eq_true_eq] at refused
  have unchanged : handleInboundRemoval prims removal now ⟨node, fates⟩ = (.done (), ⟨node, fates⟩) := by
    change (if removal.removedNodeId ≠ node.nodeId then _ else _ : Prog PoolNode Unit) ⟨node, fates⟩ = _
    split_ifs with other stale nil replayed badKey badSignature
    · rfl
    · rfl
    · rfl
    · rfl
    · rfl
    · rfl
    · simp_all
  rw [afterRemoval, unchanged]

theorem removal_accepted_clears
    (accepted : removalRefused prims node removal now = false) : (afterRemoval prims node removal now fates).poolState = none := by
  simp only [removalRefused, Bool.or_eq_false_iff, Bool.not_eq_false', decide_eq_false_iff_not, ne_eq,
    Decidable.not_not] at accepted
  obtain ⟨⟨⟨⟨⟨addressed, fresh⟩, named⟩, unseen⟩, key⟩, signed⟩ := accepted
  refine Prog.wp_always (fun node => node.poolState = none) ⟨node, fates⟩ ?_
  simp only [handleInboundRemoval, Prog.wp_bind, Prog.wp_get, addressed, fresh, named, unseen, key, signed, ne_eq,
    not_true_eq_false, if_false, Bool.false_eq_true, Bool.true_eq_false, Prog.wp_modify]
  have writeReplay : ∀ machine : Machine PoolNode, machine.store.poolState = none →
      (Prog.write fun node : PoolNode =>
        { node with removalReplays := node.removalReplays.insert (.removal removal.removalId) (timestamp now) }).wp
        (fun _ after => after.store.poolState = none) (fun node => node.poolState = none) machine :=
    fun machine cleared => Prog.wp_write _ _ _ machine cleared (fun _ _ => cleared) cleared cleared
  apply Prog.wp_write
  · exact writeReplay _ rfl
  · intro error _
    exact writeReplay _ rfl
  · rfl
  · rfl

def EvictionAuthorised : Prop :=
  (afterRemoval prims node removal now fates).poolState ≠ node.poolState →
    ∃ state, node.poolState = some state ∧ removal.poolId = state.poolId ∧ prims.keyValid state.poolId = true ∧
      verifyRemoval prims removal state.poolId = true

theorem eviction_authorised_iff :
    EvictionAuthorised prims node removal now fates ↔ removalRefused prims node removal now = true ∨
        ∀ state, node.poolState = some state → removal.poolId = state.poolId := by
  constructor
  · intro authorised
    cases refused : removalRefused prims node removal now with
    | true => exact Or.inl rfl
    | false =>
      refine Or.inr fun state member => ?_
      have cleared := removal_accepted_clears prims node removal now fates refused
      obtain ⟨other, found, named, _⟩ := authorised (by rw [cleared, member]; simp)
      rw [member] at found
      cases found
      exact named
  rintro (refused | named) changed
  · rw [removal_refused_keeps prims refused] at changed
    exact absurd rfl changed
  cases refused : removalRefused prims node removal now with
  | true =>
    rw [removal_refused_keeps prims refused] at changed
    exact absurd rfl changed
  | false =>
    have cleared := removal_accepted_clears prims node removal now fates refused
    cases member : node.poolState with
    | none => exact absurd (cleared.trans member.symm) changed
    | some state =>
      have same := named state member
      simp only [removalRefused, Bool.or_eq_false_iff, Bool.not_eq_false'] at refused
      exact ⟨state, rfl, same, same ▸ refused.1.2, same ▸ refused.2⟩

-- A stranger's key evicts a member: the removal names the stranger's own pool.
theorem stranger_evicts_member :
    ¬ EvictionAuthorised samplePrims (sampleNode (ofByte 2) (some (samplePool (ofByte 1) [] 0)))
      (createRemoval samplePrims (ofByte 9) (ofByte 9) (ofByte 2) (Uuid.ofByte 7) 0) 0 [] := by
  intro authorised
  have cleared := removal_accepted_clears samplePrims
    (sampleNode (ofByte 2) (some (samplePool (ofByte 1) [] 0)))
    (createRemoval samplePrims (ofByte 9) (ofByte 9) (ofByte 2) (Uuid.ofByte 7) 0) 0 [] (by decide +kernel)
  obtain ⟨state, found, named, _⟩ := authorised (by rw [cleared]; simp [sampleNode])
  cases found
  exact absurd named (by decide)

end SwarmLlm.Pool
