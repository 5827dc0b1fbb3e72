import SwarmLlm.Pool.Earnings

namespace SwarmLlm.Pool

open Lib
open SwarmLlm.Credit (applyCreditDirectNoted)

variable (prims : Primitives)

inductive Charge where
  | spend
  | failurePenalty
  deriving DecidableEq

def chargeLocally (node : PoolNode) (size : Int) (now : DateTime) (error : Option String) : PoolNode :=
  (Prog.zoom PoolNode.books (fun node books => { node with books := books }) (applyCreditDirectNoted (-size) .spending now)
    ⟨node, error.toList.map .fails⟩).2.store

-- What the executor does to the node's own balance, and the command left for the pool manager. Only
-- the penalty falls back to the node when the manager's queue is closed.
def chargeNode (node : PoolNode) (tx : PoolTx) (charge : Charge) (size : Int) (id : Uuid) (now : DateTime)
    (error : Option String) : PoolNode × Option PoolCreditForward :=
  match (node.poolState.map (·.poolId)).filter (· ≠ node.nodeId) with
  | none => (chargeLocally node size now error, none)
  | some pool =>
    match tx, charge with
    | .up, _ => (node, some (createCreditForward prims node.nodeId pool node.nodeId pool (-size) id now))
    | .closed, .failurePenalty => (chargeLocally node size now error, none)
    | _, _ => (node, none)

def chargeEndToEnd (member owner : PoolNode) (tx : PoolTx) (charge : Charge) (size : Int) (id : Uuid) (now : DateTime)
    (error : Option String) : PoolNode × PoolNode :=
  let charged := chargeNode prims member tx charge size id now error
  let processed := processQueued prims charged.1 charged.2 now
  let sent := processed.broadcasts.drop member.broadcasts.length
  (processed, sent.foldl (deliverForward prims member.nodeId now) owner)

def PaidOnce (size : Int) (before after : PoolNode × PoolNode) : Prop :=
  (balanceOf after.1 = balanceOf before.1 - size ∧ balanceOf after.2 = balanceOf before.2) ∨
    (balanceOf after.1 = balanceOf before.1 ∧ balanceOf after.2 = balanceOf before.2 - size)

theorem charge_locally_balance (node : PoolNode) (size : Int) (now : DateTime) (error : Option String) :
    balanceOf (chargeLocally node size now error) =
      if error = none then satAdd (balanceOf node) (-size) else satSub (satAdd (balanceOf node) (-size)) (-size) := by
  cases error <;> rfl

theorem member_charge_ends {member : PoolNode} {state : PoolState} {owner : PoolNode} {tx : PoolTx} {charge : Charge}
    {size : Int} {id : Uuid} {now : DateTime} {error : Option String} (pool : member.poolState = some state)
    (notOwner : state.poolId ≠ member.nodeId) :
    chargeEndToEnd prims member owner tx charge size id now error =
      match tx, charge with
      | .closed, .failurePenalty => (chargeLocally member size now error, owner)
      | _, _ => (member, owner) := by
  have others : (member.poolState.map (·.poolId)).filter (· ≠ member.nodeId) = some state.poolId := by
    simp [pool, notOwner]
  have refused : settled (handleCreditForward prims (createCreditForward prims member.nodeId state.poolId member.nodeId
      state.poolId (-size) id now) now) member = member := forward_for_another_ignored prims notOwner
  have quiet : (chargeLocally member size now error).broadcasts = member.broadcasts := rfl
  cases tx <;> cases charge <;>
    simp only [chargeEndToEnd, chargeNode, others, processQueued, refused, quiet, List.drop_length, List.foldl_nil]

-- The manager of the member's own node drops the negative forward, and nothing of it is broadcast.
theorem member_charge_paid_iff (member owner : PoolNode) (state : PoolState) (tx : PoolTx) (charge : Charge) (size : Int)
    (id : Uuid) (now : DateTime) (error : Option String) (pool : member.poolState = some state)
    (notOwner : state.poolId ≠ member.nodeId) (positive : 0 < size) (range : IsI64 (balanceOf member)) :
    PaidOnce size (member, owner) (chargeEndToEnd prims member owner tx charge size id now error) ↔
      charge = .failurePenalty ∧ tx = .closed ∧ error = none ∧ i64Min ≤ balanceOf member - size := by
  have unpaid : ¬ PaidOnce size (member, owner) (member, owner) := by
    simp only [PaidOnce]
    omega
  rw [member_charge_ends prims pool notOwner]
  cases tx with
  | missing | up => simp [unpaid]
  | closed =>
    cases charge with
    | spend => simp [unpaid]
    | failurePenalty =>
      simp only [PaidOnce, charge_locally_balance, true_and]
      simp only [IsI64, satAdd, satSub, clampI64, i64Min, i64Max] at range ⊢
      cases error <;> simp <;> omega

theorem member_spend_unpaid :
    let pool := samplePool (NodeId.ofByte 1) [] 50
    let member := sampleNode (NodeId.ofByte 2) (some pool)
    let owner := sampleNode (NodeId.ofByte 1) (some pool)
    let after := chargeEndToEnd samplePrims member owner .up .spend 100 (Uuid.ofByte 5) 0 none
    balanceOf after.1 = balanceOf member ∧ balanceOf after.2 = balanceOf owner := by
  decide +kernel

theorem member_charge_paid_iff_sample :
    let pool := samplePool (NodeId.ofByte 1) [] 50
    let member := sampleNode (NodeId.ofByte 2) (some pool)
    let owner := sampleNode (NodeId.ofByte 1) (some pool)
    PaidOnce 100 (member, owner)
      (chargeEndToEnd samplePrims member owner .closed .failurePenalty 100 (Uuid.ofByte 5) 0 none) :=
  (member_charge_paid_iff samplePrims _ _ (samplePool (NodeId.ofByte 1) [] 50) .closed .failurePenalty 100 (Uuid.ofByte 5) 0
    none rfl (by decide) (by decide) (by decide)).mpr (by decide)

end SwarmLlm.Pool
