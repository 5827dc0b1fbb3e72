import SwarmLlm.Pool.Removal
import SwarmLlm.Credit.Ledger

namespace SwarmLlm.Pool

open Lib NodeId
open SwarmLlm.Credit (earn earnInference earnedAmount localCredit applyAndPersist credit_by_balance)

variable (prims : Primitives)

def balanceOf (node : PoolNode) : Int := node.books.balance.balance

variable (member : PoolNode)

-- One inference served: what the ledger credits locally, and the command the
-- forwarder leaves in the queue of the node's own pool manager.
def afterEarning (tx : PoolTx) (inferenceServe : Int) (tokens : Nat) (id : Uuid) (now : DateTime) :
    PoolNode :=
  settled (Prog.zoom PoolNode.books (fun node books => { node with books := books })
    (earnInference prims member.nodeId member.poolState tx inferenceServe tokens id now)) member

def queuedForward (tx : PoolTx) (inferenceServe : Int) (tokens : Nat) (id : Uuid) (now : DateTime) :
    Option PoolCreditForward :=
  (forwardCreditsToOwner prims member.nodeId member.poolState tx (earnedAmount inferenceServe tokens) id now).2

def processQueued (queued : Option PoolCreditForward) (now : DateTime) : PoolNode :=
  match queued with
  | none => member
  | some forward => settled (handleCreditForward prims forward now) member

def deliverForward (sender : NodeId) (now : DateTime) (owner : PoolNode) (message : PoolMessage) : PoolNode :=
  if innerIdentityOk sender message then
    match message with
    | .creditForward forward => settled (handleCreditForward prims forward now) owner
    | _ => owner
  else owner

-- Member and owner once the queued command is processed and everything the member
-- broadcast on the way has reached the owner.
def earnEndToEnd (owner : PoolNode) (inferenceServe : Int) (tokens : Nat) (id : Uuid) (now : DateTime) :
    PoolNode × PoolNode :=
  let earned := afterEarning prims member .up inferenceServe tokens id now
  let processed := processQueued prims earned (queuedForward prims member .up inferenceServe tokens id now) now
  let sent := processed.broadcasts.drop member.broadcasts.length
  (processed, sent.foldl (deliverForward prims member.nodeId now) owner)

variable (member : PoolNode) (tx : PoolTx) (state : PoolState) (inferenceServe : Int) (tokens : Nat) (id : Uuid)
  (now : DateTime)

theorem after_earning_balance : balanceOf (afterEarning prims member tx inferenceServe tokens id now) =
      if 0 < localCredit prims member.nodeId member.poolState tx inferenceServe tokens id now then
        satAdd (balanceOf member) (localCredit prims member.nodeId member.poolState tx inferenceServe tokens id now)
      else balanceOf member := by
  rw [afterEarning, earnInference, earn]
  split
  · exact credit_by_balance member.books.balance _ .earning now
  · rfl

theorem after_earning_frame : (afterEarning prims member tx inferenceServe tokens id now).nodeId = member.nodeId ∧
      (afterEarning prims member tx inferenceServe tokens id now).broadcasts = member.broadcasts :=
  ⟨rfl, rfl⟩

theorem forward_for_another_ignored {node : PoolNode} {forward : PoolCreditForward} {now : DateTime}
    (other : forward.toNodeId ≠ node.nodeId) : settled (handleCreditForward prims forward now) node = node := by
  have refused : admitForward node forward now = false := by
    simp [admitForward, other]
  have unchanged : handleCreditForward prims forward now ⟨node, []⟩ = (.done (), ⟨node, []⟩) := by
    change (if admitForward node forward now = false then _ else _ : Prog PoolNode Unit) ⟨node, []⟩ = _
    rw [if_pos refused]
    rfl
  rw [settled, unchanged]

-- A member's forward is addressed to the owner, so its own manager drops it.
theorem queued_forward_dropped (pool : member.poolState = some state) (notOwner : state.poolId ≠ member.nodeId) :
    processQueued prims (afterEarning prims member .up inferenceServe tokens id now)
      (queuedForward prims member .up inferenceServe tokens id now) now =
        afterEarning prims member .up inferenceServe tokens id now := by
  have frame := after_earning_frame prims member .up inferenceServe tokens id now
  cases queued : queuedForward prims member .up inferenceServe tokens id now with
  | none => rfl
  | some forward =>
    have addressed : forward.toNodeId = state.poolId := by
      simp only [queuedForward, forwardCreditsToOwner, pool] at queued
      split_ifs at queued
      · cases queued
        rfl
    exact forward_for_another_ignored prims (by rw [addressed, frame.1]; exact notOwner)

theorem end_to_end_balances {owner : PoolNode} {state : PoolState} {inferenceServe : Int} {tokens : Nat} {id : Uuid}
    {now : DateTime} (pool : member.poolState = some state) (notOwner : state.poolId ≠ member.nodeId) :
    earnEndToEnd prims member owner inferenceServe tokens id now =
      (afterEarning prims member .up inferenceServe tokens id now, owner) := by
  have frame := after_earning_frame prims member .up inferenceServe tokens id now
  rw [earnEndToEnd, queued_forward_dropped prims member state inferenceServe tokens id now pool notOwner]
  simp only [frame.2, List.drop_length, List.foldl_nil]

theorem member_share {amount : Int} {split : Nat} (positive : 0 < amount) (range : amount ≤ i64Max) (pct : split ≤ 100) :
    0 ≤ (satMul amount split).tdiv 100 ∧ (satMul amount split).tdiv 100 ≤ amount ∧
      ((satMul amount split).tdiv 100 = amount ↔ split = 100 ∧ amount * 100 ≤ i64Max) := by
  have product : 0 ≤ amount * (split : Int) := Int.mul_nonneg (Int.le_of_lt positive) (Int.natCast_nonneg _)
  have bound : amount * (split : Int) ≤ amount * 100 := Int.mul_le_mul_of_nonneg_left (by omega) (Int.le_of_lt positive)
  by_cases fits : amount * (split : Int) ≤ i64Max
  · have exact : satMul amount split = amount * split := clamp_exact ⟨by simp only [i64Min]; omega, fits⟩
    rw [exact, Int.tdiv_eq_ediv_of_nonneg product]
    by_cases whole : split = 100
    · have cast : (split : Int) = 100 := by omega
      rw [cast] at fits ⊢
      omega
    · have short : amount * (split : Int) ≤ amount * 99 := Int.mul_le_mul_of_nonneg_left (by omega) (Int.le_of_lt positive)
      omega
  have capped : satMul amount split = i64Max := by
    simp only [satMul, clampI64, i64Min, i64Max] at fits ⊢
    omega
  simp only [capped, i64Max] at fits range ⊢
  rw [Int.tdiv_eq_ediv_of_nonneg (by omega)]
  omega

theorem local_credit_in_pool (pool : member.poolState = some state) (notOwner : state.poolId ≠ member.nodeId)
    (positive : 0 < earnedAmount inferenceServe tokens) (pct : state.memberCreditSplitPct.toNat ≤ 100) :
    localCredit prims member.nodeId member.poolState .up inferenceServe tokens id now =
      (satMul (earnedAmount inferenceServe tokens) state.memberCreditSplitPct.toNat).tdiv 100 := by
  have range : IsI64 (earnedAmount inferenceServe tokens) := clamp_in_range _
  have split : (min state.memberCreditSplitPct.toNat 100 : Int) = state.memberCreditSplitPct.toNat := by omega
  obtain ⟨low, high, _⟩ := member_share positive range.2 pct
  simp only [localCredit, forwardCreditsToOwner, pool, if_neg notOwner, split, if_neg (Int.not_le.mpr positive)]
  split
  · next whole =>
      have inside : IsI64 (earnedAmount inferenceServe tokens -
          (satMul (earnedAmount inferenceServe tokens) state.memberCreditSplitPct.toNat).tdiv 100) := by
        simp only [IsI64, i64Min, i64Max] at range ⊢
        omega
      rw [satSub, clamp_exact inside] at whole
      omega
  · rfl

theorem pool_earnings_conserved_iff (owner : PoolNode) (state : PoolState) (inferenceServe : Int) (tokens : Nat)
    (id : Uuid) (now : DateTime) (pool : member.poolState = some state) (pooled : state.poolId = owner.nodeId)
    (distinct : owner.nodeId ≠ member.nodeId) (pct : state.memberCreditSplitPct.toNat ≤ 100)
    (positive : 0 < earnedAmount inferenceServe tokens) (range : IsI64 (balanceOf member)) :
    (balanceOf (earnEndToEnd prims member owner inferenceServe tokens id now).1 - balanceOf member) +
        (balanceOf (earnEndToEnd prims member owner inferenceServe tokens id now).2 - balanceOf owner) =
      earnedAmount inferenceServe tokens ↔
    state.memberCreditSplitPct.toNat = 100 ∧ earnedAmount inferenceServe tokens * 100 ≤ i64Max ∧
      balanceOf member + earnedAmount inferenceServe tokens ≤ i64Max := by
  have notOwner : state.poolId ≠ member.nodeId := fun same => distinct (pooled.symm.trans same)
  have share := local_credit_in_pool prims member state inferenceServe tokens id now pool notOwner positive pct
  have amountRange : IsI64 (earnedAmount inferenceServe tokens) := clamp_in_range _
  obtain ⟨low, high, whole⟩ := member_share positive amountRange.2 pct
  rw [end_to_end_balances prims member pool notOwner]
  simp only [after_earning_balance, share]
  rw [← and_assoc, ← whole]
  generalize (satMul (earnedAmount inferenceServe tokens) state.memberCreditSplitPct.toNat).tdiv 100 = kept at *
  simp only [IsI64, satAdd, clampI64, i64Min, i64Max] at range ⊢
  split <;> omega

-- Half of what a member earns is neither kept nor credited to the owner.
theorem forwarded_half_lost :
    let pool := samplePool (ofByte 1) [] 50
    let member := sampleNode (ofByte 2) (some pool)
    let owner := sampleNode (ofByte 1) (some pool)
    let after := earnEndToEnd samplePrims member owner 10 10 (Uuid.ofByte 5) 0
    earnedAmount 10 10 = 100 ∧ balanceOf after.1 - balanceOf member = 50 ∧ balanceOf after.2 - balanceOf owner = 0 := by
  decide +kernel

theorem pool_earnings_conserved_iff_sample :
    let pool := samplePool (ofByte 1) [] 100
    let member := sampleNode (ofByte 2) (some pool)
    let owner := sampleNode (ofByte 1) (some pool)
    let after := earnEndToEnd samplePrims member owner 10 10 (Uuid.ofByte 5) 0
    (balanceOf after.1 - balanceOf member) + (balanceOf after.2 - balanceOf owner) = earnedAmount 10 10 :=
  (pool_earnings_conserved_iff samplePrims (sampleNode (ofByte 2) (some (samplePool (ofByte 1) [] 100)))
    (sampleNode (ofByte 1) (some (samplePool (ofByte 1) [] 100))) (samplePool (ofByte 1) [] 100) 10 10
    (Uuid.ofByte 5) 0 rfl rfl (by decide) (by decide) (by decide) (by decide)).mpr (by decide)

end SwarmLlm.Pool
