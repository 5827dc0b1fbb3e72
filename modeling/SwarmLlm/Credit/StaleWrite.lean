import SwarmLlm.Credit.Concurrent

namespace SwarmLlm.Credit

open Lib CreditOp Thread World
open Routine (perform)

-- The concurrent users of the balance. `persist` is the ledger's periodic write.
inductive BalanceCall where
  | direct (delta : Int) (kind : CreditDelta) (now : DateTime)
  | ledger (delta : Int) (kind : CreditDelta) (now : DateTime)
  | persist
  | create (requestId : Uuid) (amount : Int) (fromNode : NodeId) (id : Uuid) (now : DateTime)
  | release (id : Uuid) (toNode : NodeId) (actualCost : Int) (now : DateTime)
  | refund (id : Uuid) (now : DateTime)
  | cleanup (shards : Nat) (now : DateTime)
  deriving DecidableEq

def BalanceCall.thread : BalanceCall → Thread Unit
  | .direct delta kind now => do
    let _ ← Thread.applyCreditDirectNoted delta kind now
    pure ()
  | .ledger delta kind now => do
    let _ ← applyAndPersist delta kind now
    pure ()
  | .persist => do
    let _ ← persistBalance
    pure ()
  | .create requestId amount fromNode id now => do
    let _ ← Thread.createEscrow requestId amount fromNode id now
    pure ()
  | .release id toNode actualCost now => do
    let _ ← Thread.releaseEscrow id toNode actualCost now
    pure ()
  | .refund id now => do
    let _ ← Thread.refundEscrow id now
    pure ()
  | .cleanup shards now => do
    let _ ← Thread.cleanupExpired shards now
    pure ()

def CreditStore.InSync (store : CreditStore) : Prop := store.creditRecord = some store.balance

instance (store : CreditStore) : Decidable store.InSync := inferInstanceAs (Decidable (_ = _))

def CreditOp.writesBalance : CreditOp → Bool
  | .putBalance _ => true
  | .payExpired _ _ _ => true
  | _ => false

-- A snapshot is written while memory still holds it.
def CreditOp.Fresh (store : CreditStore) : CreditOp → Prop
  | .putBalance snapshot => snapshot = store.balance
  | _ => True

-- A thread by whether it has a change in memory that it has not written. Every
-- write succeeds, so no branch that undoes something is taken.
def writeProtocol : Protocol CreditOp.Reply Bool where
  allowed op _ :=
    match op with
    | .revert _ _ => False
    | .unclaim _ _ _ => False
    | .unexpire _ => False
    | _ => True
  replies op reply :=
    match op, reply with
    | .putBalance _, reply => reply = .ok ()
    | .putEscrow _ _, reply => reply = .ok ()
    | .putSettled _ _, reply => reply = .ok ()
    | .payExpired _ _ _, reply => reply = .ok ()
    | _, _ => True
  move op _ own :=
    match op with
    | .credit _ _ _ => true
    | .putBalance _ => false
    | _ => own

section Threads

def written {R : Type} (_ : R) (own : Bool) : Prop := own = false

theorem map_writes {R Q : Type} (thread : Thread R) (result : R → Q) (writes : thread.Follows writeProtocol written false) :
    (do let value ← thread; pure (result value) : Thread Q).Follows writeProtocol written false :=
  Routine.follows_bind writeProtocol written thread _ false writes fun _ _ clean => clean

variable {own : Bool} {now : DateTime} {delta : Int}

theorem direct_writes {kind : CreditDelta} :
    (Thread.applyCreditDirectNoted delta kind now).Follows writeProtocol written own := by
  refine ⟨trivial, fun snapshot _ => ⟨trivial, fun put landed => ?_⟩⟩
  cases landed
  exact ⟨trivial, fun _ _ => rfl⟩

theorem persist_writes : persistBalance.Follows writeProtocol written own := by
  refine ⟨trivial, fun snapshot _ => ⟨trivial, fun put landed => ?_⟩⟩
  cases landed
  rfl

theorem create_writes {requestId : Uuid} {amount : Int} {fromNode : NodeId} {id : Uuid} :
    (Thread.createEscrow requestId amount fromNode id now).Follows writeProtocol written false := by
  unfold Thread.createEscrow
  split
  · rfl
  apply Routine.follows_bind writeProtocol written _ _ false direct_writes
  intro applied own clean
  cases clean
  cases applied with
  | error error => rfl
  | ok _ =>
    refine ⟨trivial, fun put landed => ?_⟩
    cases landed
    exact ⟨trivial, fun _ _ => rfl⟩

theorem settle_delta_writes : (Thread.settleDelta delta now).Follows writeProtocol written false := by
  unfold Thread.settleDelta
  split
  · exact map_writes _ _ direct_writes
  · split
    · exact map_writes _ _ direct_writes
    · rfl

theorem settle_writes (id : Uuid) (settle : Settle) (failure : String) (pay : EscrowEntry → Thread Int)
    (pays : ∀ entry, (pay entry).Follows writeProtocol written false) :
    (settleEscrow id settle failure pay).Follows writeProtocol written false := by
  refine ⟨trivial, fun claimed _ => ?_⟩
  cases claimed with
  | error error => rfl
  | ok entry =>
    refine ⟨trivial, fun put landed => ?_⟩
    cases landed
    refine ⟨trivial, fun _ _ => ?_⟩
    exact map_writes (pay entry) _ (pays entry)

theorem expire_one_writes {id : Uuid} : (Thread.expireOne now id).Follows writeProtocol written false := by
  refine ⟨trivial, fun expired _ => ?_⟩
  cases expired with
  | none => rfl
  | some entry =>
    refine ⟨trivial, fun put landed => ?_⟩
    cases landed
    exact ⟨trivial, fun _ _ => rfl⟩

theorem expire_each_writes {ids : List Uuid} : (expireEach now ids).Follows writeProtocol written false := by
  induction ids with
  | nil => rfl
  | cons id rest ih =>
    apply Routine.follows_bind writeProtocol written _ _ false expire_one_writes
    intro expired own clean
    cases clean
    exact map_writes _ _ ih

theorem collect_writes {shards : List Nat} : (collectExpired now shards).Follows writeProtocol written false := by
  induction shards with
  | nil => rfl
  | cons shard rest ih =>
    refine ⟨trivial, fun found _ => ?_⟩
    exact map_writes (collectExpired now rest) _ ih

theorem cleanup_writes {shards : Nat} : (Thread.cleanupExpired shards now).Follows writeProtocol written false := by
  apply Routine.follows_bind writeProtocol written _ _ false collect_writes
  intro ids own clean
  cases clean
  exact expire_each_writes

theorem call_writes (call : BalanceCall) : call.thread.Follows writeProtocol written false := by
  cases call with
  | direct delta kind now => exact map_writes _ _ direct_writes
  | ledger delta kind now => exact map_writes _ _ ⟨trivial, fun _ _ => persist_writes⟩
  | persist => exact map_writes _ _ persist_writes
  | create requestId amount fromNode id now => exact map_writes _ _ create_writes
  | release id toNode actualCost now =>
    apply map_writes
    apply settle_writes
    intro entry
    exact map_writes _ _ settle_delta_writes
  | refund id now =>
    apply map_writes
    apply settle_writes
    intro entry
    exact map_writes _ _ direct_writes
  | cleanup shards now => exact map_writes _ _ cleanup_writes

end Threads

def CreditOp.BalanceEffect (store after : CreditStore) : CreditOp → Prop
  | .credit _ _ _ => True
  | .putBalance snapshot => after.balance = store.balance ∧ after.creditRecord = some snapshot
  | .payExpired _ _ _ => after.InSync
  | _ => after.balance = store.balance ∧ after.creditRecord = store.creditRecord

section Effects

variable {shardOf : Uuid → Nat} {store : CreditStore}

theorem landing_effect {op : CreditOp} {own : Bool} {reply : op.Reply} {after : Machine CreditStore}
    (allowed : writeProtocol.allowed op own) (ran : handler shardOf op ⟨store, []⟩ = (.done reply, after)) :
    writeProtocol.replies op reply ∧ op.BalanceEffect store after.store := by
  cases op with
  | revert | unclaim | unexpire => exact allowed.elim
  | claim id settle =>
    rw [claim_result] at ran
    cases found : findPending store id <;> rw [found] at ran <;> cases ran <;> exact ⟨trivial, rfl, rfl⟩
  | expire id now =>
    rw [expire_result] at ran
    cases found : findPending store id <;> rw [found] at ran <;> cases ran <;> exact ⟨trivial, rfl, rfl⟩
  | credit delta kind now => exact ⟨trivial, trivial⟩
  | payExpired id amount now =>
    cases ran
    exact ⟨rfl, rfl⟩
  | _ =>
    cases ran
    exact ⟨by trivial, rfl, rfl⟩

end Effects

section Runs

variable (shardOf : Uuid → Nat)

def Quiet (world : World CreditOp.Reply CreditStore Unit) (turns : List Turn) : Prop :=
  RunMeets (step (handler shardOf)) (fun world turn => ∀ op ∈ world.nextOp turn.thread, op.writesBalance = false)
    world turns

-- The last balance write of the run carries the balance memory holds then.
def LastWriteFresh : World CreditOp.Reply CreditStore Unit → List Turn → Prop
  | _, [] => True
  | world, turn :: rest =>
    (Quiet shardOf (world.step (handler shardOf) turn) rest → ∀ op ∈ world.nextOp turn.thread, op.Fresh world.store) ∧
    LastWriteFresh (world.step (handler shardOf) turn) rest

variable (world : World CreditOp.Reply CreditStore Unit) (threads : List Nat) (owns : List Bool) (results : List Unit) {shardOf}

theorem quiet_fresh {turns : List Turn} (quiet : Quiet shardOf world turns) : LastWriteFresh shardOf world turns := by
  induction turns generalizing world with
  | nil => trivial
  | cons turn rest ih =>
    refine ⟨fun _ op head => ?_, ih _ quiet.2⟩
    have silent := quiet.1 op head
    cases op <;> trivial

theorem lands_abides {thread : Nat} {owns : List Bool} (abides : world.Abides writeProtocol written owns) :
    ∃ owns, (world.step (handler shardOf) (.lands thread)).Abides writeProtocol written owns := by
  rcases step_follows written abides with
    idle | ⟨op, own, reply, after, head, held, allowed, ran, stored, traced, follows⟩
  · rw [idle]
    exact ⟨owns, abides⟩
  · exact ⟨_, follows (landing_effect allowed ran).1⟩

theorem quiet_unchanged (abides : world.Abides writeProtocol written owns) (quiet : Quiet shardOf world (threads.map .lands))
    (returned : (run (step (handler shardOf)) world (threads.map .lands)).Returned results) :
    (∀ own ∈ owns, own = false) ∧
      (run (step (handler shardOf)) world (threads.map .lands)).store.balance = world.store.balance ∧
      (run (step (handler shardOf)) world (threads.map .lands)).store.creditRecord = world.store.creditRecord := by
  induction threads generalizing world owns with
  | nil =>
    refine ⟨?_, rfl, rfl⟩
    have ends := returned_ends written results abides returned
    intro own member
    obtain ⟨index, inside, rfl⟩ := List.mem_iff_getElem.mp member
    exact (List.forall₂_iff_get.mp ends).2 index (ends.length_eq ▸ inside) inside
  | cons thread rest ih =>
    simp only [List.map_cons, run_cons] at returned ⊢
    rcases step_follows written abides with
      idle | ⟨op, own, reply, after, head, held, allowed, ran, stored, traced, follows⟩
    · rw [idle] at returned ⊢
      have silent : Quiet shardOf world (rest.map .lands) := by
        have later := quiet.2
        rw [idle] at later
        exact later
      exact ih world owns abides silent returned
    have effect := landing_effect allowed ran
    obtain ⟨clean, balance, record⟩ := ih _ _ (follows effect.1) quiet.2 returned
    have inside := (List.getElem?_eq_some_iff.mp held).1
    have last := clean _ (List.mem_set inside _)
    have silent := quiet.1 op head
    rw [balance, record, stored]
    cases op with
    | credit delta kind now => cases last
    | putBalance | payExpired => cases silent
    | _ =>
      refine ⟨?_, effect.2⟩
      have same := set_held held
      rw [← same]
      exact clean

theorem last_write_decides (abides : world.Abides writeProtocol written owns) (loud : ¬ Quiet shardOf world (threads.map .lands))
    (returned : (run (step (handler shardOf)) world (threads.map .lands)).Returned results) :
    (run (step (handler shardOf)) world (threads.map .lands)).store.InSync ↔
      LastWriteFresh shardOf world (threads.map .lands) := by
  induction threads generalizing world owns with
  | nil => exact (loud trivial).elim
  | cons thread rest ih =>
    obtain ⟨next, nextAbides⟩ := lands_abides world abides
    by_cases quiet : Quiet shardOf (world.step (handler shardOf) (.lands thread)) (rest.map .lands)
    · obtain ⟨op, head, writes⟩ : ∃ op ∈ world.nextOp thread, op.writesBalance = true := by
        by_contra none
        push Not at none
        exact loud ⟨fun op head => Bool.eq_false_of_not_eq_true (none op head), quiet⟩
      obtain ⟨_, balance, record⟩ := quiet_unchanged _ rest next results nextAbides quiet returned
      have later := quiet_fresh _ quiet
      have decided : LastWriteFresh shardOf world ((thread :: rest).map .lands) ↔ op.Fresh world.store := by
        constructor
        · intro fresh
          exact fresh.1 quiet op head
        · intro fresh
          refine ⟨fun _ other otherHead => ?_, later⟩
          have same : some op = some other := head.symm.trans otherHead
          cases same
          exact fresh
      rw [decided, CreditStore.InSync, List.map_cons, run_cons, record, balance]
      cases op with
      | putBalance snapshot =>
        have stored := @step_store _ _ _ _ (handler shardOf) world (.lands thread) (.putBalance snapshot) (.ok ())
          ⟨{ world.store with creditRecord := some snapshot }, []⟩ head rfl
        rw [stored]
        exact Option.some_inj
      | payExpired id amount now =>
        have synced : (world.step (handler shardOf) (.lands thread)).store.InSync := by
          rw [step_store world (.lands thread) (.payExpired id amount now) (.ok ()) _ head rfl]
          rfl
        exact iff_of_true synced trivial
      | _ => cases writes
    have later := ih _ next nextAbides quiet returned
    constructor
    · intro synced
      exact ⟨fun silent => (quiet silent).elim, later.mp synced⟩
    · intro fresh
      exact later.mpr fresh.2

variable (shardOf)

def balanceRun (store : CreditStore) (calls : List BalanceCall) (threads : List Nat) :
    World CreditOp.Reply CreditStore Unit :=
  run (step (handler shardOf)) (start store (calls.map BalanceCall.thread)) (threads.map .lands)

theorem disk_follows_memory_iff (store : CreditStore) (calls : List BalanceCall) (threads : List Nat) (results : List Unit)
    (synced : store.InSync) (returned : (balanceRun shardOf store calls threads).Returned results) :
    (balanceRun shardOf store calls threads).store.InSync ↔
      LastWriteFresh shardOf (start store (calls.map BalanceCall.thread)) (threads.map .lands) := by
  have abides := start_abides written store calls (fun _ => false) call_writes
  by_cases quiet : Quiet shardOf (start store (calls.map BalanceCall.thread)) (threads.map .lands)
  · obtain ⟨_, balance, record⟩ := quiet_unchanged _ threads _ results abides quiet returned
    have still : (balanceRun shardOf store calls threads).store.InSync := by
      rw [CreditStore.InSync, balanceRun, balance, record]
      exact synced
    exact iff_of_true still (quiet_fresh _ quiet)
  · exact last_write_decides _ threads _ results abides quiet returned

end Runs

def twoCalls : List BalanceCall := [.direct 5 .earning 1, .direct (-3) .spending 2]

theorem disk_follows_memory_iff_sample :
    LastWriteFresh (fun _ => 0) (start quietStore (twoCalls.map BalanceCall.thread)) ([0, 1, 0, 1, 0, 1].map .lands) :=
  (disk_follows_memory_iff (fun _ => 0) quietStore twoCalls [0, 1, 0, 1, 0, 1] [(), ()] rfl rfl).mp (by decide)

-- The second call updates memory after the first and writes before it: the first
-- call's older snapshot is what stays on disk.
theorem older_snapshot_lands_last :
    let world := balanceRun (fun _ => 0) quietStore twoCalls [0, 1, 1, 1, 0, 0]
    quietStore.InSync ∧ world.Returned [(), ()] ∧ world.store.balance.balance = 102 ∧
      world.store.creditRecord.map CreditBalance.balance = some 105 ∧ ¬ world.store.InSync :=
  ⟨rfl, rfl, by decide, by decide, by decide⟩

end SwarmLlm.Credit
