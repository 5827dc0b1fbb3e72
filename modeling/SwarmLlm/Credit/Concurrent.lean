import SwarmLlm.Credit.EscrowInvariant
import SwarmLlm.Lib.Interleave

namespace SwarmLlm.Credit

open Lib Prog Routine Prog

inductive Settle where
  | release (toNode : NodeId) (actualCost : Int) (now : DateTime)
  | refund (now : DateTime)
  deriving DecidableEq

def Settle.settled (settle : Settle) (entry : EscrowEntry) : EscrowEntry :=
  match settle with
  | .release toNode _ _ => { entry with status := .released, toNode := some toNode }
  | .refund _ => { entry with status := .refunded }

def Settle.unsettled (settle : Settle) (previousToNode : Option NodeId) (entry : EscrowEntry) : EscrowEntry :=
  match settle with
  | .release _ _ _ => { entry with status := .pending, toNode := previousToNode }
  | .refund _ => { entry with status := .pending }

-- The sections that run under a lock or are one database write. `expire` holds
-- the entry's shard across its write, `payExpired` the balance.
inductive CreditOp where
  | credit (delta : Int) (kind : CreditDelta) (now : DateTime)
  | revert (delta : Int) (kind : CreditDelta)
  | readBalance
  | putBalance (snapshot : CreditBalance)
  | appendCreditLog
  | putEscrow (id : Uuid) (entry : EscrowEntry)
  | insert (id : Uuid) (entry : EscrowEntry)
  | claim (id : Uuid) (settle : Settle)
  | putSettled (id : Uuid) (entry : EscrowEntry)
  | unclaim (id : Uuid) (settle : Settle) (previousToNode : Option NodeId)
  | remove (id : Uuid)
  | collect (shard : Nat) (now : DateTime)
  | expire (id : Uuid) (now : DateTime)
  | payExpired (id : Uuid) (amount : Int) (now : DateTime)
  | unexpire (id : Uuid)

open CreditOp

abbrev CreditOp.Reply : CreditOp → Type
  | .credit _ _ _ => CreditBalance
  | .revert _ _ => Unit
  | .readBalance => CreditBalance
  | .putBalance _ => Except String Unit
  | .appendCreditLog => Except String Unit
  | .putEscrow _ _ => Except String Unit
  | .insert _ _ => Unit
  | .claim _ _ => Except SwarmError EscrowEntry
  | .putSettled _ _ => Except String Unit
  | .unclaim _ _ _ => Unit
  | .remove _ => Unit
  | .collect _ _ => List Uuid
  | .expire _ _ => Option EscrowEntry
  | .payExpired _ _ _ => Except String Unit
  | .unexpire _ => Unit

abbrev Thread (R : Type) := Routine CreditOp.Reply R

-- The entry map keeps its locks by shard; the sweep reads one shard at a time.
variable (shardOf : Uuid → Nat)

def CreditOp.handler : (op : CreditOp) → Prog CreditStore op.Reply
  | .credit delta kind now => do
    modify fun store => { store with balance := store.balance.creditBy delta kind now }
    let store ← get
    pure store.balance
  | .revert delta kind => modify fun store => { store with balance := store.balance.revertBy delta kind }
  | .readBalance => do
    let store ← get
    pure store.balance
  | .putBalance snapshot => write fun store => { store with creditRecord := some snapshot }
  | .appendCreditLog => write id
  | .putEscrow id entry => write (putEntry id entry)
  | .insert id entry => modify (setEntry id entry)
  | .claim id settle => do
    let store ← get
    match findPending store id with
    | .error error => pure (.error error)
    | .ok entry => do
      modify (setEntry id (settle.settled entry))
      pure (.ok entry)
  | .putSettled id entry => write fun store => notePaid id (putEntry id entry store)
  | .unclaim id settle previousToNode => modify fun store =>
    match store.entries.lookup id with
    | none => store
    | some entry => setEntry id (settle.unsettled previousToNode entry) store
  | .remove id => modify (dropEntry id)
  | .collect shard now => do
    let store ← get
    pure ((expiredIds now store.entries).filter fun id => shardOf id = shard)
  | .expire id _ => do
    let store ← get
    match findPending store id with
    | .error _ => pure none
    | .ok entry => do
      let expired := { entry with status := .expired }
      modify (setEntry id expired)
      match ← write (putEntry id expired) with
      | .error _ => do
        modify (setEntry id entry)
        pure none
      | .ok _ => pure (some entry)
  | .payExpired id amount now => do
    let before ← get
    let raised := { before.balance with balance := satAdd before.balance.balance amount, lastUpdated := now }
    modify fun store => { store with balance := raised }
    match ← write fun store => notePaid id { store with creditRecord := some raised } with
    | .error error => do
      modify fun store => { store with balance := { raised with balance := before.balance.balance } }
      pure (.error error)
    | .ok _ => pure (.ok ())
  | .unexpire id => do
    let store ← get
    match store.entries.lookup id with
    | none => pure ()
    | some entry => do
      let restored := { entry with status := .pending }
      modify (setEntry id restored)
      let _ ← write (putEntry id restored)
      pure ()

namespace Thread

open Routine (perform)

def applyCreditDirectNoted (delta : Int) (kind : CreditDelta) (now : DateTime) : Thread (Except SwarmError Unit) := do
  let snapshot ← perform (credit delta kind now)
  match ← perform (putBalance snapshot) with
  | .error error => do
    perform (revert delta kind)
    pure (.error (.database error))
  | .ok _ => do
    let _ ← perform appendCreditLog
    pure (.ok ())

def persistBalance : Thread (Except SwarmError Unit) := do
  let snapshot ← perform readBalance
  match ← perform (putBalance snapshot) with
  | .error error => pure (.error (.database error))
  | .ok _ => pure (.ok ())

def applyAndPersist (delta : Int) (kind : CreditDelta) (now : DateTime) : Thread (Except SwarmError Unit) := do
  let _ ← perform (credit delta kind now)
  persistBalance

def createEscrow (requestId : Uuid) (amount : Int) (fromNode : NodeId) (id : Uuid) (now : DateTime) :
    Thread (Except SwarmError Uuid) :=
  if amount ≤ 0 then
    pure (.error (.creditError ("Escrow amount must be positive, got " ++ toString amount)))
  else do
    let entry : EscrowEntry := ⟨id, requestId, amount, fromNode, none, now, .pending⟩
    match ← applyCreditDirectNoted (-amount) .spending now with
    | .error error => pure (.error (.creditError ("Failed to persist balance: " ++ error.display)))
    | .ok _ =>
      match ← perform (putEscrow id entry) with
      | .error error => pure (.error (.creditError ("Failed to persist escrow: " ++ (SwarmError.database error).display)))
      | .ok _ =>
        perform (insert id entry)
        pure (.ok id)

def settleDelta (delta : Int) (now : DateTime) : Thread Unit :=
  if 0 < delta then do
    let _ ← applyCreditDirectNoted delta .refund now
    pure ()
  else if delta < 0 then do
    let _ ← applyCreditDirectNoted delta .spending now
    pure ()
  else pure ()

-- What `release_escrow` and `refund_escrow` share: claim the entry, persist it,
-- put it back if that fails, else drop it and pay.
def settleEscrow (id : Uuid) (settle : Settle) (failure : String) (pay : EscrowEntry → Thread Int) :
    Thread (Except SwarmError Int) := do
  match ← perform (claim id settle) with
  | .error error => pure (.error error)
  | .ok entry =>
    match ← perform (putSettled id (settle.settled entry)) with
    | .error error => do
      perform (unclaim id settle entry.toNode)
      pure (.error (.database (failure ++ (SwarmError.database error).display)))
    | .ok _ => do
      perform (remove id)
      let paid ← pay entry
      pure (.ok paid)

def releaseEscrow (id : Uuid) (toNode : NodeId) (actualCost : Int) (now : DateTime) : Thread (Except SwarmError Int) :=
  settleEscrow id (.release toNode actualCost now) "Failed to persist escrow release: " fun entry => do
    let actual := max actualCost 0
    settleDelta (entry.amount - actual) now
    pure actual

def refundEscrow (id : Uuid) (now : DateTime) : Thread (Except SwarmError Int) :=
  settleEscrow id (.refund now) "Failed to persist escrow refund: " fun entry => do
    let _ ← applyCreditDirectNoted entry.amount .refund now
    pure entry.amount

def expireOne (now : DateTime) (id : Uuid) : Thread Bool := do
  match ← perform (expire id now) with
  | none => pure false
  | some entry =>
    match ← perform (payExpired id entry.amount now) with
    | .error _ => do
      perform (unexpire id)
      pure false
    | .ok _ => do
      perform (remove id)
      pure true

def collectExpired (now : DateTime) : List Nat → Thread (List Uuid)
  | [] => pure []
  | shard :: rest => do
    let found ← perform (collect shard now)
    let others ← collectExpired now rest
    pure (found ++ others)

def expireEach (now : DateTime) : List Uuid → Thread Nat
  | [] => pure 0
  | id :: rest => do
    let expired ← expireOne now id
    let others ← expireEach now rest
    pure (if expired then others + 1 else others)

def cleanupExpired (shards : Nat) (now : DateTime) : Thread Nat := do
  let ids ← collectExpired now (List.range shards)
  expireEach now ids

end Thread

variable (delta : Int) (store : CreditStore) (id : Uuid) (now : DateTime)

theorem alone_apply_credit (kind : CreditDelta) (now : DateTime) :
    (Thread.applyCreditDirectNoted delta kind now).alone (handler shardOf) = applyCredit delta kind now := by
  funext machine
  obtain ⟨store, fates⟩ := machine
  rcases fates with _ | ⟨_ | _ | _ | _, _ | ⟨_ | _ | _ | _, rest⟩⟩ <;> rfl

theorem alone_settle_delta : (Thread.settleDelta delta now).alone (handler shardOf) = settleDelta delta now := by
  unfold Thread.settleDelta settleDelta
  split
  · simp only [alone_bind, alone_apply_credit, alone_pure]
  · split
    · simp only [alone_bind, alone_apply_credit, alone_pure]
    · rfl

theorem alone_create_escrow (requestId : Uuid) (amount : Int) (fromNode : NodeId) (id : Uuid) (now : DateTime) :
    (Thread.createEscrow requestId amount fromNode id now).alone (handler shardOf) =
      createEscrow requestId amount fromNode id now := by
  unfold Thread.createEscrow createEscrow
  split
  · rfl
  simp only [alone_bind, alone_apply_credit]
  apply congrArg (applyCredit (-amount) .spending now >>= ·)
  funext applied
  cases applied with
  | error error => rfl
  | ok _ =>
    simp only [alone_bind, alone_perform]
    apply congrArg (write (putEntry id _) >>= ·)
    funext put
    cases put <;> rfl

variable {entry : EscrowEntry}

theorem unsettled_settled {settle : Settle} (pending : entry.status = .pending) :
    settle.unsettled entry.toNode (settle.settled entry) = entry := by
  cases settle <;> cases entry <;> cases pending <;> rfl

theorem unclaim_claimed (settle : Settle) (store : CreditStore) (fates : List WriteFate) (pending : entry.status = .pending) :
    handler shardOf (.unclaim id settle entry.toNode) ⟨setEntry id (settle.settled entry) store, fates⟩ =
      (.done (), ⟨setEntry id entry (setEntry id (settle.settled entry) store), fates⟩) := by
  have held : (setEntry id (settle.settled entry) store).entries.lookup id = some (settle.settled entry) :=
    AList.lookup_insert store.entries
  change (Outcome.done (), (⟨match (setEntry id (settle.settled entry) store).entries.lookup id with
    | none => _
    | some claimed => _, fates⟩ : Machine CreditStore)) = _
  rw [held]
  simp only [unsettled_settled pending]

theorem claim_result (settle : Settle) (store : CreditStore) (fates : List WriteFate) :
    handler shardOf (.claim id settle) ⟨store, fates⟩ =
      match findPending store id with
      | .error error => (.done (.error error), ⟨store, fates⟩)
      | .ok entry => (.done (.ok entry), ⟨setEntry id (settle.settled entry) store, fates⟩) := by
  change (match findPending store id with
    | .error error => _
    | .ok entry => _ : Prog CreditStore (Except SwarmError EscrowEntry)) ⟨store, fates⟩ = _
  cases findPending store id <;> rfl

theorem expire_result : handler shardOf (.expire id now) ⟨store, []⟩ =
      match findPending store id with
      | .error _ => (.done none, ⟨store, []⟩)
      | .ok entry => (.done (some entry),
          ⟨putEntry id { entry with status := .expired } (setEntry id { entry with status := .expired } store), []⟩) := by
  change (match findPending store id with
    | .error _ => _
    | .ok entry => _ : Prog CreditStore (Option EscrowEntry)) ⟨store, []⟩ = _
  cases findPending store id <;> rfl

theorem handler_returns (op : CreditOp) (store : CreditStore) :
    ∃ reply after, handler shardOf op ⟨store, []⟩ = (.done reply, after) := by
  cases op with
  | claim id settle =>
    rw [claim_result]
    cases findPending store id <;> exact ⟨_, _, rfl⟩
  | expire id now =>
    rw [expire_result]
    cases findPending store id <;> exact ⟨_, _, rfl⟩
  | unexpire id =>
    change ∃ reply after, (match store.entries.lookup id with
      | none => _
      | some entry => _ : Prog CreditStore Unit) ⟨store, []⟩ = (.done reply, after)
    cases store.entries.lookup id <;> exact ⟨_, _, rfl⟩
  | _ => exact ⟨_, _, rfl⟩

theorem alone_settle_escrow (settle : Settle) (failure : String) (pay : EscrowEntry → Thread Int) :
    (Thread.settleEscrow id settle failure pay).alone (handler shardOf) = (do
      let store ← get
      match findPending store id with
      | .error error => pure (.error error)
      | .ok entry =>
        modify (setEntry id (settle.settled entry))
        match ← write fun store => notePaid id (putEntry id (settle.settled entry) store) with
        | .error error =>
          modify (setEntry id entry)
          pure (.error (.database (failure ++ (SwarmError.database error).display)))
        | .ok _ =>
          modify (dropEntry id)
          let paid ← (pay entry).alone (handler shardOf)
          pure (.ok paid)) := by
  funext machine
  obtain ⟨store, fates⟩ := machine
  have claim := claim_result shardOf id settle store fates
  unfold Thread.settleEscrow
  simp only [alone_bind, alone_perform]
  change _ = (match findPending store id with
    | .error error => _
    | .ok entry => _ : Prog CreditStore (Except SwarmError Int)) ⟨store, fates⟩
  cases found : findPending store id with
  | error error =>
    rw [found] at claim
    rw [bind_done claim]
    rfl
  | ok entry =>
    rw [found] at claim
    rw [bind_done claim]
    have pending := (find_pending_ok store id entry found).2
    have paying : (do
        let paid ← pay entry
        pure (.ok paid) : Thread (Except SwarmError Int)).alone (handler shardOf) = (do
        let paid ← (pay entry).alone (handler shardOf)
        pure (.ok paid)) := alone_bind (handler shardOf) (pay entry) _
    rcases fates with _ | ⟨_ | error | _ | _, rest⟩
    · exact congrFun paying _
    · exact congrFun paying _
    · have back := unclaim_claimed shardOf id settle store rest pending
      change (handler shardOf (.unclaim id settle entry.toNode) >>= fun _ =>
        (pure (.error (.database (failure ++ (SwarmError.database error).display))) : Prog CreditStore (Except SwarmError Int)))
        ⟨setEntry id (settle.settled entry) store, rest⟩ = _
      rw [bind_done back]
      rfl
    · rfl
    · rfl

theorem alone_release_escrow (toNode : NodeId) (actualCost : Int) (now : DateTime) :
    (Thread.releaseEscrow id toNode actualCost now).alone (handler shardOf) =
      releaseEscrow id toNode actualCost now := by
  rw [Thread.releaseEscrow, alone_settle_escrow]
  simp only [alone_bind, alone_settle_delta, bind_assoc]
  rfl

theorem alone_refund_escrow : (Thread.refundEscrow id now).alone (handler shardOf) = refundEscrow id now := by
  rw [Thread.refundEscrow, alone_settle_escrow]
  simp only [alone_bind, alone_apply_credit, bind_assoc]
  rfl

theorem unexpire_held {entry : EscrowEntry} {store : CreditStore} {fates : List WriteFate}
    (held : store.entries.lookup id = some { entry with status := .expired }) (pending : entry.status = .pending) :
    handler shardOf (.unexpire id) ⟨store, fates⟩ = (do
      modify (setEntry id entry)
      let _ ← write (putEntry id entry)
      pure () : Prog CreditStore Unit) ⟨store, fates⟩ := by
  change (match store.entries.lookup id with
    | none => _
    | some expired => _ : Prog CreditStore Unit) ⟨store, fates⟩ = _
  rw [held]
  cases entry
  cases pending
  rfl

theorem alone_expire_one (id : Uuid) : (Thread.expireOne now id).alone (handler shardOf) = expireOne now id := by
  funext machine
  obtain ⟨store, fates⟩ := machine
  unfold Thread.expireOne
  simp only [alone_bind, alone_perform]
  change ((match findPending store id with
    | .error _ => _
    | .ok entry => _ : Prog CreditStore (Option EscrowEntry)) >>= _) ⟨store, fates⟩ =
    (match findPending store id with
    | .error error => _
    | .ok entry => _ : Prog CreditStore Bool) ⟨store, fates⟩
  cases found : findPending store id with
  | error error => rfl
  | ok entry =>
    have pending := (find_pending_ok store id entry found).2
    have held : (setEntry id { entry with status := .expired } store).entries.lookup id =
      some { entry with status := .expired } := AList.lookup_insert store.entries
    rcases fates with _ | ⟨_ | _ | _ | _, _ | ⟨_ | error | _ | _, rest⟩⟩
    case cons.lands.cons.fails =>
      change (handler shardOf (.unexpire id) >>= fun _ => (pure false : Prog CreditStore Bool)) ⟨_, rest⟩ = _
      refine (bind_at (unexpire_held shardOf id ?_ pending)).trans ?_
      · exact held
      · rcases rest with _ | ⟨_ | _ | _ | _, rest⟩ <;> rfl
    all_goals rfl

def quietStore : CreditStore :=
  ⟨⟨NodeId.ofByte 1, 100, 100, 0, 0, 0⟩, ∅, some ⟨NodeId.ofByte 1, 100, 100, 0, 0, 0⟩, ∅, []⟩

end SwarmLlm.Credit
