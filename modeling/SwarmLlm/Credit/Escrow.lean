import SwarmLlm.Credit.Balance
import SwarmLlm.Lib.Table

namespace SwarmLlm.Credit

open Lib Prog

inductive EscrowStatus where
  | pending
  | released
  | refunded
  | expired
  deriving DecidableEq

def EscrowStatus.debug : EscrowStatus → String
  | .pending => "Pending"
  | .released => "Released"
  | .refunded => "Refunded"
  | .expired => "Expired"

structure EscrowEntry where
  id : Uuid
  requestId : Uuid
  amount : Int
  fromNode : NodeId
  toNode : Option NodeId
  createdAt : DateTime
  status : EscrowStatus
  deriving DecidableEq

def escrowTtl : Int := 600 * secondsNs

def errNotFound : String := "Escrow not found"

-- The node's credit data: balance and entries in memory, the credit record and
-- the escrow tree on disk. `paid` is ghost state: the ids whose settlement became
-- durable, newest first.
structure CreditStore where
  balance : CreditBalance
  entries : Table Uuid EscrowEntry
  creditRecord : Option CreditBalance
  escrowTree : Table Uuid EscrowEntry
  paid : List Uuid

def CreditStore.books (store : CreditStore) : Books := ⟨store.balance, store.creditRecord⟩

def CreditStore.withBooks (store : CreditStore) (books : Books) : CreditStore :=
  { store with balance := books.balance, creditRecord := books.record }

def applyCredit (delta : Int) (kind : CreditDelta) (now : DateTime) : Prog CreditStore (Except SwarmError Unit) :=
  zoom CreditStore.books CreditStore.withBooks (applyCreditDirectNoted delta kind now)

def pendingAmount (entry : EscrowEntry) : Int := if entry.status = .pending then entry.amount else 0

def pendingTotal (entries : Table Uuid EscrowEntry) : Int := Table.total pendingAmount entries

-- `EscrowManager::new` keeps the Pending records, each under the id it carries.
def loadPending (tree : Table Uuid EscrowEntry) : Table Uuid EscrowEntry :=
  Table.collect EscrowEntry.id (fun entry => entry.status = .pending) tree.values

def restart (nodeId : NodeId) (now : DateTime) (store : CreditStore) : CreditStore :=
  { store with balance := restoreBalance nodeId now store.creditRecord, entries := loadPending store.escrowTree }

variable (id : Uuid)

def setEntry (entry : EscrowEntry) (store : CreditStore) : CreditStore :=
  { store with entries := store.entries.insert id entry }

def putEntry (entry : EscrowEntry) (store : CreditStore) : CreditStore :=
  { store with escrowTree := store.escrowTree.insert id entry }

def dropEntry (store : CreditStore) : CreditStore :=
  { store with entries := store.entries.erase id }

def notePaid (store : CreditStore) : CreditStore :=
  { store with paid := id :: store.paid }

def createEscrow (requestId : Uuid) (amount : Int) (fromNode : NodeId) (id : Uuid) (now : DateTime) :
    Prog CreditStore (Except SwarmError Uuid) :=
  if amount ≤ 0 then
    pure (.error (.creditError ("Escrow amount must be positive, got " ++ toString amount)))
  else do
    let entry : EscrowEntry := ⟨id, requestId, amount, fromNode, none, now, .pending⟩
    match ← applyCredit (-amount) .spending now with
    | .error error => pure (.error (.creditError ("Failed to persist balance: " ++ error.display)))
    | .ok _ =>
      match ← write (putEntry id entry) with
      | .error error => pure (.error (.creditError ("Failed to persist escrow: " ++ (SwarmError.database error).display)))
      | .ok _ =>
        modify (setEntry id entry)
        pure (.ok id)

def findPending (store : CreditStore) (id : Uuid) : Except SwarmError EscrowEntry :=
  match store.entries.lookup id with
  | none => .error (.creditError errNotFound)
  | some entry =>
    if entry.status = .pending then .ok entry
    else .error (.creditError ("Escrow " ++ id.display ++ " is " ++ entry.status.debug ++ ", not Pending"))

-- The reconciliation of `release_escrow`: a failed update is only logged.
def settleDelta (delta : Int) (now : DateTime) : Prog CreditStore Unit :=
  if 0 < delta then do
    let _ ← applyCredit delta .refund now
    pure ()
  else if delta < 0 then do
    let _ ← applyCredit delta .spending now
    pure ()
  else pure ()

def releaseEscrow (toNode : NodeId) (actualCost : Int) (now : DateTime) :
    Prog CreditStore (Except SwarmError Int) := do
  let store ← get
  match findPending store id with
  | .error error => pure (.error error)
  | .ok entry =>
    let settled := { entry with status := .released, toNode := some toNode }
    modify (setEntry id settled)
    match ← write fun store => notePaid id (putEntry id settled store) with
    | .error error =>
      modify (setEntry id entry)
      pure (.error (.database ("Failed to persist escrow release: " ++ (SwarmError.database error).display)))
    | .ok _ =>
      modify (dropEntry id)
      let actual := max actualCost 0
      settleDelta (entry.amount - actual) now
      pure (.ok actual)

def refundEscrow (now : DateTime) : Prog CreditStore (Except SwarmError Int) := do
  let store ← get
  match findPending store id with
  | .error error => pure (.error error)
  | .ok entry =>
    let settled := { entry with status := .refunded }
    modify (setEntry id settled)
    match ← write fun store => notePaid id (putEntry id settled store) with
    | .error error =>
      modify (setEntry id entry)
      pure (.error (.database ("Failed to persist escrow refund: " ++ (SwarmError.database error).display)))
    | .ok _ =>
      modify (dropEntry id)
      let _ ← applyCredit entry.amount .refund now
      pure (.ok entry.amount)

-- One expired id. The balance is raised without the counters, and a failed
-- balance write puts the entry back to Pending for the next sweep.
def expireOne (now : DateTime) (id : Uuid) : Prog CreditStore Bool := do
  let store ← get
  match findPending store id with
  | .error _ => pure false
  | .ok entry =>
    let expired := { entry with status := .expired }
    modify (setEntry id expired)
    match ← write (putEntry id expired) with
    | .error _ =>
      modify (setEntry id entry)
      pure false
    | .ok _ =>
      let before ← get
      let raised := { before.balance with balance := satAdd before.balance.balance entry.amount, lastUpdated := now }
      modify fun store => { store with balance := raised }
      match ← write fun store => notePaid id { store with creditRecord := some raised } with
      | .error _ =>
        modify fun store => { store with balance := { raised with balance := before.balance.balance } }
        modify (setEntry id entry)
        let _ ← write (putEntry id entry)
        pure false
      | .ok _ =>
        modify (dropEntry id)
        pure true

def expiredIds (now : DateTime) (entries : Table Uuid EscrowEntry) : List Uuid :=
  (entries.values.filter fun entry => entry.status = .pending ∧ escrowTtl < now - entry.createdAt).map EscrowEntry.id

def cleanupExpired (now : DateTime) : Prog CreditStore Nat := do
  let store ← get
  countEach (expiredIds now store.entries) (expireOne now)

end SwarmLlm.Credit
