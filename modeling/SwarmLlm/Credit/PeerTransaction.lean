import SwarmLlm.Lib.Run
import SwarmLlm.Pool.Manager

namespace SwarmLlm.Credit

open Lib NodeId
open SwarmLlm.Pool (Primitives nodeBytes uuidBytes verifySig isFresh)

structure ShardId where
  modelId : String
  index : UInt32
  deriving DecidableEq

inductive TransactionReason where
  | inferenceServed (requestId : Uuid) (tokens : UInt32)
  | shardSeeding (shardId : ShardId) (bytes : UInt64)
  deriving DecidableEq

structure CreditTransaction where
  id : Uuid
  fromNode : NodeId
  toNode : NodeId
  amount : Int
  reason : TransactionReason
  timestamp : DateTime
  signatureFrom : Bytes
  signatureTo : Bytes
  deriving DecidableEq

-- What the transaction check finds out about the parties' rates and subnets; it is
-- skipped while another holder has the lock.
inductive AntiGaming where
  | accepted
  | violation
  | contended
  deriving DecidableEq

-- The balance, its record and the stored transactions. `credited` is ghost state:
-- the transactions whose amount went into the balance, newest first.
structure PeerStore where
  books : Books
  transactions : Table Uuid CreditTransaction
  credited : List CreditTransaction

section Handler

-- `reasonJson` is serde_json's text of the reason.
variable (prims : Primitives) (reasonJson : TransactionReason → Bytes) (me : NodeId) (tx : CreditTransaction)

def buildSigningPayload : Bytes :=
  prims.blake3 (uuidBytes tx.id ++ nodeBytes tx.fromNode ++ nodeBytes tx.toNode ++ leBytesI64 tx.amount ++
    reasonJson tx.reason ++ utf8 (prims.rfc3339 tx.timestamp))

def verifySingleSignature (key : NodeId) (isFrom : Bool) : Except SwarmError Unit :=
  let signature := if isFrom then tx.signatureFrom else tx.signatureTo
  if verifySig prims signature (buildSigningPayload prims reasonJson tx) key then .ok () else .error .invalidSignature

def verifySingleSignatures (fromKey toKey : NodeId) : Except SwarmError Unit := do
  verifySingleSignature prims reasonJson tx fromKey true
  verifySingleSignature prims reasonJson tx toKey false

def admitsTransaction (store : PeerStore) (tx : CreditTransaction) (antiGaming : AntiGaming) (now : DateTime) : Bool :=
  (store.transactions.lookup tx.id).isNone && isFresh now tx.timestamp "credit tx" && prims.keyValid tx.fromNode &&
    prims.keyValid tx.toNode && (verifySingleSignatures prims reasonJson tx tx.fromNode tx.toNode).isOk &&
    antiGaming != .violation

def applyIncoming (now : DateTime) : Prog PeerStore Unit := do
  match ← Prog.zoom PeerStore.books (fun store books => { store with books := books })
      (applyCreditDirectNoted tx.amount .earning now) with
  | .error _ => pure ()
  | .ok _ => Prog.modify fun store => { store with credited := tx :: store.credited }

-- A failed credit is only logged and the transaction is stored all the same.
def recordPeerCreditTransaction (antiGaming : AntiGaming) (now : DateTime) : Prog PeerStore Unit := do
  let store ← Prog.get
  if admitsTransaction prims reasonJson store tx antiGaming now then
    if tx.toNode = me then
      applyIncoming tx now
    let _ ← Prog.write fun store => { store with transactions := store.transactions.insert tx.id tx }
    pure ()
  else pure ()

structure Delivery where
  tx : CreditTransaction
  antiGaming : AntiGaming
  now : DateTime
  balanceError : Option String
  logError : Option String
  recordError : Option String
  deriving DecidableEq

def fateOf (error : Option String) : WriteFate :=
  match error with
  | none => .lands
  | some error => .fails error

variable (store : PeerStore) (delivery : Delivery)

def Delivery.fates : List WriteFate :=
  if delivery.tx.toNode = me then
    match delivery.balanceError with
    | none => [.lands, fateOf delivery.logError, fateOf delivery.recordError]
    | some error => [.fails error, fateOf delivery.recordError]
  else [fateOf delivery.recordError]

def deliver : PeerStore :=
  (recordPeerCreditTransaction prims reasonJson me delivery.tx delivery.antiGaming delivery.now
    ⟨store, delivery.fates me⟩).2.store

-- The amounts in the balance are those of the stored transactions addressed to
-- this node, each once.
def PeerStore.Matched : Prop :=
  store.credited.Perm (store.transactions.values.filter fun tx => tx.toNode = me)

instance (store : PeerStore) : Decidable (store.Matched me) := inferInstanceAs (Decidable (List.Perm _ _))

def Delivery.Credits (store : PeerStore) : Prop :=
  delivery.tx.toNode = me ∧ admitsTransaction prims reasonJson store delivery.tx delivery.antiGaming delivery.now

-- The credit and the record are written both or neither.
def Agrees : Prop :=
  delivery.Credits prims reasonJson me store → delivery.balanceError.isSome = delivery.recordError.isSome

variable {reasonJson} {prims}

theorem deliver_refused {store : PeerStore} {delivery : Delivery}
    (refused : ¬ admitsTransaction prims reasonJson store delivery.tx delivery.antiGaming delivery.now) :
    deliver prims reasonJson me store delivery = store := by
  change ((if admitsTransaction prims reasonJson store delivery.tx delivery.antiGaming delivery.now then _ else _ :
    Prog PeerStore Unit) ⟨store, delivery.fates me⟩).2.store = store
  rw [if_neg refused]
  rfl

def booksAfter (books : Books) (delivery : Delivery) : Books :=
  let credited := books.balance.creditBy delivery.tx.amount .earning delivery.now
  match delivery.balanceError with
  | none => ⟨credited, some credited⟩
  | some _ => ⟨credited.revertBy delivery.tx.amount .earning, books.record⟩

def storedAfter (transactions : Table Uuid CreditTransaction) (delivery : Delivery) : Table Uuid CreditTransaction :=
  match delivery.recordError with
  | none => transactions.insert delivery.tx.id delivery.tx
  | some _ => transactions

def creditedAfter (credited : List CreditTransaction) (delivery : Delivery) : List CreditTransaction :=
  match delivery.balanceError with
  | none => delivery.tx :: credited
  | some _ => credited

theorem deliver_credits (credits : delivery.Credits prims reasonJson me store) : deliver prims reasonJson me store delivery =
      ⟨booksAfter store.books delivery, storedAfter store.transactions delivery, creditedAfter store.credited delivery⟩ := by
  obtain ⟨mine, admitted⟩ := credits
  change ((if admitsTransaction prims reasonJson store delivery.tx delivery.antiGaming delivery.now then _ else _ :
    Prog PeerStore Unit) ⟨store, delivery.fates me⟩).2.store = _
  rw [if_pos admitted, Delivery.fates, if_pos mine, if_pos mine]
  obtain ⟨tx, antiGaming, now, balanceError, logError, recordError⟩ := delivery
  cases balanceError <;> cases logError <;> cases recordError <;> rfl

theorem deliver_elsewhere {store : PeerStore} {delivery : Delivery} (other : delivery.tx.toNode ≠ me)
    (admitted : admitsTransaction prims reasonJson store delivery.tx delivery.antiGaming delivery.now) :
    deliver prims reasonJson me store delivery = { store with transactions := storedAfter store.transactions delivery } := by
  change ((if admitsTransaction prims reasonJson store delivery.tx delivery.antiGaming delivery.now then _ else _ :
    Prog PeerStore Unit) ⟨store, delivery.fates me⟩).2.store = _
  rw [if_pos admitted, Delivery.fates, if_neg other, if_neg other]
  obtain ⟨tx, antiGaming, now, balanceError, logError, recordError⟩ := delivery
  cases recordError <;> rfl

theorem admitted_absent {store : PeerStore} {tx : CreditTransaction} {antiGaming : AntiGaming} {now : DateTime}
    (admitted : admitsTransaction prims reasonJson store tx antiGaming now) : store.transactions.lookup tx.id = none := by
  simp only [admitsTransaction, Bool.and_eq_true, Option.isNone_iff_eq_none] at admitted
  exact admitted.1.1.1.1.1

theorem stored_mine {transactions : Table Uuid CreditTransaction} {delivery : Delivery}
    (mine : delivery.tx.toNode = me) (absent : transactions.lookup delivery.tx.id = none) :
    ((storedAfter transactions delivery).values.filter fun tx => tx.toNode = me) =
      match delivery.recordError with
      | none => delivery.tx :: transactions.values.filter fun tx => tx.toNode = me
      | some _ => transactions.values.filter fun tx => tx.toNode = me := by
  unfold storedAfter
  cases delivery.recordError with
  | none =>
    simp only
    rw [Table.values_insert_fresh _ _ absent, List.filter_cons_of_pos (by simpa using mine)]
  | some error => rfl

theorem deliver_matched_iff (matched : store.Matched me) :
    (deliver prims reasonJson me store delivery).Matched me ↔ Agrees prims reasonJson me store delivery := by
  by_cases admitted : admitsTransaction prims reasonJson store delivery.tx delivery.antiGaming delivery.now
  · have absent := admitted_absent admitted
    by_cases mine : delivery.tx.toNode = me
    · have credits : delivery.Credits prims reasonJson me store := ⟨mine, admitted⟩
      rw [deliver_credits me store delivery credits, PeerStore.Matched, stored_mine me mine absent]
      have sameLength := matched.length_eq
      unfold creditedAfter Agrees
      cases balance : delivery.balanceError <;> cases record : delivery.recordError <;> simp only
      · exact iff_of_true (matched.cons _) fun _ => trivial
      · -- Credited and not stored.
        refine iff_of_false (fun perm => ?_) fun agrees => Bool.false_ne_true (agrees credits)
        have longer := perm.length_eq
        simp only [List.length_cons] at longer
        omega
      · -- Stored and not credited.
        refine iff_of_false (fun perm => ?_) fun agrees => Bool.false_ne_true (agrees credits).symm
        have longer := perm.length_eq
        simp only [List.length_cons] at longer
        omega
      · exact iff_of_true matched fun _ => rfl
    rw [deliver_elsewhere me mine admitted]
    refine iff_of_true ?_ fun credits => (mine credits.1).elim
    unfold PeerStore.Matched storedAfter
    cases delivery.recordError with
    | none =>
      simp only
      rw [Table.values_insert_fresh _ _ absent, List.filter_cons_of_neg (by simpa using mine)]
      exact matched
    | some error => exact matched
  · rw [deliver_refused me admitted]
    exact iff_of_true matched fun credits => (admitted credits.2).elim

variable (reasonJson) (prims)

def CreditFits : Prop :=
  delivery.Credits prims reasonJson me store →
    IsI64 store.books.balance.balance ∧ Fits store.books.balance delivery.tx.amount .earning

def creditedTotals (credited : List CreditTransaction) : Totals :=
  (credited.map fun tx => contribution tx.amount .earning).sum

theorem deliver_totals (fits : CreditFits prims reasonJson me store delivery) :
    (deliver prims reasonJson me store delivery).books.balance.totals + creditedTotals store.credited =
      store.books.balance.totals + creditedTotals (deliver prims reasonJson me store delivery).credited := by
  by_cases admitted : admitsTransaction prims reasonJson store delivery.tx delivery.antiGaming delivery.now
  · by_cases mine : delivery.tx.toNode = me
    · have credits : delivery.Credits prims reasonJson me store := ⟨mine, admitted⟩
      obtain ⟨range, room⟩ := fits credits
      have raised := credit_totals .earning delivery.now room
      rw [deliver_credits me store delivery credits]
      unfold booksAfter creditedAfter
      cases delivery.balanceError with
      | none =>
        simp only
        rw [raised, creditedTotals, creditedTotals, List.map_cons, List.sum_cons, add_assoc]
      | some error =>
        simp only
        rw [revert_totals ?_ raised]
        rw [credit_by_balance, sat_add_exact room.1, add_sub_cancel_right]
        exact range
    · rw [deliver_elsewhere me mine admitted]
  · rw [deliver_refused me admitted]

theorem run_totals {deliveries : List Delivery}
    (fits : RunMeets (deliver prims reasonJson me) (CreditFits prims reasonJson me) store deliveries) :
    (run (deliver prims reasonJson me) store deliveries).books.balance.totals + creditedTotals store.credited =
      store.books.balance.totals + creditedTotals (run (deliver prims reasonJson me) store deliveries).credited := by
  induction deliveries generalizing store with
  | nil => rfl
  | cons delivery rest ih =>
    have first := deliver_totals prims reasonJson me store delivery fits.1
    have later := ih (deliver prims reasonJson me store delivery) fits.2
    rw [run_cons]
    let middle := deliver prims reasonJson me store delivery
    let final := run (deliver prims reasonJson me) middle rest
    apply add_right_cancel (b := creditedTotals middle.credited)
    calc final.books.balance.totals + creditedTotals store.credited + creditedTotals middle.credited
        = final.books.balance.totals + creditedTotals middle.credited + creditedTotals store.credited := add_right_comm _ _ _
      _ = middle.books.balance.totals + creditedTotals final.credited + creditedTotals store.credited := by rw [later]
      _ = middle.books.balance.totals + creditedTotals store.credited + creditedTotals final.credited := add_right_comm _ _ _
      _ = store.books.balance.totals + creditedTotals middle.credited + creditedTotals final.credited := by rw [first]
      _ = store.books.balance.totals + creditedTotals final.credited + creditedTotals middle.credited := add_right_comm _ _ _

theorem recorded_iff_credited (deliveries : List Delivery) (matched : store.Matched me) :
    (RunMeets (deliver prims reasonJson me)
        (fun store delivery => (deliver prims reasonJson me store delivery).Matched me) store deliveries ↔
      RunMeets (deliver prims reasonJson me) (Agrees prims reasonJson me) store deliveries) ∧
    (RunMeets (deliver prims reasonJson me) (CreditFits prims reasonJson me) store deliveries →
      (run (deliver prims reasonJson me) store deliveries).books.balance.totals + creditedTotals store.credited =
        store.books.balance.totals + creditedTotals (run (deliver prims reasonJson me) store deliveries).credited) :=
  ⟨run_stays_iff (deliver_matched_iff me) store matched, run_totals prims reasonJson me store⟩

end Handler

def sampleTx (amount : Int) : CreditTransaction :=
  let signature (node : NodeId) := nodeBytes node ++ nodeBytes node
  { id := Uuid.ofByte 7, fromNode := ofByte 2, toNode := ofByte 1, amount := amount
    reason := .inferenceServed (Uuid.ofByte 3) 5, timestamp := 0
    signatureFrom := signature (ofByte 2), signatureTo := signature (ofByte 1) }

def peerStart : PeerStore := ⟨⟨⟨ofByte 1, 100, 100, 0, 0, 0⟩, none⟩, ∅, []⟩

theorem recorded_iff_credited_sample :
    RunMeets (deliver Pool.samplePrims (fun _ => []) (ofByte 1))
      (fun store delivery => (deliver Pool.samplePrims (fun _ => []) (ofByte 1) store delivery).Matched (ofByte 1))
      peerStart [⟨sampleTx 40, .accepted, 0, none, none, none⟩, ⟨sampleTx 40, .accepted, 1, none, none, none⟩] := by
  exact (recorded_iff_credited Pool.samplePrims _ (ofByte 1) peerStart _ (.refl _)).1.mpr
    ⟨fun _ => rfl, fun _ => rfl, trivial⟩

-- The record of the first delivery fails, so the second credits the amount again;
-- and a credit that fails is stored as if it had been made.
theorem recorded_credit_diverges :
    let deliverAll := run (deliver Pool.samplePrims (fun _ => []) (ofByte 1)) peerStart
    let twice := deliverAll [⟨sampleTx 40, .accepted, 0, none, none, some "disk full"⟩,
      ⟨sampleTx 40, .accepted, 1, none, none, none⟩]
    let never := deliverAll [⟨sampleTx 40, .accepted, 0, some "disk full", none, none⟩,
      ⟨sampleTx 40, .accepted, 1, none, none, none⟩]
    peerStart.Matched (ofByte 1) ∧
      twice.transactions.lookup (Uuid.ofByte 7) = some (sampleTx 40) ∧ twice.books.balance.balance = 180 ∧
      never.transactions.lookup (Uuid.ofByte 7) = some (sampleTx 40) ∧ never.books.balance.balance = 100 := by
  decide +kernel

end SwarmLlm.Credit
