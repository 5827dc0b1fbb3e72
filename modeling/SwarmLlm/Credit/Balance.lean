import Mathlib.Algebra.Group.Prod
import SwarmLlm.Types
import SwarmLlm.Lib.Saturating
import SwarmLlm.Lib.Faulty

namespace SwarmLlm.Credit

open Lib

structure CreditBalance where
  nodeId : NodeId
  balance : Int
  lifetimeEarned : Nat
  lifetimeSpent : Nat
  lifetimeRefunded : Nat
  lastUpdated : DateTime
  deriving DecidableEq

open CreditBalance

def CreditBalance.zero (nodeId : NodeId) (now : DateTime) : CreditBalance := ⟨nodeId, 0, 0, 0, 0, now⟩

variable (bal : CreditBalance)

def CreditBalance.netSpent : Nat := bal.lifetimeSpent - bal.lifetimeRefunded

def CreditBalance.booksBalance : Bool :=
  (bal.lifetimeEarned : Int) - bal.lifetimeSpent + bal.lifetimeRefunded == bal.balance

-- What the balance holds beyond what the lifetime counters explain.
def CreditBalance.gap : Int :=
  bal.balance - bal.lifetimeEarned + bal.lifetimeSpent - bal.lifetimeRefunded

inductive CreditDelta where
  | earning
  | spending
  | refund
  deriving DecidableEq

variable (delta : Int) (kind : CreditDelta)

-- The counter named by the kind moves by the magnitude of the change, whatever
-- the change's sign.
def CreditBalance.creditBy (now : DateTime) : CreditBalance :=
  let bal := { bal with balance := satAdd bal.balance delta, lastUpdated := now }
  match kind with
  | .earning => { bal with lifetimeEarned := satAddU bal.lifetimeEarned delta.natAbs }
  | .spending => { bal with lifetimeSpent := satAddU bal.lifetimeSpent delta.natAbs }
  | .refund => { bal with lifetimeRefunded := satAddU bal.lifetimeRefunded delta.natAbs }

def CreditBalance.revertBy : CreditBalance :=
  let bal := { bal with balance := satSub bal.balance delta }
  match kind with
  | .earning => { bal with lifetimeEarned := bal.lifetimeEarned - delta.natAbs }
  | .spending => { bal with lifetimeSpent := bal.lifetimeSpent - delta.natAbs }
  | .refund => { bal with lifetimeRefunded := bal.lifetimeRefunded - delta.natAbs }

def CreditBalance.counter : CreditDelta → Nat
  | .earning => bal.lifetimeEarned
  | .spending => bal.lifetimeSpent
  | .refund => bal.lifetimeRefunded

def Fits : Prop :=
  IsI64 (bal.balance + delta) ∧ bal.counter kind + delta.natAbs ≤ u64Max

abbrev Totals := Int × Nat × Nat × Nat

def CreditBalance.totals : Totals :=
  (bal.balance, bal.lifetimeEarned, bal.lifetimeSpent, bal.lifetimeRefunded)

def contribution : Totals :=
  match kind with
  | .earning => (delta, delta.natAbs, 0, 0)
  | .spending => (delta, 0, delta.natAbs, 0)
  | .refund => (delta, 0, 0, delta.natAbs)

def backfillHistoricalRefunds : CreditBalance :=
  if bal.gap ≤ 0 then bal
  else { bal with lifetimeRefunded := satAddU bal.lifetimeRefunded (min bal.gap.toNat u64Max) }

-- The balance in memory and the one under `credits/balance` in the database.
structure Books where
  balance : CreditBalance
  record : Option CreditBalance
  deriving DecidableEq

-- What `CreditLedger::new` leaves in memory: the stored record if it is this
-- node's own, else the zero record it was given.
def restoreBalance (nodeId : NodeId) (now : DateTime) (record : Option CreditBalance) : CreditBalance :=
  match record with
  | none => zero nodeId now
  | some stored => if stored.nodeId = nodeId then backfillHistoricalRefunds stored else zero nodeId now

-- The audit line is best-effort: nothing reads its outcome, but the process may
-- stop at that write too.
def applyCreditDirectNoted (now : DateTime) : Prog Books (Except SwarmError Unit) := do
  Prog.modify fun books => { books with balance := books.balance.creditBy delta kind now }
  let put ← Prog.write fun books => { books with record := some books.balance }
  match put with
  | .error error =>
    Prog.modify fun books => { books with balance := books.balance.revertBy delta kind }
    pure (.error (.database error))
  | .ok _ =>
    let _ ← Prog.write id
    pure (.ok ())

variable (nodeId : NodeId) (bal : CreditBalance) (delta : Int) (kind : CreditDelta) (now : DateTime)

@[simp] theorem credit_by_node : (bal.creditBy delta kind now).nodeId = bal.nodeId := by
  cases kind <;> rfl

@[simp] theorem credit_by_balance : (bal.creditBy delta kind now).balance = satAdd bal.balance delta := by
  cases kind <;> rfl

variable {bal}

@[simp] theorem revert_by_node : (bal.revertBy delta kind).nodeId = bal.nodeId := by
  cases kind <;> rfl

@[simp] theorem revert_by_balance : (bal.revertBy delta kind).balance = satSub bal.balance delta := by
  cases kind <;> rfl

theorem credit_totals {delta : Int} (fits : Fits bal delta kind) :
    (bal.creditBy delta kind now).totals = bal.totals + contribution delta kind := by
  obtain ⟨inside, room⟩ := fits
  have raised := sat_add_exact inside
  have counted := sat_add_unsigned_exact room
  cases kind <;> simp only [counter] at counted <;>
    simp [creditBy, totals, contribution, raised, counted]

theorem revert_totals {delta : Int} {kind : CreditDelta} {others : Totals}
    (inside : IsI64 (bal.balance - delta)) (holds : bal.totals = others + contribution delta kind) :
    (bal.revertBy delta kind).totals = others := by
  obtain ⟨balance, earned, spent, refunded⟩ := others
  have lowered : satSub bal.balance delta = bal.balance - delta := clamp_exact inside
  cases kind <;> simp only [totals, contribution, Prod.mk_add_mk, Prod.mk.injEq, Nat.add_zero] at holds <;>
    simp only [revertBy, totals, Prod.mk.injEq, lowered] <;> omega

@[simp] theorem backfill_balance : (backfillHistoricalRefunds bal).balance = bal.balance := by
  unfold backfillHistoricalRefunds
  split <;> rfl

@[simp] theorem backfill_node : (backfillHistoricalRefunds bal).nodeId = bal.nodeId := by
  unfold backfillHistoricalRefunds
  split <;> rfl

theorem books_balance_iff : bal.booksBalance = true ↔ bal.gap = 0 := by
  simp only [booksBalance, gap, beq_iff_eq]
  omega

@[simp] theorem restore_node (record : Option CreditBalance) : (restoreBalance nodeId now record).nodeId = nodeId := by
  unfold restoreBalance
  split
  · rfl
  · split
    · next own => simpa using own
    · rfl

theorem restore_balance_clock (later : DateTime) (record : Option CreditBalance) :
    (restoreBalance nodeId now record).balance = (restoreBalance nodeId later record).balance := by
  cases record with
  | none => rfl
  | some stored =>
    simp only [restoreBalance]
    split <;> rfl

theorem restore_own {nodeId : NodeId} {now : DateTime} (own : bal.nodeId = nodeId) :
    (restoreBalance nodeId now (some bal)).balance = bal.balance := by
  simp only [restoreBalance, if_pos own, backfill_balance]

-- Every way the direct update can end: durable, reverted, or cut off with either
-- the old or the new record on disk.
theorem wp_apply_credit (post : Except SwarmError Unit → Machine Books → Prop) (crash : Books → Prop) (machine : Machine Books)
    (landed : ∀ fates, post (.ok ()) ⟨⟨machine.store.balance.creditBy delta kind now, some (machine.store.balance.creditBy delta kind now)⟩, fates⟩)
    (failed : ∀ error fates, machine.fates.headD .lands = .fails error → post (.error (.database error)) ⟨⟨(machine.store.balance.creditBy delta kind now).revertBy delta kind, machine.store.record⟩, fates⟩)
    (cutBefore : crash ⟨machine.store.balance.creditBy delta kind now, machine.store.record⟩)
    (cutAfter : crash ⟨machine.store.balance.creditBy delta kind now, some (machine.store.balance.creditBy delta kind now)⟩) :
    Prog.wp (applyCreditDirectNoted delta kind now) post crash machine := by
  simp only [applyCreditDirectNoted, Prog.wp_bind, Prog.wp_modify]
  apply Prog.wp_write
  · simp only [Prog.wp_bind]
    apply Prog.wp_write
    · exact landed _
    · intro error _
      exact landed _
    · exact cutAfter
    · exact cutAfter
  · intro error fate
    exact failed error _ fate
  · exact cutBefore
  · exact cutAfter

end SwarmLlm.Credit
