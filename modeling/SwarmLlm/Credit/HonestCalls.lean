import SwarmLlm.Credit.PeerTransaction
import SwarmLlm.Credit.SettleCalls

namespace SwarmLlm.Credit

open Lib CreditBalance Prog

def failing (store : CreditStore) (errors : List (Option String)) : Machine CreditStore := ⟨store, errors.map fateOf⟩

-- An error has left the balance, its counters and the Pending escrows as they were.
def ErrorUnmoved {R : Type} (store : CreditStore) (result : Outcome (Except SwarmError R) × Machine CreditStore) : Prop :=
  ∀ error, result.1 = .done (.error error) → result.2.store.balance.totals = store.balance.totals ∧
    ∀ id entry, Pending result.2.store id entry ↔ Pending store id entry

-- And a value says what the balance rose by.
def SettlesHonestly (store : CreditStore) (id : Uuid) (rise : EscrowEntry → Int → Int)
    (result : Outcome (Except SwarmError Int) × Machine CreditStore) : Prop :=
  ErrorUnmoved store result ∧ ∀ entry, Pending store id entry → ∀ value, result.1 = .done (.ok value) →
    result.2.store.balance.balance = store.balance.balance + rise entry value

def movedBy (balance delta : Int) (error : Option String) : Int :=
  if error = none then satAdd balance delta else satSub (satAdd balance delta) delta

variable {store : CreditStore} {errors : List (Option String)} {delta : Int} {kind : CreditDelta} {now : DateTime}
  {R : Type}

theorem write_fails (change : CreditStore → CreditStore) (next : Except String Unit → Prog CreditStore R) :
    (write change >>= next) (failing store errors) = match errors.headD none with
      | none => next (.ok ()) (failing (change store) errors.tail)
      | some error => next (.error error) (failing store errors.tail) := by
  rcases errors with _ | ⟨_ | error, rest⟩ <;> rfl

theorem apply_fails (next : Except SwarmError Unit → Prog CreditStore R) :
    (applyCredit delta kind now >>= next) (failing store errors) = match errors.headD none with
      | none => next (.ok ()) (failing (store.withBooks ⟨store.balance.creditBy delta kind now,
          some (store.balance.creditBy delta kind now)⟩) (errors.drop 2))
      | some error => next (.error (.database error))
          (failing { store with balance := (store.balance.creditBy delta kind now).revertBy delta kind } errors.tail) := by
  rcases errors with _ | ⟨_ | error, _ | ⟨_ | second, rest⟩⟩ <;> rfl

theorem apply_moves (value : R) : ((applyCredit delta kind now >>= fun _ => pure value) (failing store errors)).1 = .done value ∧
    ((applyCredit delta kind now >>= fun _ => pure value) (failing store errors)).2.store.balance.balance =
      movedBy store.balance.balance delta (errors.headD none) := by
  rw [apply_fails]
  cases errors.headD none with
  | none => exact ⟨rfl, credit_by_balance store.balance delta kind now⟩
  | some error => exact ⟨rfl, by simp [pure, failing, movedBy]⟩

section Ranges

variable (range : IsI64 store.balance.balance)

include range

theorem reverts_iff (counted : store.balance.counter kind ≤ u64Max) (small : delta.natAbs ≤ u64Max) :
    ((store.balance.creditBy delta kind now).revertBy delta kind).totals = store.balance.totals ↔
      Fits store.balance delta kind := by
  unfold IsI64 i64Min i64Max at range
  cases kind <;>
    simp only [counter, creditBy, revertBy, totals, Fits, IsI64,
      satAdd, satSub, clampI64, satAddU, Prod.mk.injEq, i64Min, i64Max, u64Max, and_true, true_and] at counted small ⊢ <;> omega

theorem moved_iff (error : Option String) : movedBy store.balance.balance delta error = store.balance.balance + delta ↔
    delta = 0 ∨ error = none ∧ IsI64 (store.balance.balance + delta) := by
  unfold IsI64 at range ⊢
  unfold movedBy satSub satAdd clampI64
  split <;> simp [*] <;> omega

theorem settle_delta_moves {value : R} :
    ((settleDelta delta now >>= fun _ => pure value) (failing store errors)).1 = .done value ∧
      ((settleDelta delta now >>= fun _ => pure value) (failing store errors)).2.store.balance.balance =
        movedBy store.balance.balance delta (errors.headD none) := by
  unfold settleDelta
  by_cases more : 0 < delta
  · rw [if_pos more, bind_assoc]
    exact apply_moves value
  rw [if_neg more]
  by_cases less : delta < 0
  · rw [if_pos less, bind_assoc]
    exact apply_moves value
  have none : delta = 0 := by omega
  rw [if_neg less]
  refine ⟨rfl, ?_⟩
  have kept := (moved_iff range (errors.headD Option.none)).mpr (Or.inl none)
  rw [kept, none, Int.add_zero]
  rfl

end Ranges

-- What `release_escrow` and `refund_escrow` do alike, up to the payment.
def settleWith (id : Uuid) (settled : EscrowEntry → EscrowEntry) (failure : String → SwarmError)
    (pay : EscrowEntry → Prog CreditStore (Except SwarmError Int)) : Prog CreditStore (Except SwarmError Int) := do
  let store ← get
  match findPending store id with
  | .error error => pure (.error error)
  | .ok entry =>
    modify (setEntry id (settled entry))
    match ← write fun store => notePaid id (putEntry id (settled entry) store) with
    | .error error =>
      modify (setEntry id entry)
      pure (.error (failure error))
    | .ok _ =>
      modify (dropEntry id)
      pay entry

section Settles

variable {id : Uuid} {settled : EscrowEntry → EscrowEntry} {failure : String → SwarmError}
  {pay : EscrowEntry → Prog CreditStore (Except SwarmError Int)}

theorem settle_fails {entry : EscrowEntry} (found : findPending store id = .ok entry) :
    settleWith id settled failure pay (failing store errors) = match errors.headD none with
      | none => pay entry (failing (dropEntry id (notePaid id (putEntry id (settled entry)
          (setEntry id (settled entry) store)))) errors.tail)
      | some error => (.done (.error (failure error)),
          failing (setEntry id entry (setEntry id (settled entry) store)) errors.tail) := by
  rcases errors with _ | ⟨_ | error, rest⟩ <;>
    simp [settleWith, bind, pure, Prog.get, Prog.modify, Prog.write, found, failing, fateOf]

theorem settles_honestly_iff {change : EscrowEntry → Int} {rise : EscrowEntry → Int → Int} {result : EscrowEntry → Int}
    (range : IsI64 store.balance.balance) (rises : ∀ entry, rise entry (result entry) = change entry)
    (pays : ∀ entry (store : CreditStore) errors, IsI64 store.balance.balance →
      (pay entry (failing store errors)).1 = .done (.ok (result entry)) ∧
        (pay entry (failing store errors)).2.store.balance.balance =
          movedBy store.balance.balance (change entry) (errors.headD none)) :
    SettlesHonestly store id rise (settleWith id settled failure pay (failing store errors)) ↔
      ∀ entry, Pending store id entry → errors.headD none = none →
        change entry = 0 ∨ errors.getD 1 none = none ∧ IsI64 (store.balance.balance + change entry) := by
  cases found : findPending store id with
  | error error =>
    have absent := find_pending_error store id found
    refine iff_of_true ⟨fun _ _ => ?_, fun entry pending => absurd pending (absent entry)⟩
      fun entry pending => absurd pending (absent entry)
    simp [settleWith, bind, pure, Prog.get, found, failing]
  | ok entry =>
    have pending := find_pending_iff.mp found
    have only : ∀ other, Pending store id other ↔ other = entry := fun other =>
      ⟨fun also => pending_unique also pending, fun same => same ▸ pending⟩
    rw [settle_fails found]
    cases failed : errors.headD none with
    | some error =>
      refine iff_of_true ⟨fun _ _ => ⟨rfl, fun other held => ?_⟩, fun _ _ _ never => nomatch never⟩
        fun _ _ never => nomatch never
      by_cases same : other = id
      · subst same
        simp [Pending, setEntry, failing, pending.1]
      · simp [Pending, setEntry, failing, same]
    | none =>
      obtain ⟨returned, moved⟩ := pays entry (dropEntry id (notePaid id (putEntry id (settled entry)
        (setEntry id (settled entry) store)))) errors.tail range
      have second : errors.tail.headD none = errors.getD 1 none := by
        rcases errors with _ | ⟨_, _ | _⟩ <;> rfl
      simp only [SettlesHonestly, ErrorUnmoved, returned, moved, only, forall_eq, second, rises, reduceCtorEq,
        Outcome.done.injEq, Except.ok.injEq, false_implies, implies_true, true_and, forall_eq', true_implies]
      exact moved_iff range _

end Settles

theorem escrow_calls_honest_iff (store : CreditStore) (errors : List (Option String)) (now : DateTime)
    (range : IsI64 store.balance.balance) (counted : store.balance.lifetimeSpent ≤ u64Max) :
    (∀ requestId amount fromNode id, IsI64 amount →
      (ErrorUnmoved store (createEscrow requestId amount fromNode id now (failing store errors)) ↔
        amount ≤ 0 ∨ if errors.headD none = none then
          errors.getD 2 none = none ∨ store.balance.balance = i64Min ∧ store.balance.lifetimeSpent = u64Max
          else Fits store.balance (-amount) .spending)) ∧
    (∀ id toNode actualCost, SettlesHonestly store id (fun entry cost => entry.amount - cost)
          (releaseEscrow id toNode actualCost now (failing store errors)) ↔
        ∀ entry, Pending store id entry → errors.headD none = none → entry.amount - max actualCost 0 = 0 ∨
          errors.getD 1 none = none ∧ IsI64 (store.balance.balance + (entry.amount - max actualCost 0))) ∧
    ∀ id, SettlesHonestly store id (fun _ refund => refund) (refundEscrow id now (failing store errors)) ↔
      ∀ entry, Pending store id entry → errors.headD none = none → entry.amount = 0 ∨
        errors.getD 1 none = none ∧ IsI64 (store.balance.balance + entry.amount) := by
  refine ⟨fun requestId amount fromNode id fits => ?_, fun id toNode actualCost => ?_, fun id => ?_⟩
  · by_cases positive : amount ≤ 0
    · refine iff_of_true (fun _ _ => ?_) (Or.inl positive)
      rw [createEscrow, if_pos positive]
      exact ⟨rfl, fun _ _ => Iff.rfl⟩
    have small : (-amount).natAbs ≤ u64Max := by
      unfold IsI64 i64Min i64Max at fits
      unfold u64Max
      omega
    have reverts : ((store.balance.creditBy (-amount) .spending now).revertBy (-amount) .spending).totals =
      store.balance.totals ↔ Fits store.balance (-amount) .spending := reverts_iff range counted small
    rw [createEscrow, if_neg positive, apply_fails]
    cases failed : errors.headD none with
    | some error => simp [ErrorUnmoved, pure, failing, positive, Pending, reverts]
    | none =>
      have third : (errors.drop 2).headD none = errors.getD 2 none := by
        rcases errors with _ | ⟨_, _ | ⟨_, _ | _⟩⟩ <;> rfl
      have spent : (store.balance.creditBy (-amount) .spending now).totals = store.balance.totals ↔
          store.balance.balance = i64Min ∧ store.balance.lifetimeSpent = u64Max := by
        unfold IsI64 at range
        simp only [creditBy, totals, satAdd, clampI64, satAddU, Prod.mk.injEq, and_true,
          true_and, i64Min, i64Max, u64Max] at counted range ⊢
        omega
      simp only [write_fails, third, positive, false_or, if_true]
      cases errors.getD 2 none with
      | none => simp [ErrorUnmoved, bind, pure, Prog.modify]
      | some error => simp [ErrorUnmoved, pure, failing, Pending, CreditStore.withBooks, spent]
  · exact settles_honestly_iff range (fun _ => rfl) fun _ _ _ inside => settle_delta_moves inside
  · exact settles_honestly_iff range (fun _ => rfl) fun _ _ _ _ => apply_moves _

def escrowedStore : CreditStore :=
  setEntry (Uuid.ofByte 2) ⟨Uuid.ofByte 2, Uuid.ofByte 3, 10, NodeId.ofByte 1, none, 0, .pending⟩
    ⟨⟨NodeId.ofByte 1, 90, 100, 10, 0, 0⟩, ∅, none, ∅, []⟩

theorem escrow_calls_honest_iff_sample :
    SettlesHonestly escrowedStore (Uuid.ofByte 2) (fun _ refund => refund)
      (refundEscrow (Uuid.ofByte 2) 5 (failing escrowedStore [none, none])) := by
  refine ((escrow_calls_honest_iff escrowedStore [none, none] 5 (by decide) (by decide)).2.2 _).mpr fun entry pending _ => ?_
  cases pending.1
  exact Or.inr ⟨rfl, by decide⟩

-- The hold was never written down and is kept all the same; the refund that was
-- not written is reported as made.
theorem escrow_calls_misreport :
    (∃ error after, createEscrow (Uuid.ofByte 4) 40 (NodeId.ofByte 1) (Uuid.ofByte 5) 5
        (failing escrowedStore [none, none, some "disk full"]) = (.done (.error error), after) ∧
      escrowedStore.balance.balance = 90 ∧ after.store.balance.balance = 50) ∧
    ∃ after, refundEscrow (Uuid.ofByte 2) 5 (failing escrowedStore [none, some "disk full"]) = (.done (.ok 10), after) ∧
      after.store.balance.balance = 90 :=
  ⟨⟨_, _, rfl, rfl, rfl⟩, _, rfl, rfl⟩

end SwarmLlm.Credit
