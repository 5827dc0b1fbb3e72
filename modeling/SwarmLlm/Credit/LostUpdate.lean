import Mathlib
import SwarmLlm.Credit.Concurrent

namespace SwarmLlm.Credit

open Lib

structure DirectCall where
  delta : Int
  kind : CreditDelta
  now : DateTime
  deriving DecidableEq

def DirectCall.thread (call : DirectCall) : Thread (Except SwarmError Unit) :=
  Thread.applyCreditDirectNoted call.delta call.kind call.now

-- The section computes its exact result. Taking a counter back needs no such
-- condition.
def CreditOp.Exact (bal : CreditBalance) : CreditOp → Prop
  | .credit delta kind _ => Fits bal delta kind
  | .revert delta _ => IsI64 (bal.balance - delta)
  | _ => True

instance (bal : CreditBalance) : (op : CreditOp) → Decidable (op.Exact bal)
  | .credit _ _ _ => inferInstanceAs (Decidable (_ ∧ _))
  | .revert _ _ => inferInstanceAs (Decidable (IsI64 _))
  | .readBalance | .putBalance _ | .appendCreditLog | .putEscrow _ _ | .insert _ _ | .claim _ _ | .putSettled _ _
  | .unclaim _ _ _ | .remove _ | .collect _ _ | .expire _ _ | .payExpired _ _ _ | .unexpire _ => isTrue trivial

def succeeded (calls : List DirectCall) (results : List (Except SwarmError Unit)) : List DirectCall :=
  ((calls.zip results).filter fun pair => pair.2.toBool).map Prod.fst

def creditProtocol : Protocol CreditOp.Reply (DirectCall × Bool) where
  allowed op own :=
    match op with
    | .credit delta kind _ => own.2 = false ∧ delta = own.1.delta ∧ kind = own.1.kind
    | .revert delta kind => own.2 = true ∧ delta = own.1.delta ∧ kind = own.1.kind
    | .putBalance _ => True
    | .appendCreditLog => True
    | _ => False
  replies _ _ := True
  move op _ own :=
    match op with
    | .credit _ _ _ => (own.1, true)
    | .revert _ _ => (own.1, false)
    | _ => own

def standing (own : DirectCall × Bool) : Totals := if own.2 then contribution own.1.delta own.1.kind else 0

theorem direct_follows (call : DirectCall) :
    call.thread.Follows creditProtocol (fun result own => own.2 = result.toBool) (call, false) := by
  refine ⟨⟨rfl, rfl, rfl⟩, fun snapshot _ => ⟨trivial, fun put _ => ?_⟩⟩
  cases put with
  | error error => exact ⟨⟨rfl, rfl, rfl⟩, fun _ _ => rfl⟩
  | ok _ => exact ⟨trivial, fun _ _ => rfl⟩

variable {owns : List (DirectCall × Bool)}

section Accounts

variable (shardOf : Uuid → Nat) (start : Totals) (calls : List DirectCall)

def Accounts (store : CreditStore) (owns : List (DirectCall × Bool)) : Prop :=
  owns.map Prod.fst = calls ∧ store.balance.totals = start + (owns.map standing).sum

variable {calls start}

theorem accounts_move {store after : CreditStore} {thread : Nat} {call : DirectCall}
    {before applied : Bool} (accounts : Accounts start calls store owns) (held : owns[thread]? = some (call, before))
    (moved : ∀ others, store.balance.totals = others + standing (call, before) → after.balance.totals = others + standing (call, applied)) :
    Accounts start calls after (owns.set thread (call, applied)) := by
  obtain ⟨others, total, later⟩ := total_split standing owns thread held
  have callAt : (owns.map Prod.fst)[thread]? = some call := by
    rw [List.getElem?_map, held]
    rfl
  refine ⟨?_, ?_⟩
  · rw [List.map_set, ← accounts.1]
    exact set_held callAt
  · rw [later, ← add_assoc]
    apply moved
    rw [accounts.2, total, add_assoc]

theorem accounts_keep {world : World CreditOp.Reply CreditStore (Except SwarmError Unit)} {turn : Turn} {own : DirectCall × Bool} {op : CreditOp} {reply : op.Reply} {after : Machine CreditStore}
    (accounts : Accounts start calls world.store owns) (exact : op.Exact world.store.balance) (held : owns[turn.thread]? = some own)
    (allowed : creditProtocol.allowed op own) (ran : CreditOp.handler shardOf op ⟨world.store, turn.fates⟩ = (.done reply, after)) :
    Accounts start calls after.store (owns.set turn.thread (creditProtocol.move op reply own)) := by
  obtain ⟨call, applied⟩ := own
  cases op with
  | credit delta kind now =>
    obtain ⟨rfl, rfl, rfl⟩ := allowed
    cases ran
    apply accounts_move accounts held
    intro others holds
    have credited := credit_totals call.kind now exact
    rw [holds] at credited
    simpa [standing] using credited
  | revert delta kind =>
    obtain ⟨rfl, rfl, rfl⟩ := allowed
    cases ran
    apply accounts_move accounts held
    intro others holds
    have reverted := revert_totals exact holds
    simpa [standing] using reverted
  | putBalance snapshot =>
    apply accounts_move accounts held
    intro others holds
    have wrote : Prog.write (fun store => { store with creditRecord := some snapshot }) ⟨world.store, turn.fates⟩ =
      (.done reply, after) := ran
    rcases Prog.write_store wrote with same | same <;> rw [same] <;> exact holds
  | appendCreditLog =>
    apply accounts_move accounts held
    intro others holds
    rcases Prog.write_store ran with same | same <;> rw [same] <;> exact holds
  | _ => exact allowed.elim

end Accounts

def Unsaturated (world : World CreditOp.Reply CreditStore (Except SwarmError Unit)) (turn : Turn) : Prop :=
  ∀ op ∈ world.nextOp turn.thread, op.Exact world.store.balance

instance (world : World CreditOp.Reply CreditStore (Except SwarmError Unit)) (turn : Turn) :
    Decidable (Unsaturated world turn) := inferInstanceAs (Decidable (∀ op ∈ world.nextOp turn.thread, _))

theorem standing_sum {calls : List DirectCall} {results : List (Except SwarmError Unit)}
    (called : owns.map Prod.fst = calls) (ends : List.Forall₂ (fun result own => own.2 = result.toBool) results owns) :
    (owns.map standing).sum = ((succeeded calls results).map fun call => contribution call.delta call.kind).sum := by
  subst called
  induction ends with
  | nil => rfl
  | @cons result own results owns ended _ ih =>
    obtain ⟨call, applied⟩ := own
    have applied : applied = result.toBool := ended
    subst applied
    cases result with
    | error | ok => simpa [standing, succeeded, Except.toBool] using ih

def directRun (shardOf : Uuid → Nat) (store : CreditStore) (calls : List DirectCall) (turns : List Turn) :
    World CreditOp.Reply CreditStore (Except SwarmError Unit) :=
  run (World.step (CreditOp.handler shardOf)) (World.start store (calls.map DirectCall.thread)) turns

theorem no_update_lost (shardOf : Uuid → Nat) (store : CreditStore) (calls : List DirectCall) (turns : List Turn)
    (results : List (Except SwarmError Unit))
    (exact : RunMeets (World.step (CreditOp.handler shardOf)) Unsaturated (World.start store (calls.map DirectCall.thread)) turns)
    (returned : (directRun shardOf store calls turns).Returned results) :
    (directRun shardOf store calls turns).store.balance.totals =
      store.balance.totals + ((succeeded calls results).map fun call => contribution call.delta call.kind).sum := by
  have abides := start_abides (fun (result : Except SwarmError Unit) own => own.2 = result.toBool) store calls (fun call => (call, false)) direct_follows
  have opening : Accounts store.balance.totals calls store (calls.map fun call => (call, false)) := by
    refine ⟨by simp [Function.comp_def], ?_⟩
    simp [Function.comp_def, standing]
  obtain ⟨owns, follows, accounts⟩ := run_abides (fun current _ owns => Accounts store.balance.totals calls current owns) Unsaturated
    (fun world turn owns own op reply after accounts exact next held allowed ran =>
      ⟨trivial, accounts_keep shardOf accounts (exact op next) held allowed ran⟩)
    _ turns _ abides opening exact
  have ends := returned_ends _ results follows returned
  rw [directRun, accounts.2, standing_sum accounts.1 ends]

-- The write of the first call fails after the second call has updated memory.
def crossedTurns : List Turn :=
  [.lands 0, .lands 1, ⟨0, some "disk full"⟩, .lands 1, .lands 0, .lands 1]

theorem no_update_lost_sample :
    (directRun (fun _ => 0) quietStore [⟨5, .earning, 1⟩, ⟨-3, .spending, 2⟩] crossedTurns).store.balance.totals =
      quietStore.balance.totals + (-3, 0, 3, 0) :=
  no_update_lost (fun _ => 0) quietStore [⟨5, .earning, 1⟩, ⟨-3, .spending, 2⟩] crossedTurns
    [.error (.database "disk full"), .ok ()] (by decide) rfl

end SwarmLlm.Credit
