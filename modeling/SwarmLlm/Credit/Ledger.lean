import SwarmLlm.Credit.Balance
import SwarmLlm.Pool.Forward

namespace SwarmLlm.Credit

open Lib
open SwarmLlm.Pool (Primitives PoolState PoolTx forwardCreditsToOwner)

-- `apply_credit` followed by `persist_balance`: a failed write leaves the change
-- in memory.
def applyAndPersist (delta : Int) (kind : CreditDelta) (now : DateTime) : Prog Books (Except SwarmError Unit) := do
  Prog.modify fun books => { books with balance := books.balance.creditBy delta kind now }
  match ← Prog.write fun books => { books with record := some books.balance } with
  | .error error => pure (.error (.database error))
  | .ok _ => pure (.ok ())

def earn (amount : Int) (now : DateTime) : Prog Books (Except SwarmError Int) :=
  if 0 < amount then do
    match ← applyAndPersist amount .earning now with
    | .error error => pure (.error error)
    | .ok _ => pure (.ok amount)
  else pure (.ok amount)

def earnedAmount (inferenceServe : Int) (tokens : Nat) : Int := satMul inferenceServe tokens

def localCredit (prims : Primitives) (me : NodeId) (pool : Option PoolState) (tx : PoolTx) (inferenceServe : Int)
    (tokens : Nat) (id : Uuid) (now : DateTime) : Int :=
  (forwardCreditsToOwner prims me pool tx (earnedAmount inferenceServe tokens) id now).1

def earnInference (prims : Primitives) (me : NodeId) (pool : Option PoolState) (tx : PoolTx) (inferenceServe : Int)
    (tokens : Nat) (id : Uuid) (now : DateTime) : Prog Books (Except SwarmError Int) :=
  earn (localCredit prims me pool tx inferenceServe tokens id now) now

-- The change `spend_inference` applies. The rate is read from the configuration,
-- which does not check its sign.
def spendDelta (inferenceConsume : Int) (tokens : Nat) : Int := wrapNeg (satMul inferenceConsume tokens)

def spendInference (inferenceConsume : Int) (tokens : Nat) (now : DateTime) : Prog Books (Except SwarmError Int) := do
  match ← applyAndPersist (spendDelta inferenceConsume tokens) .spending now with
  | .error error => pure (.error error)
  | .ok _ => pure (.ok (satMul inferenceConsume tokens))

-- The hosting accrual of one tick in millionths of a credit; none when the
-- product is not a finite non-negative number.
def hostingMicro (shardHosting : Int) (totalGb : Float) (hours : Float32) : Option Int :=
  let raw := Float.ofInt shardHosting * totalGb * hours.toFloat
  if raw.isFinite && !(raw < 0.0) then
    let capped := if raw < 1000000.0 then raw else 1000000.0
    some (capped * 1000000.0).round.toInt64.toInt
  else none

-- The whole credits of the accrual and the remainder carried to the next tick.
def hostingAccrual (micro carried : Int) : Int × Int :=
  let totalMicro := satAdd micro carried
  (totalMicro.tdiv 1000000, totalMicro.tmod 1000000)

def negativeBalanceDecayAmount (balance : Int) : Int :=
  if 0 ≤ balance then 0
  else
    let deficit := min (-balance) i64Max
    let pct := (Float.ofInt deficit * 0.05).ceil.toInt64.toInt
    min (max pct 500) deficit

def decayTick (now : DateTime) : Prog Books Unit := do
  let books ← Prog.get
  let forgiven := negativeBalanceDecayAmount books.balance.balance
  if 0 < forgiven then do
    let _ ← applyCreditDirectNoted forgiven .refund now
    pure ()
  else pure ()

end SwarmLlm.Credit
