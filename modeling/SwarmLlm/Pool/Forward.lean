import SwarmLlm.Pool.Crypto
import SwarmLlm.Lib.Saturating

namespace SwarmLlm.Pool

open Lib

inductive PoolTx where
  | missing
  | closed
  | up
  deriving DecidableEq

def forwardCreditsToOwner (prims : Primitives) (me : NodeId) (pool : Option PoolState) (tx : PoolTx) (amount : Int)
    (id : Uuid) (now : DateTime) : Int × Option PoolCreditForward :=
  if amount ≤ 0 then (amount, none)
  else
    match pool with
    | none => (amount, none)
    | some state =>
      if state.poolId = me then (amount, none)
      else
        let splitPct : Int := min state.memberCreditSplitPct.toNat 100
        let memberKeeps := (satMul amount splitPct).tdiv 100
        let forward := satSub amount memberKeeps
        if forward ≤ 0 then (amount, none)
        else
          match tx with
          | .up => (memberKeeps, some (createCreditForward prims me state.poolId me state.poolId forward id now))
          | .missing => (satAdd memberKeeps forward, none)
          | .closed => (satAdd memberKeeps forward, none)

end SwarmLlm.Pool
