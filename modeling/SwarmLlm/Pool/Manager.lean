import SwarmLlm.Pool.Crypto
import SwarmLlm.Credit.Balance
import SwarmLlm.Lib.Table

namespace SwarmLlm.Pool

open Lib Prog
open SwarmLlm.Credit (Books CreditDelta applyCreditDirectNoted)

-- The part of a node its pool manager reads and writes: memory first, then the
-- trees on disk, then what it has handed to the network.
structure PoolNode where
  nodeId : NodeId
  maxPoolSize : Nat
  poolState : Option PoolState
  poolRegistry : Table NodeId PoolState
  creditForwardRl : Table NodeId (List (DateTime × Int))
  books : Books
  poolStateRecord : Option PoolState
  removalReplays : Table ReplayKey Int
  poolForwards : Table Uuid PoolCreditForward
  broadcasts : List PoolMessage

def clockSkewToleranceSecs : Int := 30
def balanceReportMaxAgeSecs : Int := 300

def checkSignedFreshness (now timestamp : DateTime) (skewSecs maxAgeSecs : Int) (kind : String) : Except SwarmError Unit :=
  let ageSecs := numSeconds (now - timestamp)
  if ageSecs < -skewSecs then
    .error (.creditError ("Future-dated " ++ kind ++ ": " ++ toString (-ageSecs) ++ "s ahead (skew tolerance " ++
      toString skewSecs ++ "s)"))
  else if maxAgeSecs < ageSecs then
    .error (.creditError ("Stale " ++ kind ++ ": " ++ toString ageSecs ++ "s old (max " ++ toString maxAgeSecs ++ "s)"))
  else .ok ()

def isFresh (now timestamp : DateTime) (kind : String) : Bool :=
  (checkSignedFreshness now timestamp clockSkewToleranceSecs balanceReportMaxAgeSecs kind).isOk

def creditForwardWindow : Int := 60 * secondsNs
def creditForwardMaxPerWindow : Nat := 60
def creditForwardMaxValuePerWindow : Int := 200000
def creditForwardRlSoftCap : Nat := 256

-- Returns whether the forward may go on, with the limiter as it is left.
def checkCreditForwardRate (limiter : Table NodeId (List (DateTime × Int))) (member : NodeId) (amount : Int)
    (now : DateTime) : Bool × Table NodeId (List (DateTime × Int)) :=
  let entry := ((limiter.lookup member).getD []).dropWhile fun seen => creditForwardWindow < now - seen.1
  let trimmed := limiter.insert member entry
  if creditForwardMaxPerWindow ≤ entry.length then (false, trimmed)
  else
    let projected := satAdd ((entry.map Prod.snd).foldl satAdd 0) amount
    if creditForwardMaxValuePerWindow < projected then (false, trimmed)
    else
      let recorded := limiter.insert member (entry ++ [(now, amount)])
      if creditForwardRlSoftCap < recorded.keys.length then
        (true, Table.retain (fun _ seen => (seen.getLast?.map fun last => decide (now - last.1 ≤ creditForwardWindow)).getD false)
          recorded)
      else (true, recorded)

def settled {R : Type} (prog : Prog PoolNode R) (node : PoolNode) : PoolNode := (prog ⟨node, []⟩).2.store

variable (prims : Primitives)

def handleInboundRemoval (removal : PoolRemoval) (now : DateTime) : Prog PoolNode Unit := do
  let node ← get
  if removal.removedNodeId ≠ node.nodeId then pure ()
  else if isFresh now removal.removedAt "pool_removal" = false then pure ()
  else if removal.removalId = Uuid.nil then pure ()
  else if (node.removalReplays.lookup (.removal removal.removalId)).isSome then pure ()
  else if prims.keyValid removal.poolId = false then pure ()
  else if verifyRemoval prims removal removal.poolId = false then pure ()
  else do
    modify fun node => { node with poolState := none }
    let _ ← write fun node => { node with poolStateRecord := none }
    modify fun node => { node with poolRegistry := node.poolRegistry.erase removal.poolId }
    let _ ← write fun node =>
      { node with removalReplays := node.removalReplays.insert (.removal removal.removalId) (timestamp now) }
    pure ()

def persistPoolState (state : PoolState) : Prog PoolNode (Except String Unit) :=
  write fun node => { node with poolStateRecord := some state }

def broadcast (message : PoolMessage) : Prog PoolNode Unit :=
  modify fun node => { node with broadcasts := node.broadcasts ++ [message] }

def updateMember (node : NodeId) (change : PoolMembership → PoolMembership) : List PoolMembership → List PoolMembership
  | [] => []
  | entry :: rest => if entry.nodeId = node then change entry :: rest else entry :: updateMember node change rest

def memberLeftRefused (node : PoolNode) (notice : MemberLeft) (now : DateTime) : Bool :=
  decide (notice.poolId ≠ node.nodeId) || decide (timestamp now + 30 < notice.leftAt) ||
    decide (notice.leftAt < timestamp now - 300) || (node.removalReplays.lookup (.memberLeft notice.nonce)).isSome ||
    !prims.keyValid notice.nodeId ||
    !verifySig prims notice.signature (memberLeftPayload prims notice.poolId notice.nodeId notice.leftAt notice.nonce)
      notice.nodeId

def dropMember (member : NodeId) (state : PoolState) : PoolState :=
  { state with members := state.members.filter fun entry => entry.nodeId ≠ member }

-- The roster is persisted only when it got shorter.
def dropAndPersist (member : NodeId) : Prog PoolNode Unit := do
  let node ← get
  match node.poolState with
  | none => pure ()
  | some state => do
    modify fun node => { node with poolState := some (dropMember member state) }
    if (dropMember member state).members.length < state.members.length then do
      let _ ← persistPoolState (dropMember member state)
      pure ()
    else pure ()

def handleInboundMemberLeft (notice : MemberLeft) (now : DateTime) : Prog PoolNode Unit := do
  let node ← get
  if memberLeftRefused prims node notice now then pure ()
  else do
    dropAndPersist notice.nodeId
    let _ ← write fun node =>
      { node with removalReplays := node.removalReplays.insert (.memberLeft notice.nonce) (timestamp now) }
    pure ()

def creditContribution (state : PoolState) (member : NodeId) (amount : Int) : PoolState :=
  let raise := fun (entry : PoolMembership) => { entry with creditsContributed := satAdd entry.creditsContributed amount }
  { state with
    members := updateMember member raise state.members
    totalLifetimeCredits := satAdd state.totalLifetimeCredits amount }

def applyForward (amount : Int) (now : DateTime) : Prog PoolNode (Except SwarmError Unit) :=
  zoom PoolNode.books (fun node books => { node with books := books }) (applyCreditDirectNoted amount .earning now)

def admitForward (node : PoolNode) (forward : PoolCreditForward) (now : DateTime) : Bool :=
  decide (0 < forward.amount) && decide (forward.toNodeId = node.nodeId) &&
    (node.poolForwards.lookup forward.id).isNone && isFresh now forward.timestamp "pool_credit_forward"

def isPoolMember (node : PoolNode) (member : NodeId) : Bool :=
  match node.poolState with
  | none => false
  | some state => state.members.any fun entry => entry.nodeId = member

def handleCreditForward (forward : PoolCreditForward) (now : DateTime) : Prog PoolNode Unit := do
  let node ← get
  if admitForward node forward now = false then pure ()
  else do
    let limited := checkCreditForwardRate node.creditForwardRl forward.fromNodeId forward.amount now
    modify fun node => { node with creditForwardRl := limited.2 }
    if limited.1 = false then pure ()
    else if prims.keyValid forward.fromNodeId = false then pure ()
    else if isPoolMember node forward.fromNodeId = false then pure ()
    else
      match cosignCreditForward prims node.nodeId forward forward.fromNodeId with
      | .error _ => pure ()
      | .ok cosigned =>
        match ← applyForward cosigned.amount now with
        | .error _ => pure ()
        | .ok _ =>
          let _ ← write fun node => { node with poolForwards := node.poolForwards.insert cosigned.id cosigned }
          let state := node.poolState.map fun state => creditContribution state cosigned.fromNodeId cosigned.amount
          modify fun node => { node with poolState := state }
          match state with
          | none => pure ()
          | some snapshot =>
            let _ ← persistPoolState snapshot
            pure ()
          broadcast (.creditForward cosigned)

def innerIdentityOk (sender : NodeId) : PoolMessage → Bool
  | .creditForward forward => decide (forward.fromNodeId = sender)
  | .memberLeft notice => decide (notice.nodeId = sender)
  | .joinRequest request => decide (request.requester = sender)
  | .deviceStatsReport report => decide (report.nodeId = sender)
  | _ => true

def samplePool (owner : NodeId) (members : List PoolMembership) (pct : UInt8) : PoolState :=
  ⟨owner, "home", members, 0, nodeBytes owner ++ nodeBytes owner, 0, pct, [], 0⟩

def sampleNode (me : NodeId) (pool : Option PoolState) : PoolNode :=
  { nodeId := me, maxPoolSize := 10, poolState := pool, poolRegistry := ∅, creditForwardRl := ∅
    books := ⟨SwarmLlm.Credit.CreditBalance.zero me 0, none⟩, poolStateRecord := pool, removalReplays := ∅
    poolForwards := ∅, broadcasts := [] }

end SwarmLlm.Pool
