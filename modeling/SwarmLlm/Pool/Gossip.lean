import SwarmLlm.Pool.Manager

namespace SwarmLlm.Pool

open Lib PoolMembership

variable (prims : Primitives)

-- The owner's own entry is covered by the pool-creation signature.
def memberVerified (poolId : PoolId) (member : PoolMembership) : Bool :=
  decide (member.nodeId = poolId) ||
    (prims.keyValid member.nodeId && verifySig prims member.acceptanceSignature
      (acceptancePayload prims member.invitationId poolId member.nodeId member.invitationExpiresAt) member.nodeId)

-- The checks of `handle_pool_state_gossip`: the state with its unverifiable
-- members dropped, or nothing when the gossip is refused. The signature covers
-- the pool id, the name and the creation time only.
def acceptGossip (maxPoolSize : Nat) (state : PoolState) : Option PoolState :=
  if prims.keyValid state.poolId = false then none
  else if verifySig prims state.ownerSignature (poolCreatePayload prims state.poolId state.name state.createdAt)
      state.poolId = false then none
  else if maxPoolSize < state.members.length then none
  else if ¬ (state.members.map nodeId).Nodup then none
  else some { state with members := state.members.filter (memberVerified prims state.poolId) }

-- This node's own device name and stats survive a roster that lacks them.
def keepOwnDevice (me : NodeId) (before members : List PoolMembership) : List PoolMembership :=
  let own := before.find? fun member => member.nodeId = me
  let myDeviceName := own.bind deviceName
  let myDeviceStats := own.bind deviceStats
  updateMember me (fun member =>
    { member with
      deviceName := if myDeviceName.isSome && member.deviceName.isNone then myDeviceName else member.deviceName
      deviceStats := if myDeviceStats.isSome && member.deviceStats.isNone then myDeviceStats else member.deviceStats })
    members

-- What a member copies from full gossip. Shard pins and generation stay as they
-- are.
def mergeGossip (me : NodeId) (mine state : PoolState) : PoolState :=
  { mine with
    name := state.name
    members := keepOwnDevice me mine.members state.members
    totalLifetimeCredits := state.totalLifetimeCredits
    memberCreditSplitPct := state.memberCreditSplitPct }

def maxPoolRegistry : Nat := 1000

def updateMine (poolId : PoolId) (merge : PoolState → PoolState) : Prog PoolNode Unit := do
  let node ← Prog.get
  match node.poolState with
  | none => pure ()
  | some mine =>
    if mine.poolId = poolId ∧ poolId ≠ node.nodeId then do
      Prog.modify fun node => { node with poolState := some (merge mine) }
      let _ ← persistPoolState (merge mine)
      pure ()
    else pure ()

def handlePoolStateGossip (state : PoolState) : Prog PoolNode Unit := do
  let node ← Prog.get
  match acceptGossip prims node.maxPoolSize state with
  | none => pure ()
  | some checked => do
    updateMine checked.poolId fun mine => mergeGossip node.nodeId mine checked
    if node.poolRegistry.keys.length < maxPoolRegistry ∨ (node.poolRegistry.lookup checked.poolId).isSome then
      Prog.modify fun node => { node with poolRegistry := node.poolRegistry.insert checked.poolId checked }
    else pure ()

def memberIds (members : List PoolMembership) : List NodeId := members.map nodeId

variable (prev current : PoolState)

-- The sender compares rosters by node id alone.
def addedMembers : List PoolMembership :=
  current.members.filter fun member => member.nodeId ∉ memberIds prev.members

def removedNodeIds : List NodeId :=
  (memberIds prev.members).filter fun id => id ∉ memberIds current.members

def diffEmpty : Bool :=
  decide (addedMembers prev current = []) && decide (removedNodeIds prev current = []) &&
    decide (prev.shardPins = current.shardPins) && decide (prev.totalLifetimeCredits = current.totalLifetimeCredits) &&
    decide (prev.memberCreditSplitPct = current.memberCreditSplitPct)

def signedDiff (identity : NodeId) (prev current : PoolState) (nowMs : Nat) : PoolStateDiff where
  poolId := current.poolId
  parentGeneration := prev.generation
  newGeneration := current.generation
  addedMembers := addedMembers prev current
  removedNodeIds := removedNodeIds prev current
  shardPins := if prev.shardPins = current.shardPins then none else some current.shardPins
  totalLifetimeCredits :=
    if prev.totalLifetimeCredits = current.totalLifetimeCredits then none else some current.totalLifetimeCredits
  memberCreditSplitPct :=
    if prev.memberCreditSplitPct = current.memberCreditSplitPct then none else some current.memberCreditSplitPct
  stateChecksum := poolStateChecksum prims current
  timestampMs := nowMs
  ownerSignature := prims.sign identity
    (poolStateDiffPayload prims current.poolId prev.generation current.generation (poolStateChecksum prims current) nowMs)

def buildPoolStateDiff (identity : NodeId) (prev current : PoolState) (nowMs : Nat) : Option PoolStateDiff :=
  if diffEmpty prev current then none else some (signedDiff prims identity prev current nowMs)

def timestampFreshOneSided (ts now maxAge skew : Nat) : Bool :=
  decide (ts ≤ satAddU now skew) && decide (now - ts ≤ maxAge)

-- Removals first, then the additions whose id is not there yet.
def applyDiff (base : PoolState) (diff : PoolStateDiff) : PoolState :=
  let kept := base.members.filter fun member => member.nodeId ∉ diff.removedNodeIds
  let members := diff.addedMembers.foldl
    (fun members added => if members.any fun member => member.nodeId = added.nodeId then members else members ++ [added]) kept
  { base with
    members := members
    shardPins := diff.shardPins.getD base.shardPins
    totalLifetimeCredits := diff.totalLifetimeCredits.getD base.totalLifetimeCredits
    memberCreditSplitPct := diff.memberCreditSplitPct.getD base.memberCreditSplitPct
    generation := diff.newGeneration }

def diffBase (node : PoolNode) (poolId : PoolId) : Option PoolState :=
  match node.poolState with
  | some mine => if mine.poolId = poolId then some mine else node.poolRegistry.lookup poolId
  | none => node.poolRegistry.lookup poolId

-- The checks of `handle_pool_state_diff_gossip`: the state the diff leads to, or
-- nothing when it is dropped.
def acceptDiff (node : PoolNode) (diff : PoolStateDiff) (nowMs : Nat) : Option PoolState :=
  if timestampFreshOneSided diff.timestampMs nowMs 300000 5000 = false then none
  else if prims.keyValid diff.poolId = false then none
  else if verifySig prims diff.ownerSignature (poolStateDiffPayload prims diff.poolId diff.parentGeneration
      diff.newGeneration diff.stateChecksum diff.timestampMs) diff.poolId = false then none
  else if diff.newGeneration ≤ diff.parentGeneration then none
  else if node.maxPoolSize < diff.addedMembers.length ∨ node.maxPoolSize < diff.removedNodeIds.length ∨
      (diff.shardPins.any fun pins => node.maxPoolSize * 8 < pins.length) = true then none
  else
    match diffBase node diff.poolId with
    | none => none
    | some base =>
      if base.generation ≠ diff.parentGeneration then none
      else
        let next := applyDiff base diff
        if node.maxPoolSize < next.members.length then none
        else if poolStateChecksum prims next ≠ diff.stateChecksum then none
        else if (diff.addedMembers.all (memberVerified prims diff.poolId)) = false then none
        else some next

def mergeDiff (me : NodeId) (mine next : PoolState) : PoolState :=
  { mine with
    members := keepOwnDevice me mine.members next.members
    totalLifetimeCredits := next.totalLifetimeCredits
    memberCreditSplitPct := next.memberCreditSplitPct
    shardPins := next.shardPins
    generation := next.generation }

def handlePoolStateDiffGossip (diff : PoolStateDiff) (nowMs : Nat) : Prog PoolNode Unit := do
  let node ← Prog.get
  match acceptDiff prims node diff nowMs with
  | none => pure ()
  | some next => do
    updateMine diff.poolId fun mine => mergeDiff node.nodeId mine next
    Prog.modify fun node => { node with poolRegistry := node.poolRegistry.insert diff.poolId next }

def roster (members : List PoolMembership) : List (NodeId × Uuid) :=
  members.map fun member => (member.nodeId, member.invitationId)

theorem roster_update_member {node : NodeId} {change : PoolMembership → PoolMembership} {members : List PoolMembership}
    (same : ∀ member, ((change member).nodeId, (change member).invitationId) = (member.nodeId, member.invitationId)) :
    roster (updateMember node change members) = roster members := by
  induction members with
  | nil => rfl
  | cons member rest ih =>
    rw [updateMember]
    split
    · simp only [roster, List.map_cons, same]
    · simp only [roster, List.map_cons] at ih ⊢
      rw [ih]

@[simp] theorem roster_keep_own_device (me : NodeId) (before members : List PoolMembership) :
    roster (keepOwnDevice me before members) = roster members :=
  roster_update_member fun _ => rfl

end SwarmLlm.Pool
