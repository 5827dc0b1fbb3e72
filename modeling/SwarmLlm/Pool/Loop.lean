import SwarmLlm.Pool.Invitations

namespace SwarmLlm.Pool

open Lib Prog

def poolGossipMinInterval : Int := 15 * secondsNs
def maxDiffsBeforeFull : Nat := 4

section Handlers

variable (prims : Primitives)

def touchOwner (me : NodeId) (stats : PoolDeviceStats) (now : DateTime) (state : PoolState) : PoolState :=
  { state with
    members := updateMember me
      (fun member => { member with deviceStats := some stats, lastSeen := some now, online := true }) state.members }

def poolStateChecksumAt (state : PoolState) (generation : Nat) : Bytes :=
  poolStateChecksum prims { state with generation := generation }

def changedSince (last : Option PoolState) (state : PoolState) : Bool :=
  match last with
  | none => true
  | some prev => decide (poolStateChecksumAt prims prev 0 ≠ poolStateChecksumAt prims state 0)

def nextDiff (manager : PoolManager) (current : PoolState) (changed : Bool) (now : DateTime) : Option PoolStateDiff :=
  if manager.stateDiffGossip && decide (manager.diffsSinceFull < maxDiffsBeforeFull) && changed then
    manager.lastBroadcastState.bind fun prev =>
      buildPoolStateDiff prims manager.node.nodeId prev current (now / 1000000).toNat
  else none

def sendPoolState (diff : Option PoolStateDiff) (current : PoolState) : Prog PoolManager Unit :=
  match diff with
  | some diff => do
    send (.stateDiff diff)
    modify fun manager =>
      { manager with diffsSinceFull := manager.diffsSinceFull + 1, lastBroadcastState := some current }
  | none => do
    send (.stateGossip current)
    modify fun manager => { manager with diffsSinceFull := 0, lastBroadcastState := some current }

def nextGeneration (last : Option PoolState) (changed : Bool) : Nat :=
  let priorGen := (last.map PoolState.generation).getD 0
  if changed then satAddU priorGen 1 else priorGen

variable (stats : PoolDeviceStats) (now : DateTime)

def noteGossip : Prog PoolManager Unit :=
  modify fun manager => { manager with lastPoolGossipAt := some now, poolGossipDirty := false }

def gossipPoolState : Prog PoolManager Unit := do
  let manager ← get
  match manager.node.poolState with
  | none => pure ()
  | some state =>
    if state.poolId ≠ manager.node.nodeId then noteGossip now
    else do
      let touched := touchOwner manager.node.nodeId stats now state
      let changed := changedSince prims manager.lastBroadcastState touched
      let current := { touched with generation := nextGeneration manager.lastBroadcastState changed }
      -- The new generation is kept only with a change.
      setPoolState (some (if changed then current else touched))
      sendPoolState (nextDiff prims manager current changed now) current
      noteGossip now

def gossipReady (manager : PoolManager) (now : DateTime) : Bool :=
  match manager.lastPoolGossipAt with
  | none => true
  | some last => decide (poolGossipMinInterval ≤ now - last)

def maybeGossipPoolState : Prog PoolManager Unit := do
  let manager ← get
  if gossipReady manager now then gossipPoolState prims stats now
  else modify fun manager => { manager with poolGossipDirty := true }

def coalesceTick : Prog PoolManager Unit := do
  let manager ← get
  if manager.poolGossipDirty && gossipReady manager now then gossipPoolState prims stats now else pure ()

def gossipTick (nickname : Option String) (stats : PoolDeviceStats) (now : DateTime) : Prog PoolManager Unit := do
  gossipPoolState prims stats now
  sendDeviceStatsReport nickname stats
  modify fun manager =>
    { manager with
      autoAcceptCodeHash := manager.autoAcceptCodeHash.filter fun intent => decide (now - intent.2 < autoAcceptTimeout) }

-- The checks between finding the invitation and consuming it. Capacity is checked
-- here so that a full pool leaves the invitation for a retry.
def acceptanceRefused (node : PoolNode) (acceptance : PoolAcceptance) (invitation : PoolInvitation) (now : DateTime) :
    Bool :=
  decide (invitation.inviteeNodeId ≠ acceptance.inviteeNodeId) || decide (invitation.expiresAt < now) ||
    !prims.keyValid acceptance.inviteeNodeId ||
    !verifyAcceptance prims acceptance acceptance.inviteeNodeId invitation.expiresAt ||
    node.poolState.any fun state => decide (node.maxPoolSize ≤ state.members.length)

def admitMember (acceptance : PoolAcceptance) (expiresAt now : DateTime) (state : PoolState) : PoolState :=
  { state with
    members := state.members ++ [
      { nodeId := acceptance.inviteeNodeId, creditsContributed := 0, joinedAt := acceptance.acceptedAt
        acceptanceSignature := acceptance.inviteeSignature, invitationId := acceptance.invitationId
        invitationExpiresAt := expiresAt, deviceName := none, lastSeen := some now, online := true
        deviceStats := none, contributionLevel := 100 }] }

def handleInboundAcceptance (acceptance : PoolAcceptance) (stats : PoolDeviceStats) (now : DateTime) :
    Prog PoolManager Unit := do
  let manager ← get
  if acceptance.poolId ≠ manager.node.nodeId then pure ()
  else
    match manager.pendingInvitations.lookup acceptance.invitationId with
    | none => pure ()
    | some invitation =>
      if acceptanceRefused prims manager.node acceptance invitation now then pure ()
      else do
        consumeInvitation acceptance.invitationId
        match manager.node.poolState with
        | none => pure ()
        | some state =>
          if state.members.any fun member => member.nodeId = acceptance.inviteeNodeId then pure ()
          else do
            let grown := admitMember acceptance invitation.expiresAt now state
            setPoolState (some grown)
            let _ ← onNode (persistPoolState grown)
            maybeGossipPoolState prims stats now

def PoolInviteCode.isExpired (entry : PoolInviteCode) (now : DateTime) : Bool := decide (entry.expiresAt < now)

def newInviteCode (poolId : PoolId) (ttlHours : Nat) (code : String) (now : DateTime) : PoolInviteCode :=
  ⟨code, poolId, now, now + ttlHours * hourNs, prims.blake3 (utf8 code), false, none, none⟩

structure InviteCodePayload where
  version : UInt8
  poolId : PoolId
  poolName : String
  multiaddrs : List String
  code : String
  expiresAtUnix : Int

def invitingPool (node : PoolNode) : Except SwarmError PoolState :=
  match node.poolState with
  | none => .error (.validation "Not in a pool")
  | some state =>
    if state.poolId ≠ node.nodeId then .error (.validation "Only the pool owner can generate invite codes")
    else if node.maxPoolSize ≤ state.members.length then
      .error (.validation ("Pool is full (" ++ toString node.maxPoolSize ++ " members)"))
    else .ok state

-- `code` is the drawn short code, `multiaddrs` the addresses a joiner can use.
def handleGenerateInviteCode (code : String) (multiaddrs : List String) (now : DateTime) :
    Prog PoolManager (Except SwarmError InviteCodePayload) := do
  let manager ← get
  match invitingPool manager.node with
  | .error error => pure (.error error)
  | .ok state => do
    let allowed ← checkAndRecord now
    if allowed = false then pure (.error (.validation "Rate limited — try again later"))
    else do
      let active := Table.retain (fun _ entry => !PoolInviteCode.isExpired entry now && !entry.consumed) manager.inviteCodes
      modify fun manager => { manager with inviteCodes := active }
      if maxActiveCodes ≤ active.keys.length then
        pure (.error (.validation ("Too many active invite codes (" ++ toString maxActiveCodes ++
          "). Wait for existing codes to expire.")))
      else if multiaddrs = [] then
        pure (.error (.serviceUnavailable
          "No reachable network addresses yet — wait a few seconds after startup and try again"))
      else do
        let entry := newInviteCode prims manager.node.nodeId manager.invitationTtlHours code now
        let _ ← write fun manager =>
          { manager with inviteCodeTree := manager.inviteCodeTree.insert entry.codeHash entry }
        modify fun manager => { manager with inviteCodes := manager.inviteCodes.insert entry.codeHash entry }
        pure (.ok ⟨1, manager.node.nodeId, state.name, multiaddrs, code, timestamp now + manager.invitationTtlHours * 3600⟩)

def joinResendDelay (sends : Nat) : Int := (min (2 ^ min sends 5) 30 : Nat) * secondsNs

-- `shortCode` is the join token the entered text names, or why it names none.
def handleJoinWithCode (shortCode : Except SwarmError String) (now : DateTime) : Prog PoolManager (Except SwarmError Unit) := do
  let manager ← get
  if manager.node.poolState.isSome then pure (.error (.validation "Already in a pool"))
  else
    match shortCode with
    | .error error => pure (.error error)
    | .ok code => do
      let codeHash := prims.blake3 (utf8 code)
      let me := manager.node.nodeId
      let request : JoinRequest := ⟨codeHash, me, prims.sign me (joinRequestPayload prims codeHash me)⟩
      send (.joinRequest request)
      modify fun manager =>
        { manager with
          autoAcceptCodeHash := some (codeHash, now)
          joinResend := some ⟨request, 1, now, now + joinResendDelay 1⟩ }
      pure (.ok ())

def resendJoinRequest : Prog PoolManager Unit := do
  let manager ← get
  match manager.joinResend with
  | none => pure ()
  | some resend =>
    if manager.node.poolState.isSome || manager.autoAcceptCodeHash.map Prod.fst != some resend.request.codeHash then
      modify fun manager => { manager with joinResend := none }
    else if autoAcceptTimeout ≤ now - resend.started then
      modify fun manager => { manager with joinResend := none, autoAcceptCodeHash := none }
    else do
      modify fun manager =>
        { manager with
          joinResend := some { resend with sends := resend.sends + 1, nextAt := now + joinResendDelay (resend.sends + 1) } }
      send (.joinRequest resend.request)

def updateCode (codeHash : Bytes) (change : PoolInviteCode → PoolInviteCode) : Prog PoolManager Unit :=
  modify fun manager =>
    match manager.inviteCodes.lookup codeHash with
    | none => manager
    | some entry => { manager with inviteCodes := manager.inviteCodes.insert codeHash (change entry) }

-- A used code answers only the device that used it, with the same invitation and
-- at most once per gap.
def answerRepeat (codeHash : Bytes) (entry : PoolInviteCode) (requester : NodeId) (now : DateTime) : Prog PoolManager Unit := do
  let manager ← get
  match entry.claimedBy with
  | none => pure ()
  | some (claimer, invitationId) =>
    if claimer ≠ requester then pure ()
    else if entry.repeatAnsweredAt.any fun last => decide (now - last < repeatJoinAnswerGap) then pure ()
    else
      match manager.pendingInvitations.lookup invitationId with
      | none => pure ()
      | some invitation => do
        updateCode codeHash fun entry => { entry with repeatAnsweredAt := some now }
        send (.blindedInvitation (blindedInvitation prims invitation (some codeHash)))

def ownsPool (node : PoolNode) : Bool := node.poolState.any fun state => decide (state.poolId = node.nodeId)

-- `id` is the UUID of the invitation the code turns into.
def handleInboundJoinRequest (codeHash : Bytes) (requester : NodeId) (id : Uuid) (now : DateTime) : Prog PoolManager Unit := do
  let manager ← get
  if ownsPool manager.node = false then pure ()
  else
    match manager.inviteCodes.lookup codeHash with
    | none => pure ()
    | some entry =>
      if entry.consumed then answerRepeat prims codeHash entry requester now
      else if PoolInviteCode.isExpired entry now then pure ()
      else do
        updateCode codeHash fun entry => { entry with consumed := true }
        let _ ← write fun manager => { manager with inviteCodeTree := manager.inviteCodeTree.erase codeHash }
        match ← handleCreateInvitation prims requester (some codeHash) id now with
        | .ok invitation => updateCode codeHash fun entry => { entry with claimedBy := some (requester, invitation.id) }
        | .error _ => updateCode codeHash fun entry => { entry with consumed := false }

end Handlers

end SwarmLlm.Pool
