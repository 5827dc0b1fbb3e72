import SwarmLlm.Pool.Gossip

namespace SwarmLlm.Pool

open Lib Prog

structure JoinResend where
  request : JoinRequest
  sends : Nat
  started : DateTime
  nextAt : DateTime

-- The manager: the node it serves, its configuration, what it keeps in memory, and
-- the trees of invitations and of invite codes. `signed` is ghost state: the
-- invitations this identity has signed, newest first.
structure PoolManager where
  node : PoolNode
  invitationTtlHours : Nat
  rateLimitPerHour : Nat
  stateDiffGossip : Bool
  rateEvents : List DateTime
  pendingInvitations : Table Uuid PoolInvitation
  inviteCodes : Table Bytes PoolInviteCode
  autoAcceptCodeHash : Option (Bytes × DateTime)
  joinResend : Option JoinResend
  lastPoolGossipAt : Option DateTime
  poolGossipDirty : Bool
  lastBroadcastState : Option PoolState
  diffsSinceFull : Nat
  invitationTree : Table Uuid PoolInvitation
  inviteCodeTree : Table Bytes PoolInviteCode
  signed : List PoolInvitation

def autoAcceptTimeout : Int := 300 * secondsNs
def repeatJoinAnswerGap : Int := secondsNs
def maxPendingInvitations : Nat := 50
def maxActiveCodes : Nat := 5

def onNode {R : Type} (prog : Prog PoolNode R) : Prog PoolManager R :=
  zoom PoolManager.node (fun manager node => { manager with node := node }) prog

def setPoolState (state : Option PoolState) : Prog PoolManager Unit :=
  onNode (modify fun node => { node with poolState := state })

def send (message : PoolMessage) : Prog PoolManager Unit := onNode (broadcast message)

def recentEvents (now : DateTime) (events : List DateTime) : List DateTime :=
  events.dropWhile fun event => event < now - hourNs

def checkAndRecord (now : DateTime) : Prog PoolManager Bool := do
  modify fun manager => { manager with rateEvents := recentEvents now manager.rateEvents }
  let manager ← get
  if manager.rateLimitPerHour ≤ manager.rateEvents.length then pure false
  else do
    modify fun manager => { manager with rateEvents := manager.rateEvents ++ [now] }
    pure true

def asDatabase (result : Except String Unit) : Except SwarmError Unit :=
  match result with
  | .ok _ => .ok ()
  | .error error => .error (.database error)

section Handlers

variable (prims : Primitives)

def isAsciiGraphic (char : Char) : Bool := decide (33 ≤ char.toNat ∧ char.toNat ≤ 126)

def newPool (me : NodeId) (name : String) (now : DateTime) : PoolState :=
  let signature := prims.sign me (poolCreatePayload prims me name now)
  { poolId := me, name := name, createdAt := now, ownerSignature := signature, totalLifetimeCredits := 0
    memberCreditSplitPct := 0, shardPins := [], generation := 0
    members := [
      { nodeId := me, creditsContributed := 0, joinedAt := now, acceptanceSignature := signature
        invitationId := Uuid.nil, invitationExpiresAt := now, deviceName := none, lastSeen := some now
        online := true, deviceStats := none, contributionLevel := 100 }] }

def handleCreatePool (name : String) (now : DateTime) : Prog PoolManager (Except SwarmError PoolState) := do
  let manager ← get
  if (utf8 name).length = 0 ∨ 64 < (utf8 name).length then
    pure (.error (.validation "Pool name must be 1-64 characters"))
  else if (name.toList.all fun char => isAsciiGraphic char || char == ' ') = false then
    pure (.error (.validation "Pool name may only contain printable ASCII characters"))
  else if manager.node.poolState.isSome then pure (.error (.validation "Already in a pool"))
  else do
    let allowed ← checkAndRecord now
    if allowed = false then pure (.error (.validation "Rate limit exceeded"))
    else do
      let state := newPool prims manager.node.nodeId name now
      match asDatabase (← onNode (persistPoolState state)) with
      | .error error => pure (.error error)
      | .ok _ => do
        onNode (modify fun node =>
          { node with poolState := some state, poolRegistry := node.poolRegistry.insert node.nodeId state })
        pure (.ok state)

def invitablePool (node : PoolNode) (invitee : NodeId) : Except SwarmError PoolId :=
  match node.poolState with
  | none => .error (.validation "Not in a pool")
  | some state =>
    if state.poolId ≠ node.nodeId then .error (.validation "Only the pool owner can invite")
    else if node.maxPoolSize ≤ state.members.length then
      .error (.validation ("Pool is full (max " ++ toString node.maxPoolSize ++ " members)"))
    else if state.members.any fun member => member.nodeId = invitee then
      .error (.validation "Node is already a pool member")
    else .ok state.poolId

def pruneInvitations (now : DateTime) : Prog PoolManager Unit :=
  modify fun manager =>
    { manager with
      pendingInvitations := Table.retain (fun _ invitation => decide (now < invitation.expiresAt)) manager.pendingInvitations }

variable (invitation : PoolInvitation)

def putInvitation : Prog PoolManager (Except String Unit) :=
  write fun manager => { manager with invitationTree := manager.invitationTree.insert invitation.id invitation }

def holdInvitation : Prog PoolManager Unit :=
  modify fun manager =>
    { manager with pendingInvitations := manager.pendingInvitations.insert invitation.id invitation }

-- Memory first, then the tree; the tree's error is dropped.
def consumeInvitation (id : Uuid) : Prog PoolManager Unit := do
  modify fun manager => { manager with pendingInvitations := manager.pendingInvitations.erase id }
  let _ ← write fun manager => { manager with invitationTree := manager.invitationTree.erase id }
  pure ()

-- `id` is the UUID that `create_invitation` draws.
def handleCreateInvitation (invitee : NodeId) (codeHash : Option Bytes) (id : Uuid) (now : DateTime) :
    Prog PoolManager (Except SwarmError PoolInvitation) := do
  let manager ← get
  match invitablePool manager.node invitee with
  | .error error => pure (.error error)
  | .ok poolId => do
    let allowed ← checkAndRecord now
    if allowed = false then pure (.error (.validation "Rate limit exceeded"))
    else do
      pruneInvitations now
      let pruned ← get
      if maxPendingInvitations ≤ pruned.pendingInvitations.keys.length then
        pure (.error (.validation ("Too many pending invitations (" ++ toString maxPendingInvitations ++
          "). Wait for existing ones to expire or be accepted.")))
      else do
        let invitation := createInvitation prims manager.node.nodeId poolId invitee manager.invitationTtlHours id now
        modify fun manager => { manager with signed := invitation :: manager.signed }
        match asDatabase (← putInvitation invitation) with
        | .error error => pure (.error error)
        | .ok _ => do
          holdInvitation invitation
          send (.blindedInvitation (blindedInvitation prims invitation codeHash))
          pure (.ok invitation)

def ownDeviceName (node : PoolNode) : Option String :=
  node.poolState.bind fun state =>
    (state.members.find? fun member => member.nodeId = node.nodeId).bind PoolMembership.deviceName

-- `nickname` is the identity's own, `stats` what the node measures of itself.
def sendDeviceStatsReport (nickname : Option String) (stats : PoolDeviceStats) : Prog PoolManager Unit := do
  let manager ← get
  match manager.node.poolState with
  | none => pure ()
  | some state =>
    if state.poolId = manager.node.nodeId then pure ()
    else send (.deviceStatsReport ⟨state.poolId, manager.node.nodeId, (ownDeviceName manager.node).or nickname, stats⟩)

def joinedPool (me : NodeId) (invitation : PoolInvitation) (acceptance : PoolAcceptance) (nickname : Option String)
    (now : DateTime) : PoolState :=
  { poolId := invitation.poolId, name := "", createdAt := now, ownerSignature := invitation.ownerSignature
    totalLifetimeCredits := 0, memberCreditSplitPct := 0, shardPins := [], generation := 0
    members := [
      { nodeId := me, creditsContributed := 0, joinedAt := now, acceptanceSignature := acceptance.inviteeSignature
        invitationId := invitation.id, invitationExpiresAt := invitation.expiresAt, deviceName := nickname
        lastSeen := some now, online := true, deviceStats := none, contributionLevel := 100 }] }

def handleAcceptInvitation (nickname : Option String) (stats : PoolDeviceStats)
    (now : DateTime) : Prog PoolManager (Except SwarmError Unit) := do
  let manager ← get
  if manager.node.poolState.isSome then pure (.error (.validation "Already in a pool"))
  else if invitation.inviteeNodeId ≠ manager.node.nodeId then
    pure (.error (.validation "Invitation is not for this node"))
  else if invitation.expiresAt < now then pure (.error (.validation "Invitation has expired"))
  else if prims.keyValid invitation.poolId = false then pure (.error (.validation "Invalid pool owner key"))
  else if verifyInvitation prims invitation invitation.poolId = false then pure (.error .invalidSignature)
  else do
    let allowed ← checkAndRecord now
    if allowed = false then pure (.error (.validation "Rate limit exceeded"))
    else do
      let acceptance := createAcceptance prims manager.node.nodeId invitation now
      let state := joinedPool manager.node.nodeId invitation acceptance nickname now
      match asDatabase (← onNode (persistPoolState state)) with
      | .error error => pure (.error error)
      | .ok _ => do
        setPoolState (some state)
        send (.acceptance acceptance)
        consumeInvitation invitation.id
        sendDeviceStatsReport nickname stats
        pure (.ok ())

def removableFrom (node : PoolNode) (member : NodeId) : Except SwarmError PoolState :=
  match node.poolState with
  | none => .error (.validation "Not in a pool")
  | some state =>
    if state.poolId ≠ node.nodeId then .error (.validation "Only the pool owner can remove members")
    else if member = node.nodeId then .error (.validation "Owner cannot remove themselves")
    else if (dropMember member state).members.length = state.members.length then
      .error (.validation "Node is not a pool member")
    else .ok (dropMember member state)

def handleRemoveMember (member : NodeId) (removalId : Uuid) (now : DateTime) : Prog PoolManager (Except SwarmError Unit) := do
  let allowed ← checkAndRecord now
  if allowed = false then pure (.error (.validation "Rate limit exceeded"))
  else do
    let manager ← get
    match removableFrom manager.node member with
    | .error error => pure (.error error)
    | .ok left => do
      setPoolState (some left)
      match asDatabase (← onNode (persistPoolState left)) with
      | .error error => pure (.error error)
      | .ok _ => do
        send (.removal (createRemoval prims manager.node.nodeId left.poolId member removalId now))
        pure (.ok ())

def handleLeavePool (nonce : Uuid) (now : DateTime) : Prog PoolManager (Except SwarmError Unit) := do
  let manager ← get
  match manager.node.poolState with
  | none => pure (.error (.validation "Not in a pool"))
  | some state => do
    let allowed ← checkAndRecord now
    if allowed = false then pure (.error (.validation "Rate limit exceeded"))
    else
      match asDatabase (← onNode (write fun node => { node with poolStateRecord := none })) with
      | .error error => pure (.error error)
      | .ok _ => do
        onNode (modify fun node =>
          { node with poolState := none, poolRegistry := node.poolRegistry.erase state.poolId })
        let me := manager.node.nodeId
        let leftAt := timestamp now
        send (.memberLeft ⟨state.poolId, me, leftAt, nonce, prims.sign me (memberLeftPayload prims state.poolId me leftAt nonce)⟩)
        pure (.ok ())

def unblind (me : NodeId) (blinded : BlindedPoolInvitation) : PoolInvitation :=
  ⟨blinded.id, blinded.poolId, me, blinded.expiresAt, blinded.ownerSignature, blinded.createdAt⟩

def autoAccept (blinded : BlindedPoolInvitation) (invitation : PoolInvitation) (nickname : Option String)
    (stats : PoolDeviceStats) (now : DateTime) : Prog PoolManager Unit := do
  let manager ← get
  match manager.autoAcceptCodeHash with
  | none => pure ()
  | some (hash, createdAt) =>
    if autoAcceptTimeout ≤ now - createdAt then modify fun manager => { manager with autoAcceptCodeHash := none }
    else if blinded.codeHash = some hash then do
      modify fun manager => { manager with autoAcceptCodeHash := none }
      let _ ← handleAcceptInvitation prims invitation nickname stats now
      pure ()
    else pure ()

def handleInboundBlindedInvitation (blinded : BlindedPoolInvitation) (nickname : Option String) (stats : PoolDeviceStats)
    (now : DateTime) : Prog PoolManager Unit := do
  let manager ← get
  let invitation := unblind manager.node.nodeId blinded
  if computeInviteeCommitment prims manager.node.nodeId blinded.id ≠ blinded.inviteeCommitment then pure ()
  else if prims.keyValid invitation.poolId = false then pure ()
  else if verifyInvitation prims invitation invitation.poolId = false then pure ()
  else if invitation.expiresAt < now then pure ()
  else do
    pruneInvitations now
    let pruned ← get
    if maxPendingInvitations ≤ pruned.pendingInvitations.keys.length then pure ()
    else do
      holdInvitation invitation
      let _ ← putInvitation invitation
      autoAccept prims blinded invitation nickname stats now

end Handlers

end SwarmLlm.Pool
