import SwarmLlm.Pool.Loop

namespace SwarmLlm.Pool

open Lib Prog

section Settings

-- Rust's `trim` drops the characters with the Unicode White_Space property.
def isWhitespace (char : Char) : Bool :=
  let code := char.toNat
  decide (9 ≤ code ∧ code ≤ 13) || decide (8192 ≤ code ∧ code ≤ 8202) ||
    [32, 133, 160, 5760, 8232, 8233, 8239, 8287, 12288].contains code

def trim (text : String) : String :=
  String.ofList (((text.toList.dropWhile isWhitespace).reverse.dropWhile isWhitespace).reverse)

def changePool (change : PoolState → Except SwarmError PoolState) : Prog PoolManager (Except SwarmError Unit) := do
  let manager ← get
  match manager.node.poolState with
  | none => pure (.error (.validation "Not in a pool"))
  | some state =>
    match change state with
    | .error error => pure (.error error)
    | .ok changed => do
      setPoolState (some changed)
      let stored ← onNode (persistPoolState changed)
      pure (asDatabase stored)

def withDeviceName (me : NodeId) (name : String) (state : PoolState) : PoolState :=
  { state with
    members := updateMember me (fun member => { member with deviceName := if name = "" then none else some name }) state.members }

def handleSetDeviceName (name : String) : Prog PoolManager (Except SwarmError Unit) := do
  let manager ← get
  let trimmed := trim name
  if 32 < trimmed.toList.length ∨ 64 < (utf8 trimmed).length then
    pure (.error (.validation "Device name must be 32 characters or less"))
  else changePool fun state => .ok (withDeviceName manager.node.nodeId trimmed state)

def handleSetCreditSplit (pct : UInt8) : Prog PoolManager (Except SwarmError Unit) := do
  let manager ← get
  if 100 < pct then pure (.error (.validation "Split must be 0-100"))
  else changePool fun state =>
    if state.poolId ≠ manager.node.nodeId then .error (.validation "Only the pool owner can change the credit split")
    else .ok { state with memberCreditSplitPct := pct }

def withContributionLevel (member : NodeId) (level : UInt8) (state : PoolState) : PoolState :=
  { state with members := updateMember member (fun entry => { entry with contributionLevel := level }) state.members }

def handleSetContributionLevel (member : NodeId) (level : UInt8) : Prog PoolManager (Except SwarmError Unit) := do
  let manager ← get
  if 100 < level then pure (.error (.validation "Level must be 0-100"))
  else changePool fun state =>
    if state.poolId ≠ manager.node.nodeId then .error (.validation "Only the pool owner can set contribution levels")
    else if (state.members.any fun entry => entry.nodeId = member) = false then
      .error (.validation "Device not found in pool")
    else .ok (withContributionLevel member level state)

def maxDeviceNameBytes : Nat := 64
def maxModelsHosted : Nat := 64
def maxModelNameLen : Nat := 256

def takeBytes : Nat → List Char → List Char
  | _, [] => []
  | room, char :: rest => if char.utf8Size ≤ room then char :: takeBytes (room - char.utf8Size) rest else []

def capDeviceName (name : String) : String :=
  if maxDeviceNameBytes < (utf8 name).length then String.ofList (takeBytes maxDeviceNameBytes name.toList) else name

def capModelName (name : String) : String :=
  if maxModelNameLen < (utf8 name).length then String.ofList (name.toList.take maxModelNameLen) else name

def capStats (stats : PoolDeviceStats) : PoolDeviceStats :=
  if maxModelsHosted < stats.modelsHosted.length ||
      stats.modelsHosted.any fun model => decide (maxModelNameLen < (utf8 model).length) then
    { stats with modelsHosted := (stats.modelsHosted.take maxModelsHosted).map capModelName }
  else stats

def withReport (report : DeviceStatsReport) (now : DateTime) (state : PoolState) : PoolState :=
  { state with
    members := updateMember report.nodeId
      (fun member =>
        { member with
          deviceName := (report.deviceName.map capDeviceName).or member.deviceName
          deviceStats := some (capStats report.stats), lastSeen := some now, online := true })
      state.members }

-- Memory only: a report is not persisted.
def handleInboundDeviceStatsReport (report : DeviceStatsReport) (now : DateTime) : Prog PoolManager Unit := do
  let manager ← get
  if report.poolId ≠ manager.node.nodeId then pure ()
  else
    match manager.node.poolState with
    | none => pure ()
    | some state => setPoolState (some (withReport report now state))

end Settings

section Restart

variable (now : DateTime)

def staleReplays (replays : Table ReplayKey Int) : List ReplayKey :=
  (Table.retain (fun _ seen => decide (seen < timestamp now - 300)) replays).keys

def sweepReplayTable : Prog PoolManager Unit := do
  let manager ← get
  forEach (staleReplays now manager.node.removalReplays) fun key => do
    let _ ← onNode (write fun node => { node with removalReplays := node.removalReplays.erase key })
    pure ()

-- What a process that has just started finds in memory. The ledger reloads the
-- balance itself.
def PoolManager.booted (manager : PoolManager) : PoolManager :=
  { manager with
    node := { manager.node with poolState := none, poolRegistry := ∅, creditForwardRl := ∅ }
    rateEvents := [], pendingInvitations := ∅, inviteCodes := ∅, autoAcceptCodeHash := none, joinResend := none
    lastPoolGossipAt := none, poolGossipDirty := false, lastBroadcastState := none, diffsSinceFull := 0 }

def restorePoolState : Prog PoolManager Unit :=
  onNode (modify fun node =>
    match node.poolStateRecord with
    | none => node
    | some state =>
      { node with poolState := some state, poolRegistry := node.poolRegistry.insert state.poolId state })

def restoreInvitations : Prog PoolManager Unit :=
  modify fun manager =>
    { manager with
      pendingInvitations := Table.collect PoolInvitation.id (fun invitation => decide (now < invitation.expiresAt))
        (Table.values manager.invitationTree) }

def codeActive (entry : PoolInviteCode) : Bool := !entry.consumed && decide (now < entry.expiresAt)

def restoreCode (entry : PoolInviteCode) : Prog PoolManager Unit :=
  if codeActive now entry then
    modify fun manager => { manager with inviteCodes := manager.inviteCodes.insert entry.codeHash entry }
  else do
    let _ ← write fun manager => { manager with inviteCodeTree := manager.inviteCodeTree.erase entry.codeHash }
    pure ()

def restoreState : Prog PoolManager Unit := do
  restorePoolState
  sweepReplayTable now
  restoreInvitations now
  let manager ← get
  forEach (Table.values manager.inviteCodeTree) (restoreCode now)

end Restart

-- The commands, the inbound messages and the timers of the manager's loop, each
-- with what it draws or measures. Commands that only read are left out.
inductive PoolEvent where
  | createPool (name : String)
  | createInvitation (invitee : NodeId) (id : Uuid)
  | acceptInvitation (invitation : PoolInvitation) (nickname : Option String) (stats : PoolDeviceStats)
  | removeMember (member : NodeId) (removalId : Uuid)
  | leavePool (nonce : Uuid)
  | processCreditForward (forward : PoolCreditForward)
  | poolStateGossip (state : PoolState)
  | poolStateDiffGossip (diff : PoolStateDiff)
  | inboundBlindedInvitation (blinded : BlindedPoolInvitation) (nickname : Option String) (stats : PoolDeviceStats)
  | inboundAcceptance (acceptance : PoolAcceptance) (stats : PoolDeviceStats)
  | inboundRemoval (removal : PoolRemoval)
  | inboundMemberLeft (notice : MemberLeft)
  | setDeviceName (name : String)
  | setCreditSplit (pct : UInt8)
  | setContributionLevel (member : NodeId) (level : UInt8)
  | generateInviteCode (code : String) (multiaddrs : List String)
  | joinWithCode (shortCode : Except SwarmError String)
  | inboundJoinRequest (codeHash : Bytes) (requester : NodeId) (id : Uuid)
  | inboundDeviceStatsReport (report : DeviceStatsReport)
  | joinResendDue
  | gossipInterval (nickname : Option String) (stats : PoolDeviceStats)
  | poolCoalesceInterval (stats : PoolDeviceStats)
  | replaySweep
  | restart

section Machine

variable (prims : Primitives)

def PoolEvent.handle (now : DateTime) : PoolEvent → Prog PoolManager Unit
  | .createPool name => do let _ ← handleCreatePool prims name now; pure ()
  | .createInvitation invitee id => do let _ ← handleCreateInvitation prims invitee none id now; pure ()
  | .acceptInvitation invitation nickname stats => do
    let _ ← handleAcceptInvitation prims invitation nickname stats now; pure ()
  | .removeMember member removalId => do let _ ← handleRemoveMember prims member removalId now; pure ()
  | .leavePool nonce => do let _ ← handleLeavePool prims nonce now; pure ()
  | .processCreditForward forward => onNode (handleCreditForward prims forward now)
  | .poolStateGossip state => onNode (handlePoolStateGossip prims state)
  | .poolStateDiffGossip diff => onNode (handlePoolStateDiffGossip prims diff (now / 1000000).toNat)
  | .inboundBlindedInvitation blinded nickname stats => handleInboundBlindedInvitation prims blinded nickname stats now
  | .inboundAcceptance acceptance stats => handleInboundAcceptance prims acceptance stats now
  | .inboundRemoval removal => onNode (handleInboundRemoval prims removal now)
  | .inboundMemberLeft notice => onNode (handleInboundMemberLeft prims notice now)
  | .setDeviceName name => do let _ ← handleSetDeviceName name; pure ()
  | .setCreditSplit pct => do let _ ← handleSetCreditSplit pct; pure ()
  | .setContributionLevel member level => do let _ ← handleSetContributionLevel member level; pure ()
  | .generateInviteCode code multiaddrs => do let _ ← handleGenerateInviteCode prims code multiaddrs now; pure ()
  | .joinWithCode shortCode => do let _ ← handleJoinWithCode prims shortCode now; pure ()
  | .inboundJoinRequest codeHash requester id => handleInboundJoinRequest prims codeHash requester id now
  | .inboundDeviceStatsReport report => handleInboundDeviceStatsReport report now
  | .joinResendDue => resendJoinRequest now
  | .gossipInterval nickname stats => gossipTick prims nickname stats now
  | .poolCoalesceInterval stats => coalesceTick prims stats now
  | .replaySweep => sweepReplayTable now
  | .restart => do
    modify PoolManager.booted
    restoreState now

-- `down` says that the process was cut off and has not started again.
structure PoolWorld where
  manager : PoolManager
  clock : DateTime
  down : Bool

structure PoolTurn where
  now : DateTime
  event : PoolEvent
  fates : List WriteFate

def PoolEvent.isRestart : PoolEvent → Bool
  | .restart => true
  | _ => false

def afterHandling (now : DateTime) : Outcome Unit × Machine PoolManager → PoolWorld
  | (.done _, after) => ⟨after.store, now, false⟩
  | (.crashed, after) => ⟨after.store, now, true⟩

-- A process that is down handles nothing until it starts again.
def poolStep (world : PoolWorld) (turn : PoolTurn) : PoolWorld :=
  if world.down && !turn.event.isRestart then { world with clock := turn.now }
  else afterHandling turn.now (turn.event.handle prims turn.now ⟨world.manager, turn.fates⟩)

theorem after_handling_manager (now : DateTime) (result : Outcome Unit × Machine PoolManager) :
    (afterHandling now result).manager = result.2.store := by
  obtain ⟨outcome, after⟩ := result
  cases outcome <;> rfl

theorem step_clock (world : PoolWorld) (turn : PoolTurn) : (poolStep prims world turn).clock = turn.now := by
  unfold poolStep
  split
  · rfl
  · obtain ⟨outcome, after⟩ := turn.event.handle prims turn.now ⟨world.manager, turn.fates⟩
    cases outcome <;> rfl

end Machine

def sampleManager (node : PoolNode) : PoolManager :=
  { node := node, invitationTtlHours := 24, rateLimitPerHour := 10, stateDiffGossip := false, rateEvents := []
    pendingInvitations := ∅, inviteCodes := ∅, autoAcceptCodeHash := none, joinResend := none, lastPoolGossipAt := none
    poolGossipDirty := false, lastBroadcastState := none, diffsSinceFull := 0, invitationTree := ∅, inviteCodeTree := ∅
    signed := [] }

end SwarmLlm.Pool
