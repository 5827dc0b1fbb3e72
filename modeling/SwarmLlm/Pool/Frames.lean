import SwarmLlm.Pool.Machine
import SwarmLlm.Lib.Triple

namespace SwarmLlm.Pool

open Lib
open Lib.Prog

variable {V : Type}

-- The view does not see what the manager keeps for rate limits, invite codes, joins
-- and its own broadcasts.
structure IgnoresBookkeeping (view : PoolManager → V) : Prop where
  rate : ∀ manager events, view { manager with rateEvents := events } = view manager
  codes : ∀ manager codes, view { manager with inviteCodes := codes } = view manager
  codeTree : ∀ manager tree, view { manager with inviteCodeTree := tree } = view manager
  joining : ∀ manager intent resend, view { manager with autoAcceptCodeHash := intent, joinResend := resend } = view manager
  gossipTime : ∀ manager last dirty, view { manager with lastPoolGossipAt := last, poolGossipDirty := dirty } = view manager
  gossipBase : ∀ manager diffs last, view { manager with diffsSinceFull := diffs, lastBroadcastState := last } = view manager
  sent : ∀ manager messages, view { manager with node := { manager.node with broadcasts := messages } } = view manager

variable {now : DateTime}

section Bookkeeping

variable {view : PoolManager → V} (ignores : IgnoresBookkeeping view) (prims : Primitives)
include ignores

theorem check_and_record_keeps : (checkAndRecord now).Keeps view := by
  refine keeps_bind (keeps_modify fun manager => ignores.rate manager _) fun _ => ?_
  refine keeps_bind keeps_get fun manager => keeps_guard ?_
  exact keeps_bind (keeps_modify fun manager => ignores.rate manager _) fun _ => keeps_pure

theorem send_keeps (message : PoolMessage) : (send message).Keeps view := by
  constructor
  intro quiet seen
  unfold send onNode broadcast
  refine triple_zoom fun manager same => ?_
  refine triple_modify fun node equal => ?_
  rw [equal]
  exact (ignores.sent manager _).trans same

theorem send_device_stats_report_keeps {nickname : Option String} {stats : PoolDeviceStats} :
    (sendDeviceStatsReport nickname stats).Keeps view := by
  refine keeps_bind keeps_get fun manager => ?_
  split
  · exact keeps_pure
  · exact keeps_guard (send_keeps ignores _)

theorem send_pool_state_keeps {diff : Option PoolStateDiff} {current : PoolState} : (sendPoolState diff current).Keeps view := by
  unfold sendPoolState
  split
  · exact keeps_bind (send_keeps ignores _) fun _ => keeps_modify fun manager => ignores.gossipBase manager _ _
  · exact keeps_bind (send_keeps ignores _) fun _ => keeps_modify fun manager => ignores.gossipBase manager _ _

theorem note_gossip_keeps : (noteGossip now).Keeps view :=
  keeps_modify fun manager => ignores.gossipTime manager _ _

theorem update_code_keeps (codeHash : Bytes) (change : PoolInviteCode → PoolInviteCode) :
    (updateCode codeHash change).Keeps view := by
  refine keeps_modify fun manager => ?_
  split
  · rfl
  · exact ignores.codes manager _

theorem answer_repeat_keeps {codeHash : Bytes} (entry : PoolInviteCode) (requester : NodeId) (now : DateTime) :
    (answerRepeat prims codeHash entry requester now).Keeps view := by
  refine keeps_bind keeps_get fun manager => ?_
  split
  · exact keeps_pure
  · refine keeps_guard (keeps_guard ?_)
    split
    · exact keeps_pure
    · exact keeps_bind (update_code_keeps ignores codeHash _) fun _ => send_keeps ignores _

theorem generate_invite_code_keeps (code : String) (multiaddrs : List String) (now : DateTime) :
    (handleGenerateInviteCode prims code multiaddrs now).Keeps view := by
  refine keeps_bind keeps_get fun manager => ?_
  split
  · exact keeps_pure
  · refine keeps_bind (check_and_record_keeps ignores) fun allowed => keeps_guard ?_
    refine keeps_bind (keeps_modify fun manager => ignores.codes manager _) fun _ => keeps_guard (keeps_guard ?_)
    refine keeps_bind (keeps_write fun manager => ignores.codeTree manager _) fun _ => ?_
    exact keeps_bind (keeps_modify fun manager => ignores.codes manager _) fun _ => keeps_pure

theorem join_with_code_keeps (shortCode : Except SwarmError String) (now : DateTime) :
    (handleJoinWithCode prims shortCode now).Keeps view := by
  refine keeps_bind keeps_get fun manager => keeps_guard ?_
  split
  · exact keeps_pure
  · refine keeps_bind (send_keeps ignores _) fun _ => ?_
    exact keeps_bind (keeps_modify fun manager => ignores.joining manager _ _) fun _ => keeps_pure

theorem resend_join_request_keeps : (resendJoinRequest now).Keeps view := by
  refine keeps_bind keeps_get fun manager => ?_
  split
  · exact keeps_pure
  · split
    · exact keeps_modify fun manager => ignores.joining manager _ none
    · split
      · exact keeps_modify fun manager => ignores.joining manager none none
      · exact keeps_bind (keeps_modify fun manager => ignores.joining manager _ _) fun _ => send_keeps ignores _

theorem restore_code_keeps (entry : PoolInviteCode) : (restoreCode now entry).Keeps view := by
  unfold restoreCode
  split
  · exact keeps_modify fun manager => ignores.codes manager _
  · exact keeps_bind (keeps_write fun manager => ignores.codeTree manager _) fun _ => keeps_pure

end Bookkeeping

theorem apply_forward_keeps {view : PoolNode → V} (unseen : ∀ node books, view { node with books := books } = view node)
    (amount : Int) (now : DateTime) : (applyForward amount now).Keeps view := by
  have inner : (SwarmLlm.Credit.applyCreditDirectNoted amount .earning now).Keeps fun _ => () := by
    refine keeps_bind (keeps_modify fun _ => rfl) fun _ => ?_
    refine keeps_bind (keeps_write fun _ => rfl) fun stored => ?_
    split
    · exact keeps_bind (keeps_modify fun _ => rfl) fun _ => keeps_pure
    · exact keeps_bind (keeps_write fun _ => rfl) fun _ => keeps_pure
  exact keeps_zoom inner fun node books _ => unseen node books

def nodeReplays (node : PoolNode) : NodeId × Table ReplayKey Int := (node.nodeId, node.removalReplays)

def replayView (manager : PoolManager) : NodeId × Table ReplayKey Int := nodeReplays manager.node

variable {id : Uuid}

section Frame

variable {prims : Primitives}

theorem replay_view_ignores : IgnoresBookkeeping replayView := by
  constructor
  all_goals intros; rfl

theorem on_node_keeps_replays {R : Type} {prog : Prog PoolNode R} (keeps : prog.Keeps nodeReplays) :
    (onNode prog).Keeps replayView := keeps_zoom keeps fun _ _ same => same

theorem persist_keeps_replays {state : PoolState} : (persistPoolState state).Keeps nodeReplays := keeps_write fun _ => rfl

theorem set_pool_state_keeps_replays {state : Option PoolState} : (setPoolState state).Keeps replayView :=
  on_node_keeps_replays (keeps_modify fun _ => rfl)

theorem send_keeps_replays {message : PoolMessage} : (send message).Keeps replayView :=
  send_keeps replay_view_ignores message

variable {blinded : BlindedPoolInvitation} {invitation : PoolInvitation} {nickname : Option String}
  {stats : PoolDeviceStats} {now : DateTime}

theorem check_keeps_replays : (checkAndRecord now).Keeps replayView :=
  check_and_record_keeps replay_view_ignores

theorem consume_keeps_replays : (consumeInvitation id).Keeps replayView := by
  refine keeps_bind (keeps_modify fun _ => rfl) fun _ => ?_
  exact keeps_bind (keeps_write fun _ => rfl) fun _ => keeps_pure

theorem create_pool_keeps_replays {name : String} : (handleCreatePool prims name now).Keeps replayView := by
  refine keeps_bind keeps_get fun manager => keeps_guard (keeps_guard (keeps_guard ?_))
  refine keeps_bind check_keeps_replays fun allowed => keeps_guard ?_
  refine keeps_bind (on_node_keeps_replays persist_keeps_replays) fun stored => ?_
  split
  · exact keeps_pure
  · exact keeps_bind (on_node_keeps_replays (keeps_modify fun _ => rfl)) fun _ => keeps_pure

theorem create_invitation_keeps_replays {invitee : NodeId} {codeHash : Option Bytes} :
    (handleCreateInvitation prims invitee codeHash id now).Keeps replayView := by
  refine keeps_bind keeps_get fun manager => ?_
  split
  · exact keeps_pure
  refine keeps_bind check_keeps_replays fun allowed => keeps_guard ?_
  refine keeps_bind (keeps_modify fun _ => rfl) fun _ => ?_
  refine keeps_bind keeps_get fun pruned => keeps_guard ?_
  refine keeps_bind (keeps_modify fun _ => rfl) fun _ => ?_
  refine keeps_bind (keeps_write fun _ => rfl) fun stored => ?_
  split
  · exact keeps_pure
  · refine keeps_bind (keeps_modify fun _ => rfl) fun _ => ?_
    exact keeps_bind send_keeps_replays fun _ => keeps_pure

theorem accept_invitation_keeps_replays : (handleAcceptInvitation prims invitation nickname stats now).Keeps replayView := by
  refine keeps_bind keeps_get fun manager => keeps_guard (keeps_guard (keeps_guard (keeps_guard (keeps_guard ?_))))
  refine keeps_bind check_keeps_replays fun allowed => keeps_guard ?_
  refine keeps_bind (on_node_keeps_replays persist_keeps_replays) fun stored => ?_
  split
  · exact keeps_pure
  · refine keeps_bind set_pool_state_keeps_replays fun _ => ?_
    refine keeps_bind send_keeps_replays fun _ => ?_
    refine keeps_bind consume_keeps_replays fun _ => ?_
    exact keeps_bind (send_device_stats_report_keeps replay_view_ignores) fun _ => keeps_pure

theorem remove_member_keeps_replays {member : NodeId} {removalId : Uuid} :
    (handleRemoveMember prims member removalId now).Keeps replayView := by
  refine keeps_bind check_keeps_replays fun allowed => keeps_guard ?_
  refine keeps_bind keeps_get fun manager => ?_
  split
  · exact keeps_pure
  · refine keeps_bind set_pool_state_keeps_replays fun _ => ?_
    refine keeps_bind (on_node_keeps_replays persist_keeps_replays) fun stored => ?_
    split
    · exact keeps_pure
    · exact keeps_bind send_keeps_replays fun _ => keeps_pure

theorem leave_pool_keeps_replays {nonce : Uuid} : (handleLeavePool prims nonce now).Keeps replayView := by
  refine keeps_bind keeps_get fun manager => ?_
  split
  · exact keeps_pure
  refine keeps_bind check_keeps_replays fun allowed => keeps_guard ?_
  refine keeps_bind (on_node_keeps_replays (keeps_write fun _ => rfl)) fun stored => ?_
  split
  · exact keeps_pure
  · refine keeps_bind (on_node_keeps_replays (keeps_modify fun _ => rfl)) fun _ => ?_
    exact keeps_bind send_keeps_replays fun _ => keeps_pure

theorem credit_forward_keeps_replays {forward : PoolCreditForward} : (handleCreditForward prims forward now).Keeps nodeReplays := by
  refine keeps_bind keeps_get fun node => keeps_guard ?_
  refine keeps_bind (keeps_modify fun _ => rfl) fun _ => keeps_guard (keeps_guard (keeps_guard ?_))
  split
  · exact keeps_pure
  refine keeps_bind (apply_forward_keeps (fun _ _ => rfl) _ now) fun applied => ?_
  split
  · exact keeps_pure
  · refine keeps_bind (keeps_write fun _ => rfl) fun _ => ?_
    refine keeps_bind (keeps_modify fun _ => rfl) fun _ => ?_
    split
    · exact keeps_modify fun _ => rfl
    · exact keeps_bind persist_keeps_replays fun _ => keeps_modify fun _ => rfl

theorem update_mine_keeps_replays {poolId : PoolId} {merge : PoolState → PoolState} :
    (updateMine poolId merge).Keeps nodeReplays := by
  refine keeps_bind keeps_get fun node => ?_
  split
  · exact keeps_pure
  · split
    · refine keeps_bind (keeps_modify fun _ => rfl) fun _ => ?_
      exact keeps_bind persist_keeps_replays fun _ => keeps_pure
    · exact keeps_pure

theorem pool_state_gossip_keeps_replays {state : PoolState} : (handlePoolStateGossip prims state).Keeps nodeReplays := by
  refine keeps_bind keeps_get fun node => ?_
  split
  · exact keeps_pure
  · refine keeps_bind update_mine_keeps_replays fun _ => ?_
    split
    · exact keeps_modify fun _ => rfl
    · exact keeps_pure

theorem pool_state_diff_keeps_replays {diff : PoolStateDiff} {nowMs : Nat} :
    (handlePoolStateDiffGossip prims diff nowMs).Keeps nodeReplays := by
  refine keeps_bind keeps_get fun node => ?_
  split
  · exact keeps_pure
  · exact keeps_bind update_mine_keeps_replays fun _ => keeps_modify fun _ => rfl

theorem auto_accept_keeps_replays : (autoAccept prims blinded invitation nickname stats now).Keeps replayView := by
  refine keeps_bind keeps_get fun manager => ?_
  split
  · exact keeps_pure
  split
  · exact keeps_modify fun _ => rfl
  · split
    · refine keeps_bind (keeps_modify fun _ => rfl) fun _ => ?_
      exact keeps_bind accept_invitation_keeps_replays fun _ => keeps_pure
    · exact keeps_pure

theorem blinded_invitation_keeps_replays : (handleInboundBlindedInvitation prims blinded nickname stats now).Keeps replayView := by
  refine keeps_bind keeps_get fun manager => keeps_guard (keeps_guard (keeps_guard (keeps_guard ?_)))
  refine keeps_bind (keeps_modify fun _ => rfl) fun _ => ?_
  refine keeps_bind keeps_get fun pruned => keeps_guard ?_
  refine keeps_bind (keeps_modify fun _ => rfl) fun _ => ?_
  exact keeps_bind (keeps_write fun _ => rfl) fun _ => auto_accept_keeps_replays

theorem gossip_pool_state_keeps_replays : (gossipPoolState prims stats now).Keeps replayView := by
  refine keeps_bind keeps_get fun manager => ?_
  split
  · exact keeps_pure
  · split
    · exact keeps_modify fun _ => rfl
    · refine keeps_bind set_pool_state_keeps_replays fun _ => ?_
      refine keeps_bind (send_pool_state_keeps replay_view_ignores) fun _ => ?_
      exact note_gossip_keeps replay_view_ignores

theorem maybe_gossip_keeps_replays : (maybeGossipPoolState prims stats now).Keeps replayView := by
  refine keeps_bind keeps_get fun manager => ?_
  split
  · exact gossip_pool_state_keeps_replays
  · exact keeps_modify fun _ => rfl

theorem coalesce_keeps_replays : (coalesceTick prims stats now).Keeps replayView := by
  refine keeps_bind keeps_get fun manager => ?_
  split
  · exact gossip_pool_state_keeps_replays
  · exact keeps_pure

theorem gossip_tick_keeps_replays : (gossipTick prims nickname stats now).Keeps replayView := by
  refine keeps_bind gossip_pool_state_keeps_replays fun _ => ?_
  refine keeps_bind (send_device_stats_report_keeps replay_view_ignores) fun _ => ?_
  exact keeps_modify fun _ => rfl

theorem acceptance_keeps_replays {acceptance : PoolAcceptance} :
    (handleInboundAcceptance prims acceptance stats now).Keeps replayView := by
  refine keeps_bind keeps_get fun manager => keeps_guard ?_
  split
  · exact keeps_pure
  refine keeps_guard (keeps_bind consume_keeps_replays fun _ => ?_)
  split
  · exact keeps_pure
  · refine keeps_guard (keeps_bind set_pool_state_keeps_replays fun _ => ?_)
    refine keeps_bind (on_node_keeps_replays persist_keeps_replays) fun _ => ?_
    exact maybe_gossip_keeps_replays

theorem join_request_keeps_replays {codeHash : Bytes} {requester : NodeId} :
    (handleInboundJoinRequest prims codeHash requester id now).Keeps replayView := by
  have codes := update_code_keeps replay_view_ignores codeHash
  refine keeps_bind keeps_get fun manager => keeps_guard ?_
  split
  · exact keeps_pure
  split
  · exact answer_repeat_keeps replay_view_ignores prims _ requester now
  refine keeps_guard (keeps_bind (codes _) fun _ => ?_)
  refine keeps_bind (keeps_write fun _ => rfl) fun _ => ?_
  refine keeps_bind create_invitation_keeps_replays fun made => ?_
  split
  · exact codes _
  · exact codes _

theorem change_pool_keeps_replays {change : PoolState → Except SwarmError PoolState} : (changePool change).Keeps replayView := by
  refine keeps_bind keeps_get fun manager => ?_
  split
  · exact keeps_pure
  · split
    · exact keeps_pure
    · refine keeps_bind set_pool_state_keeps_replays fun _ => ?_
      exact keeps_bind (on_node_keeps_replays persist_keeps_replays) fun _ => keeps_pure

theorem stats_report_keeps_replays {report : DeviceStatsReport} : (handleInboundDeviceStatsReport report now).Keeps replayView := by
  refine keeps_bind keeps_get fun manager => keeps_guard ?_
  split
  · exact keeps_pure
  · exact set_pool_state_keeps_replays

def PoolEvent.touchesReplays : PoolEvent → Bool
  | .inboundRemoval _ | .inboundMemberLeft _ | .replaySweep | .restart => true
  | _ => false

theorem other_events_keep_replays (now : DateTime) (event : PoolEvent) (other : event.touchesReplays = false) :
    (event.handle prims now).Keeps replayView := by
  cases event with
  | createPool name => exact keeps_bind create_pool_keeps_replays fun _ => keeps_pure
  | createInvitation invitee id =>
    exact keeps_bind create_invitation_keeps_replays fun _ => keeps_pure
  | acceptInvitation invitation nickname stats =>
    exact keeps_bind accept_invitation_keeps_replays fun _ => keeps_pure
  | removeMember member removalId =>
    exact keeps_bind remove_member_keeps_replays fun _ => keeps_pure
  | leavePool nonce => exact keeps_bind leave_pool_keeps_replays fun _ => keeps_pure
  | processCreditForward forward => exact on_node_keeps_replays credit_forward_keeps_replays
  | poolStateGossip state => exact on_node_keeps_replays pool_state_gossip_keeps_replays
  | poolStateDiffGossip diff => exact on_node_keeps_replays pool_state_diff_keeps_replays
  | inboundBlindedInvitation blinded nickname stats =>
    exact blinded_invitation_keeps_replays
  | inboundAcceptance acceptance stats => exact acceptance_keeps_replays
  | setDeviceName | setCreditSplit | setContributionLevel =>
    refine keeps_bind ?_ fun _ => keeps_pure
    exact keeps_bind keeps_get fun manager => keeps_guard change_pool_keeps_replays
  | generateInviteCode code multiaddrs =>
    refine keeps_bind ?_ fun _ => keeps_pure
    exact generate_invite_code_keeps replay_view_ignores prims code multiaddrs now
  | joinWithCode shortCode =>
    refine keeps_bind ?_ fun _ => keeps_pure
    exact join_with_code_keeps replay_view_ignores prims shortCode now
  | inboundJoinRequest codeHash requester id => exact join_request_keeps_replays
  | inboundDeviceStatsReport report => exact stats_report_keeps_replays
  | joinResendDue => exact resend_join_request_keeps replay_view_ignores
  | gossipInterval nickname stats => exact gossip_tick_keeps_replays
  | poolCoalesceInterval stats => exact coalesce_keeps_replays
  | inboundRemoval | inboundMemberLeft | replaySweep | restart => cases other

end Frame

end SwarmLlm.Pool
