import SwarmLlm.Pool.RosterSteps

namespace SwarmLlm.Pool

open Lib
open Lib.Prog

def Storable (quiet : Prop) (me : NodeId) (used : List Uuid) (invitation : PoolInvitation) (signed : List PoolInvitation) :
    Prop := invitation.inviteeNodeId = me ∨ invitation ∈ signed ∧ (quiet → invitation.id ∉ used)

variable {now : DateTime} {invitation : PoolInvitation}

section Invitations

variable {prims : Primitives} {quiet : Prop} {me : NodeId} {limit : Nat} {used : List Uuid}
  {past : Past} {part : List PoolInvitation → Cells → Prop}

theorem prune_steady :
    Triple quiet (Holds prims quiet me used part) (pruneInvitations now) (fun _ => Holds prims quiet me used part)
      (Sound prims me limit) := by
  refine triple_modify fun manager holds => { holds with pending := ?_ }
  intro id invitation found
  rw [Table.lookup_retain, Option.filter_eq_some_iff] at found
  exact holds.pending id invitation found.1

theorem hold_steady (storable : ∀ signed now, part signed now → Storable quiet me used invitation signed) :
    Triple quiet (Holds prims quiet me used part) (holdInvitation invitation) (fun _ => Holds prims quiet me used part)
      (Sound prims me limit) := by
  refine triple_modify fun manager holds => { holds with pending := ?_ }
  exact issued_insert holds.pending (storable _ _ holds.node)

section

variable (halves : ∀ signed now, part signed now → Half quiet me limit past signed now)

include halves

theorem put_steady
    (storable : ∀ signed now, part signed now → Storable quiet me used invitation signed) :
    Triple quiet (Holds prims quiet me used part) (putInvitation invitation) (fun _ => Holds prims quiet me used part)
      (Sound prims me limit) := by
  have landed : ∀ manager, Holds prims quiet me used part manager → Holds prims quiet me used part
      { manager with invitationTree := manager.invitationTree.insert invitation.id invitation } := by
    intro manager holds
    refine { holds with tree := ?_ }
    exact issued_insert holds.tree (storable _ _ holds.node)
  apply triple_write landed
  · exact fun _ _ _ holds => holds
  · exact fun _ manager holds => ⟨holds_sound halves manager holds, holds_sound halves _ (landed manager holds)⟩

theorem consume_steady (id : Uuid) :
    Triple quiet (Holds prims quiet me used part) (consumeInvitation id) (fun _ => Holds prims quiet me (id :: used) part)
      (Sound prims me limit) := by
  let erased := fun manager => Holds prims quiet me used part manager ∧
    Issued quiet me (id :: used) manager.signed manager.pendingInvitations
  refine triple_bind (fun _ => erased) (triple_modify fun manager holds => ?_) fun _ => ?_
  · have gone := issued_erase id holds.pending
    exact ⟨{ holds with pending := issued_fewer (List.subset_cons_self id used) gone }, gone⟩
  refine triple_bind (fun _ => Holds prims quiet me (id :: used) part) ?_ fun _ => triple_pure fun _ holds => holds
  have landed : ∀ manager, erased manager → Holds prims quiet me (id :: used) part
      { manager with invitationTree := manager.invitationTree.erase id } := by
    rintro manager ⟨holds, gone⟩
    exact ⟨holds.genuine, gone, issued_erase id holds.tree, holds.node⟩
  apply triple_write landed
  · exact fun loud _ manager reached => ⟨reached.1.genuine, reached.2, issued_loud loud reached.1.tree, reached.1.node⟩
  · exact fun _ manager reached => ⟨holds_sound halves manager reached.1, holds_sound halves _ (landed manager reached)⟩

end

theorem holds_fewer {fewer : List Uuid} (sub : fewer ⊆ used) (manager : PoolManager)
    (holds : Holds prims quiet me used part manager) : Holds prims quiet me fewer part manager :=
  ⟨holds.genuine, issued_fewer sub holds.pending, issued_fewer sub holds.tree, holds.node⟩

theorem half_signed {signed more : List PoolInvitation} {now : Cells} (kept : signed ⊆ more)
    (half : Half quiet me limit past signed now) : Half quiet me limit past more now :=
  ⟨half.owner, half.size, fits_mono (List.Subset.refl past.pairs) kept half.memory,
    fits_mono (List.Subset.refl past.pairs) kept half.record, List.Subset.trans half.kept kept⟩

theorem issued_signed {signed more : List PoolInvitation} {table : Table Uuid PoolInvitation} (kept : signed ⊆ more)
    (issued : Issued quiet me used signed table) : Issued quiet me used more table := by
  intro id invitation found
  obtain ⟨named, own | ⟨member, unused⟩⟩ := issued id invitation found
  · exact ⟨named, .inl own⟩
  · exact ⟨named, .inr ⟨kept member, unused⟩⟩

theorem sign_steady (genuine : Genuine prims me invitation) (unused : quiet → invitation.id ∉ used) :
    Triple quiet (Holds prims quiet me used (Whole quiet me limit past))
      (Prog.modify fun manager => { manager with signed := invitation :: manager.signed })
      (fun _ => Holds prims quiet me used fun signed now =>
        Whole quiet me limit past signed now ∧ Storable quiet me used invitation signed) (Sound prims me limit) := by
  refine triple_modify fun manager holds => ?_
  have kept : manager.signed ⊆ invitation :: manager.signed := List.subset_cons_self invitation manager.signed
  constructor
  · intro other member
    rcases List.mem_cons.mp member with rfl | before
    · exact genuine
    · exact holds.genuine other before
  · exact issued_signed kept holds.pending
  · exact issued_signed kept holds.tree
  · exact ⟨⟨half_signed kept holds.node.toHalf, holds.node.backed⟩, .inr ⟨.head _, unused⟩⟩

end Invitations

def Steady {R : Type} (prims : Primitives) (quiet : Prop) (me : NodeId) (limit : Nat) (used : List Uuid)
    (past : Past) (prog : Prog PoolManager R) : Prop :=
  Triple quiet (Holds prims quiet me used (Whole quiet me limit past)) prog
    (fun _ => Holds prims quiet me used (Whole quiet me limit past)) (Sound prims me limit)

variable {stats : PoolDeviceStats}

section Handlers

variable {prims : Primitives} {quiet : Prop} {me : NodeId} {limit : Nat} {used : List Uuid}
  {past : Past} {R : Type} {id : Uuid} (node : PoolNode) {invitation : PoolInvitation} {codeHash : Bytes} {member : NodeId}
  {nickname : Option String} {seen : Cells} {prog : Prog PoolManager R} (acceptance : PoolAcceptance)
  {stats : PoolDeviceStats} {now : DateTime}

theorem keeps_steady (keeps : prog.Keeps rosterView) : Steady prims quiet me limit used past prog :=
  keeps_roster keeps whole_half

theorem on_node_steady {prog : Prog PoolNode Unit} (steady : NodeSteady quiet me limit past prog) :
    Steady prims quiet me limit used past (onNode prog) := on_node_triple steady

theorem steady_after_read (steady : Steady prims quiet me limit used past prog) :
    Triple quiet (Holds prims quiet me used (At quiet me limit past seen)) prog
      (fun _ => Holds prims quiet me used (Whole quiet me limit past)) (Sound prims me limit) :=
  triple_before steady holds_at

theorem steady_then {Q : Type} {value : Q} (steady : Steady prims quiet me limit used past prog) :
    Steady prims quiet me limit used past (do let _ ← prog; pure value) :=
  triple_bind _ steady fun _ => triple_pure fun _ holds => holds

theorem check_steady {part : List PoolInvitation → Cells → Prop}
    (halves : ∀ signed now, part signed now → Half quiet me limit past signed now) :
    Triple quiet (Holds prims quiet me used part) (checkAndRecord now) (fun _ => Holds prims quiet me used part)
      (Sound prims me limit) := keeps_roster (check_and_record_keeps roster_view_ignores) halves

theorem record_then_memory {state : Option PoolState} (fits : ∀ signed, Fits quiet me limit past.pairs signed state)
    (empty : ownPairs me state = []) (change : PoolNode → PoolNode)
    (memory : ∀ node, cells (change node) = { cells node with memory := state })
    (next : Prog PoolManager (Except SwarmError R)) (rest : Steady prims quiet me limit used past next) :
    Triple quiet (Holds prims quiet me used (At quiet me limit past seen))
      (do
        match asDatabase (← onNode (Prog.write fun node => { node with poolStateRecord := state })) with
        | .error error => pure (.error error)
        | .ok _ => do
          onNode (Prog.modify change)
          next)
      (fun _ => Holds prims quiet me used (Whole quiet me limit past)) (Sound prims me limit) := by
  refine triple_bind _ (triple_before (record_empty fits empty) holds_at) fun stored => ?_
  cases stored with
  | error error => exact triple_pure fun manager reached => holds_weaken (fun _ _ both => both.1) manager reached
  | ok _ => exact triple_bind _ (memory_follows memory) fun _ => rest

theorem send_steady {message : PoolMessage} : Steady prims quiet me limit used past (send message) :=
  keeps_steady (send_keeps roster_view_ignores message)

theorem report_steady : Steady prims quiet me limit used past (sendDeviceStatsReport nickname stats) :=
  keeps_steady (send_device_stats_report_keeps roster_view_ignores)

theorem update_code_steady {change : PoolInviteCode → PoolInviteCode} :
    Steady prims quiet me limit used past (updateCode codeHash change) :=
  keeps_steady (update_code_keeps roster_view_ignores codeHash change)

theorem create_pool_steady (room : 1 ≤ limit) {name : String} :
    Steady prims quiet me limit used past (handleCreatePool prims name now) := by
  refine triple_bind _ read_manager fun read => ?_
  refine triple_guard holds_at fun _ => triple_guard holds_at fun _ => triple_guard holds_at fun _ => ?_
  refine triple_bind _ (check_steady at_half) fun allowed => triple_guard holds_at fun _ => ?_
  refine triple_given (read.node.nodeId = me) at_owner fun owner => ?_
  have alone : roster (newPool prims read.node.nodeId name now).members = [(me, Uuid.nil)] := by rw [owner]; rfl
  apply record_then_memory
  · exact fun _ => fits_alone room alone
  · exact own_pairs_alone alone
  · exact fun _ => rfl
  · exact triple_pure fun _ holds => holds

theorem accept_invitation_steady (room : 1 ≤ limit) :
    Steady prims quiet me limit used past (handleAcceptInvitation prims invitation nickname stats now) := by
  refine triple_bind _ read_manager fun read => ?_
  refine triple_guard holds_at fun _ => triple_guard holds_at fun _ => triple_guard holds_at fun _ => ?_
  refine triple_guard holds_at fun _ => triple_guard holds_at fun _ => ?_
  refine triple_bind _ (check_steady at_half) fun allowed => triple_guard holds_at fun _ => ?_
  refine triple_given (read.node.nodeId = me) at_owner fun owner => ?_
  let acceptance := createAcceptance prims read.node.nodeId invitation now
  let state := joinedPool read.node.nodeId invitation acceptance nickname now
  have alone : roster state.members = [(me, invitation.id)] := by rw [← owner]; rfl
  apply record_then_memory
  · exact fun _ => fits_alone room alone
  · exact own_pairs_alone alone
  · exact fun _ => rfl
  · refine triple_bind _ send_steady fun _ => ?_
    refine triple_bind _ (consume_steady whole_half _) fun _ => ?_
    refine triple_bind _ report_steady fun _ => ?_
    exact triple_pure fun manager holds => holds_fewer (List.subset_cons_self _ used) manager holds

theorem leave_pool_steady {nonce : Uuid} : Steady prims quiet me limit used past (handleLeavePool prims nonce now) := by
  refine triple_bind _ read_manager fun read => ?_
  split
  · exact triple_pure holds_at
  refine triple_bind _ (check_steady at_half) fun allowed => triple_guard holds_at fun _ => ?_
  apply record_then_memory
  · exact fun _ => fits_none
  · rfl
  · exact fun _ => rfl
  · exact steady_then send_steady

theorem removable_from_some {node : PoolNode} {left : PoolState} (removable : removableFrom node member = .ok left) :
    ∃ state, node.poolState = some state ∧ left = dropMember member state := by
  unfold removableFrom at removable
  split at removable
  · cases removable
  rename_i state found
  refine ⟨state, found, ?_⟩
  split at removable
  · cases removable
  · split at removable
    · cases removable
    · split at removable
      · cases removable
      · exact (Except.ok.inj removable).symm

theorem remove_member_steady {removalId : Uuid} :
    Steady prims quiet me limit used past (handleRemoveMember prims member removalId now) := by
  refine triple_bind _ (check_steady whole_half) fun allowed => triple_guard (fun _ holds => holds) fun _ => ?_
  refine triple_bind _ read_manager fun read => ?_
  split
  · exact triple_pure holds_at
  rename_i left removable
  obtain ⟨state, found, rfl⟩ := removable_from_some removable
  refine replace_pool_state state (dropMember member state) found rfl roster_drop_sublist _
    fun stored => ?_
  split
  · exact triple_pure fun _ holds => holds
  · exact steady_then send_steady

theorem change_pool_steady {change : PoolState → Except SwarmError PoolState}
    (shown : ∀ state changed, change state = .ok changed →
      changed.poolId = state.poolId ∧ roster changed.members = roster state.members) :
    Steady prims quiet me limit used past (changePool change) := by
  refine triple_bind _ read_manager fun read => ?_
  split
  · exact triple_pure holds_at
  rename_i state found
  split
  · exact triple_pure holds_at
  · rename_i changed settled
    obtain ⟨pool, same⟩ := shown state changed settled
    refine replace_pool_state state changed found pool (by rw [same]) _ fun stored => ?_
    exact triple_pure fun _ holds => holds

theorem set_device_name_steady {name : String} : Steady prims quiet me limit used past (handleSetDeviceName name) := by
  refine triple_bind _ read_manager fun read => triple_guard holds_at fun _ => steady_after_read (change_pool_steady ?_)
  intro state changed settled
  cases settled
  exact ⟨rfl, roster_update_member fun _ => rfl⟩

theorem set_credit_split_steady {pct : UInt8} : Steady prims quiet me limit used past (handleSetCreditSplit pct) := by
  refine triple_bind _ read_manager fun read => triple_guard holds_at fun _ => steady_after_read (change_pool_steady ?_)
  intro state changed settled
  split at settled
  · cases settled
  · cases settled
    exact ⟨rfl, rfl⟩

theorem set_contribution_level_steady {level : UInt8} :
    Steady prims quiet me limit used past (handleSetContributionLevel member level) := by
  refine triple_bind _ read_manager fun read => triple_guard holds_at fun _ => steady_after_read (change_pool_steady ?_)
  intro state changed settled
  split at settled
  · cases settled
  · split at settled
    · cases settled
    · cases settled
      exact ⟨rfl, roster_update_member fun _ => rfl⟩

theorem stats_report_steady {report : DeviceStatsReport} :
    Steady prims quiet me limit used past (handleInboundDeviceStatsReport report now) := by
  refine triple_bind _ read_manager fun read => triple_guard holds_at fun _ => ?_
  split
  · exact triple_pure holds_at
  · rename_i state found
    exact redraw_pool_state found rfl (roster_update_member fun _ => rfl)

theorem gossip_pool_state_steady : Steady prims quiet me limit used past (gossipPoolState prims stats now) := by
  refine triple_bind _ read_manager fun read => ?_
  split
  · exact triple_pure holds_at
  rename_i state found
  split
  · exact steady_after_read (keeps_steady (note_gossip_keeps roster_view_ignores))
  have touched : roster (touchOwner read.node.nodeId stats now state).members = roster state.members :=
    roster_update_member fun _ => rfl
  refine triple_bind _ (redraw_pool_state found ?_ ?_) fun _ => ?_
  · split <;> rfl
  · split <;> exact touched
  · refine triple_bind _ (keeps_steady (send_pool_state_keeps roster_view_ignores)) fun _ => ?_
    exact keeps_steady (note_gossip_keeps roster_view_ignores)

theorem maybe_gossip_steady : Steady prims quiet me limit used past (maybeGossipPoolState prims stats now) := by
  refine triple_bind _ read_manager fun read => ?_
  split
  · exact steady_after_read gossip_pool_state_steady
  · exact steady_after_read (keeps_steady (keeps_modify fun _ => rfl))

theorem coalesce_steady : Steady prims quiet me limit used past (coalesceTick prims stats now) := by
  refine triple_bind _ read_manager fun read => ?_
  split
  · exact steady_after_read gossip_pool_state_steady
  · exact triple_pure holds_at

theorem gossip_tick_steady : Steady prims quiet me limit used past (gossipTick prims nickname stats now) := by
  refine triple_bind _ gossip_pool_state_steady fun _ => ?_
  refine triple_bind _ report_steady fun _ => ?_
  exact keeps_steady (keeps_modify fun _ => rfl)

theorem invitable_pool_own {invitee : NodeId} {poolId : PoolId} (invitable : invitablePool node invitee = .ok poolId) :
    poolId = node.nodeId := by
  unfold invitablePool at invitable
  split at invitable
  · cases invitable
  split at invitable
  · cases invitable
  rename_i own
  split at invitable
  · cases invitable
  · split at invitable
    · cases invitable
    · exact (Except.ok.inj invitable).symm.trans (Decidable.not_not.mp own)

theorem create_invitation_steady {invitee : NodeId} {codeHash : Option Bytes} (unused : quiet → id ∉ used) :
    Steady prims quiet me limit used past (handleCreateInvitation prims invitee codeHash id now) := by
  refine triple_bind _ read_manager fun read => ?_
  split
  · exact triple_pure holds_at
  rename_i poolId invitable
  refine triple_bind _ (check_steady at_half) fun allowed => triple_guard holds_at fun _ => ?_
  refine triple_given (read.node.nodeId = me) at_owner fun owner => ?_
  refine triple_bind _ (steady_after_read prune_steady) fun _ => ?_
  refine triple_bind _ read_manager fun pruned => triple_guard holds_at fun _ => ?_
  have pool : poolId = me := (invitable_pool_own read.node invitable).trans owner
  have genuine : Genuine prims me
      (createInvitation prims read.node.nodeId poolId invitee read.invitationTtlHours id now) := by
    rw [owner, pool]
    exact ⟨rfl, rfl⟩
  refine triple_bind _ (triple_before (sign_steady genuine unused) holds_at) fun _ => ?_
  refine triple_bind _ (put_steady (fun _ _ both => both.1.toHalf) fun _ _ both => both.2) fun stored => ?_
  split
  · exact triple_pure fun manager reached => holds_weaken (fun _ _ both => both.1) manager reached
  · refine triple_bind _ (hold_steady fun _ _ both => both.2) fun _ => ?_
    refine triple_bind _ (keeps_roster (send_keeps roster_view_ignores _) fun _ _ both => both.1.toHalf) fun _ => ?_
    exact triple_pure fun manager reached => holds_weaken (fun _ _ both => both.1) manager reached

variable {blinded : BlindedPoolInvitation}

theorem auto_accept_steady (room : 1 ≤ limit) :
    Steady prims quiet me limit used past (autoAccept prims blinded invitation nickname stats now) := by
  refine triple_bind _ read_manager fun read => ?_
  split
  · exact triple_pure holds_at
  split
  · exact steady_after_read (keeps_steady (keeps_modify fun _ => rfl))
  · split
    · refine triple_bind _ (steady_after_read (keeps_steady (keeps_modify fun _ => rfl))) fun _ => ?_
      exact steady_then (accept_invitation_steady room)
    · exact triple_pure holds_at

theorem blinded_invitation_steady (room : 1 ≤ limit) :
    Steady prims quiet me limit used past (handleInboundBlindedInvitation prims blinded nickname stats now) := by
  refine triple_bind _ read_manager fun read => ?_
  refine triple_guard holds_at fun _ => triple_guard holds_at fun _ => ?_
  refine triple_guard holds_at fun _ => triple_guard holds_at fun _ => ?_
  refine triple_given (read.node.nodeId = me) at_owner fun owner => ?_
  have storable : ∀ signed now, Whole quiet me limit past signed now →
      Storable quiet me used (unblind read.node.nodeId blinded) signed := fun _ _ _ => .inl owner
  refine triple_bind _ (steady_after_read prune_steady) fun _ => ?_
  refine triple_bind _ read_manager fun pruned => triple_guard holds_at fun _ => ?_
  refine triple_bind _ (steady_after_read (hold_steady storable)) fun _ => ?_
  refine triple_bind _ (put_steady whole_half storable) fun _ => ?_
  exact auto_accept_steady room

theorem join_request_steady {requester : NodeId} (unused : quiet → id ∉ used) :
    Steady prims quiet me limit used past (handleInboundJoinRequest prims codeHash requester id now) := by
  refine triple_bind _ read_manager fun read => triple_guard holds_at fun _ => ?_
  split
  · exact triple_pure holds_at
  split
  · exact steady_after_read (keeps_steady (answer_repeat_keeps roster_view_ignores prims _ requester now))
  refine triple_guard holds_at fun _ => ?_
  refine triple_bind _ (steady_after_read update_code_steady) fun _ => ?_
  refine triple_bind _ (keeps_steady (keeps_write fun _ => rfl)) fun _ => ?_
  refine triple_bind _ (create_invitation_steady unused) fun made => ?_
  split
  · exact update_code_steady
  · exact update_code_steady

theorem sweep_steady : Steady prims quiet me limit used past (sweepReplayTable now) := by
  refine keeps_steady (keeps_bind keeps_get fun read => keeps_for_each fun key => ?_)
  exact keeps_bind (on_node_keeps_roster (keeps_write fun _ => rfl)) fun _ => keeps_pure

theorem restore_pool_state : Triple quiet
    (Holds prims quiet me used fun signed now => Half quiet me limit past signed now ∧ now.memory = none) restorePoolState
    (fun _ => Holds prims quiet me used (Whole quiet me limit past)) (Sound prims me limit) := by
  refine on_node_triple fun signed => triple_modify fun node reached => ?_
  obtain ⟨half, forgotten⟩ := reached
  have whole : Whole quiet me limit past signed { cells node with memory := node.poolStateRecord } :=
    ⟨{ half with memory := half.record }, fun _ => List.Subset.refl _⟩
  split
  · rename_i missing
    rw [missing] at whole
    have same : cells node = { cells node with memory := none } := by rw [← forgotten]
    rw [same]
    exact whole
  · rename_i state found
    rw [found] at whole
    exact whole

theorem restore_invitations_steady : Steady prims quiet me limit used past (restoreInvitations now) := by
  refine triple_modify fun manager holds => { holds with pending := ?_ }
  intro id invitation found
  have keyed : ∀ key value, manager.invitationTree.lookup key = some value → value.id = key :=
    fun key value stored => (holds.tree key value stored).1
  rw [Table.lookup_collect keyed, Option.filter_eq_some_iff] at found
  exact holds.tree id invitation found.1

theorem restart_steady : Steady prims quiet me limit used past (do Prog.modify PoolManager.booted; restoreState now) := by
  refine triple_bind (fun _ => Holds prims quiet me used fun signed now =>
    Half quiet me limit past signed now ∧ now.memory = none) (triple_modify fun manager holds => ?_) fun _ => ?_
  · refine ⟨holds.genuine, ?_, holds.tree, ⟨holds.node.owner, holds.node.size, fits_none, holds.node.record, holds.node.kept⟩, rfl⟩
    intro id invitation found
    rw [PoolManager.booted, AList.lookup_empty] at found
    cases found
  · refine triple_bind _ restore_pool_state fun _ => ?_
    refine triple_bind _ sweep_steady fun _ => ?_
    refine triple_bind _ restore_invitations_steady fun _ => ?_
    refine keeps_steady (keeps_bind keeps_get fun manager => keeps_for_each fun entry => ?_)
    exact restore_code_keeps roster_view_ignores entry

theorem acceptance_allowed (allowed : ¬ acceptanceRefused prims node acceptance invitation now = true) :
    invitation.inviteeNodeId = acceptance.inviteeNodeId ∧
      ∀ state, node.poolState = some state → state.members.length < node.maxPoolSize := by
  simp only [acceptanceRefused, Bool.not_eq_true, Bool.or_eq_false_iff, decide_eq_false_iff_not, ne_eq,
    Decidable.not_not] at allowed
  refine ⟨allowed.1.1.1.1, fun state found => ?_⟩
  have room := allowed.2
  rw [found, Option.any_some, decide_eq_false_iff_not] at room
  exact Nat.lt_of_not_le room

theorem roster_admitted {expiresAt : DateTime} {state : PoolState} : roster (admitMember acceptance expiresAt now state).members =
      roster state.members ++ [(acceptance.inviteeNodeId, acceptance.invitationId)] := List.map_append

-- Either nobody has come in, or one node has, on an invitation that is now used.
def Grown (prims : Primitives) (quiet : Prop) (me : NodeId) (limit : Nat) (used : List Uuid) (past : Past)
    (manager : PoolManager) : Prop :=
  Holds prims quiet me used (Whole quiet me limit past) manager ∨ ∃ pair : NodeId × Uuid, (quiet → pair.1 ≠ me → pair.2 ∉ used) ∧
      Holds prims quiet me (pair.2 :: used) (Whole quiet me limit (past.join pair)) manager

-- The acceptance's node and invitation once both are known to match.
structure Answers (acceptance : PoolAcceptance) (invitation : PoolInvitation) : Prop where
  named : invitation.id = acceptance.invitationId
  invitee : invitation.inviteeNodeId = acceptance.inviteeNodeId

variable {acceptance}

theorem admit_member_triple {state : PoolState} (answers : Answers acceptance invitation)
    (found : seen.memory = some state) (room : state.members.length < seen.maxPoolSize)
    (absent : ¬ (state.members.any fun member => member.nodeId = acceptance.inviteeNodeId) = true) :
    Triple quiet
      (Holds prims quiet me used fun signed now =>
        At quiet me limit past seen signed now ∧ (invitation.inviteeNodeId = me ∨ invitation ∈ signed))
      (setPoolState (some (admitMember acceptance invitation.expiresAt now state)))
      (fun _ => Holds prims quiet me used (Held quiet me limit (past.join (acceptance.inviteeNodeId, acceptance.invitationId))
          { seen with memory := some (admitMember acceptance invitation.expiresAt now state) })) (Sound prims me limit) := by
  refine on_node_triple fun signed => triple_modify fun node reached => ?_
  obtain ⟨⟨⟨half, _⟩, rfl⟩, issued⟩ := reached
  have stranger : acceptance.inviteeNodeId ∉ (roster state.members).map Prod.fst := by
    intro member
    rw [roster, List.map_map] at member
    obtain ⟨entry, listed, same⟩ := List.mem_map.mp member
    exact absent (List.any_eq_true.mpr ⟨entry, listed, decide_eq_true same⟩)
  have invited : acceptance.inviteeNodeId ≠ me → ∃ issued ∈ signed, issued.id = acceptance.invitationId ∧
      issued.inviteeNodeId = acceptance.inviteeNodeId := by
    intro other
    rcases issued with own | member
    · exact absurd (answers.invitee.symm.trans own) other
    · exact ⟨invitation, member, answers.named, answers.invitee⟩
  have fits := fits_grow (admitMember acceptance invitation.expiresAt now state) state _ (found ▸ half.memory) rfl
    (roster_admitted acceptance) (half.size ▸ room) stranger invited
  have record := fits_mono (List.subset_cons_self (acceptance.inviteeNodeId, acceptance.invitationId) past.pairs)
    (List.Subset.refl signed) half.record
  exact ⟨{ half with memory := fits, record }, rfl⟩

theorem admit_grown (seen : Cells) (now : DateTime) (answers : Answers acceptance invitation)
    (room : ∀ state, seen.memory = some state → state.members.length < seen.maxPoolSize)
    (unused : quiet → acceptance.inviteeNodeId ≠ me → acceptance.invitationId ∉ used) :
    Triple quiet
      (Holds prims quiet me (acceptance.invitationId :: used) fun signed now =>
        At quiet me limit past seen signed now ∧ (invitation.inviteeNodeId = me ∨ invitation ∈ signed))
      (match seen.memory with
        | none => pure ()
        | some state =>
          if state.members.any fun member => member.nodeId = acceptance.inviteeNodeId then pure ()
          else do
            let grown := admitMember acceptance invitation.expiresAt now state
            setPoolState (some grown)
            let _ ← onNode (persistPoolState grown)
            maybeGossipPoolState prims stats now)
      (fun _ => Grown prims quiet me limit used past) (Sound prims me limit) := by
  have unchanged : ∀ manager, (Holds prims quiet me (acceptance.invitationId :: used) fun signed now =>
      At quiet me limit past seen signed now ∧ (invitation.inviteeNodeId = me ∨ invitation ∈ signed)) manager →
      Grown prims quiet me limit used past manager := by
    intro manager holds
    have whole := holds_weaken (fun _ _ both => both.1.1) manager holds
    exact .inl (holds_fewer (List.subset_cons_self acceptance.invitationId used) manager whole)
  split
  · exact triple_pure unchanged
  rename_i state found
  refine triple_guard unchanged fun absent => ?_
  refine triple_bind _ (admit_member_triple answers found (room state found) absent)
    fun _ => ?_
  refine triple_bind _ (persist_pool_state rfl) fun _ => ?_
  refine triple_after maybe_gossip_steady ?_
  exact fun _ manager holds => .inr ⟨(acceptance.inviteeNodeId, acceptance.invitationId), unused, holds⟩

variable (acceptance)

theorem acceptance_grown :
    Triple quiet (Holds prims quiet me used (Whole quiet me limit past)) (handleInboundAcceptance prims acceptance stats now)
      (fun _ => Grown prims quiet me limit used past) (Sound prims me limit) := by
  refine triple_bind (fun read manager => Holds prims quiet me used (At quiet me limit past (cells read.node)) manager ∧
    Issued quiet me used manager.signed read.pendingInvitations) (triple_get fun manager holds => ?_) fun read => ?_
  · exact ⟨⟨holds.genuine, holds.pending, holds.tree, holds.node, rfl⟩, holds.pending⟩
  refine triple_guard (fun manager reached => .inl (holds_at manager reached.1)) fun _ => ?_
  split
  · exact triple_pure fun manager reached => .inl (holds_at manager reached.1)
  rename_i invitation found
  refine triple_guard (fun manager reached => .inl (holds_at manager reached.1)) fun allowed => ?_
  obtain ⟨invitee, room⟩ := acceptance_allowed read.node acceptance allowed
  refine triple_given (invitation.id = acceptance.invitationId ∧
    (quiet → acceptance.inviteeNodeId ≠ me → acceptance.invitationId ∉ used)) ?_ fun facts => ?_
  · rintro manager ⟨_, issued⟩
    obtain ⟨named, own | ⟨_, unused⟩⟩ := issued acceptance.invitationId invitation found
    · exact ⟨named, fun _ other => absurd (invitee.symm.trans own) other⟩
    · exact ⟨named, fun sure _ => unused sure⟩
  · refine triple_bind _ (triple_before (consume_steady (fun _ _ both => both.1.1.toHalf) acceptance.invitationId) ?_)
      fun _ => admit_grown (cells read.node) now ⟨facts.1, invitee⟩ room facts.2
    rintro manager ⟨holds, issued⟩
    have stored := (issued acceptance.invitationId invitation found).2.imp_right And.left
    exact ⟨holds.genuine, holds.pending, holds.tree, holds.node, stored⟩

end Handlers

end SwarmLlm.Pool
