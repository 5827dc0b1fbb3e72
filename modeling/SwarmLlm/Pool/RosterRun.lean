import SwarmLlm.Pool.RosterHandlers

namespace SwarmLlm.Pool

open Lib List
open Lib.Prog

def PoolEvent.draws : PoolEvent → List Uuid
  | .createInvitation _ id => [id]
  | .inboundJoinRequest _ _ id => [id]
  | _ => []

section Events

variable {prims : Primitives} {quiet : Prop} {me : NodeId} {limit : Nat} {used : List Uuid} {past : Past}

theorem steady_grown {prog : Prog PoolManager Unit} (steady : Steady prims quiet me limit used past prog) :
    Triple quiet (Holds prims quiet me used (Whole quiet me limit past)) prog (fun _ => Grown prims quiet me limit used past)
      (Sound prims me limit) :=
  triple_after steady fun _ _ holds => Or.inl holds

theorem event_grown (room : 1 ≤ limit) {now : DateTime} {event : PoolEvent} (unused : quiet → ∀ id ∈ event.draws, id ∉ used) :
    Triple quiet (Holds prims quiet me used (Whole quiet me limit past)) (event.handle prims now)
      (fun _ => Grown prims quiet me limit used past) (Sound prims me limit) := by
  cases event with
  | createPool name => exact steady_grown (steady_then (create_pool_steady room))
  | createInvitation invitee id =>
    exact steady_grown (steady_then (create_invitation_steady fun sure => unused sure id (.head [])))
  | acceptInvitation invitation nickname stats =>
    exact steady_grown (steady_then (accept_invitation_steady room))
  | removeMember member removalId => exact steady_grown (steady_then remove_member_steady)
  | leavePool nonce => exact steady_grown (steady_then leave_pool_steady)
  | processCreditForward forward => exact steady_grown (on_node_steady credit_forward_steady)
  | poolStateGossip state => exact steady_grown (on_node_steady (state_gossip_steady state))
  | poolStateDiffGossip diff => exact steady_grown (on_node_steady (state_diff_steady _))
  | inboundBlindedInvitation blinded nickname stats =>
    exact steady_grown (blinded_invitation_steady room)
  | inboundAcceptance acceptance stats => exact acceptance_grown acceptance
  | inboundRemoval removal => exact steady_grown (on_node_steady removal_steady)
  | inboundMemberLeft notice => exact steady_grown (on_node_steady member_left_steady)
  | setDeviceName name => exact steady_grown (steady_then set_device_name_steady)
  | setCreditSplit pct => exact steady_grown (steady_then set_credit_split_steady)
  | setContributionLevel member level => exact steady_grown (steady_then set_contribution_level_steady)
  | generateInviteCode code multiaddrs =>
    have keeps := generate_invite_code_keeps roster_view_ignores prims code multiaddrs now
    exact steady_grown (steady_then (keeps_steady keeps))
  | joinWithCode shortCode =>
    have keeps := join_with_code_keeps roster_view_ignores prims shortCode now
    exact steady_grown (steady_then (keeps_steady keeps))
  | inboundJoinRequest codeHash requester id =>
    exact steady_grown (join_request_steady fun sure => unused sure id (.head []))
  | inboundDeviceStatsReport report => exact steady_grown stats_report_steady
  | joinResendDue => exact steady_grown (keeps_steady (resend_join_request_keeps roster_view_ignores))
  | gossipInterval nickname stats => exact steady_grown gossip_tick_steady
  | poolCoalesceInterval stats => exact steady_grown coalesce_steady
  | replaySweep => exact steady_grown sweep_steady
  | restart => exact steady_grown restart_steady

end Events

section Joins

variable {quiet : Prop} {me : NodeId} {limit : Nat} {base : List (NodeId × Uuid)} {signed : List PoolInvitation}

theorem own_pairs_member {state : Option PoolState} (pair : NodeId × Uuid) (member : pair ∈ ownPairs me state) :
    ∃ own, state = some own ∧ own.poolId = me ∧ pair ∈ roster own.members ∧ pair.1 ≠ me := by
  cases state with
  | none => cases member
  | some own =>
    rw [ownPairs] at member
    split at member
    · rename_i mine
      obtain ⟨listed, other⟩ := mem_filter.mp member
      exact ⟨own, rfl, mine, listed, of_decide_eq_true other⟩
    · cases member

theorem own_pairs_nodup (state : Option PoolState) (fits : Fits quiet me limit base signed state) : (ownPairs me state).Nodup := by
  cases state with
  | none => exact nodup_nil
  | some own =>
    rw [ownPairs]
    split
    · rename_i mine
      exact (fits.sound own rfl mine).distinct.of_map.filter _
    · exact nodup_nil

theorem all_same_nodup {E : Type} {items : List E} {item : E} (nodup : items.Nodup) (same : ∀ other ∈ items, other = item) :
    items = [] ∨ items = [item] := by
  cases items with
  | nil => exact Or.inl rfl
  | cons head rest =>
    have first : head = item := same head (.head rest)
    have empty : rest = [] := by
      refine eq_nil_iff_forall_not_mem.mpr fun other member => ?_
      have second : other = item := same other (.tail head member)
      exact (nodup_cons.mp nodup).1 (first.trans second.symm ▸ member)
    exact Or.inr (by rw [first, empty])

def newMembers (before after : PoolNode) : List (NodeId × Uuid) :=
  (ownPairs before.nodeId after.poolState).filter fun pair => pair ∉ ownPairs before.nodeId before.poolState

theorem new_members_none {before after : PoolNode}
    (inside : ownPairs before.nodeId after.poolState ⊆ ownPairs before.nodeId before.poolState) : newMembers before after = [] := by
  refine filter_eq_nil_iff.mpr fun pair member => ?_
  simp [inside member]

theorem new_members_one (before : PoolNode) {after : PoolNode} {pair : NodeId × Uuid} (nodup : (ownPairs before.nodeId after.poolState).Nodup)
    (inside : ownPairs before.nodeId after.poolState ⊆ pair :: ownPairs before.nodeId before.poolState) :
    newMembers before after = [] ∨ newMembers before after = [pair] := by
  apply all_same_nodup (nodup.filter _)
  intro other member
  obtain ⟨listed, new⟩ := mem_filter.mp member
  rcases mem_cons.mp (inside listed) with same | old
  · exact same
  · exact absurd old (of_decide_eq_true new)

end Joins

variable {used : List Uuid} {manager : PoolManager}

section Run

variable (prims : Primitives) (me : NodeId) (limit : Nat)

def joins (world : PoolWorld) (turn : PoolTurn) : List Uuid :=
  (newMembers world.manager.node (poolStep prims world turn).manager.node).map Prod.snd

-- The drawn UUID is not one of an invitation already signed.
def DrawsFresh (world : PoolWorld) (turn : PoolTurn) : Prop :=
  ∀ id ∈ turn.event.draws, ∀ invitation ∈ world.manager.signed, invitation.id ≠ id

instance (world : PoolWorld) (turn : PoolTurn) : Decidable (DrawsFresh world turn) :=
  inferInstanceAs (Decidable (∀ id ∈ turn.event.draws, ∀ invitation ∈ world.manager.signed, invitation.id ≠ id))

def pastOf (manager : PoolManager) : Past := ⟨ownPairs manager.node.nodeId manager.node.poolState, manager.signed⟩

-- With every write landing, each join so far used up a signed invitation of its own.
structure Once (used : List Uuid) (world : PoolWorld) : Prop where
  holds : Holds prims True me used (Whole True me limit (pastOf world.manager)) world.manager
  distinct : used.Nodup
  issued : ∀ id ∈ used, ∃ invitation ∈ world.manager.signed, invitation.id = id

variable {me} {limit} {prims} {past : Past}

theorem holds_present (holds : Holds prims True me used (Whole True me limit past) manager) :
    Holds prims True me used (Whole True me limit (pastOf manager)) manager := by
  refine { holds with node := ?_ }
  have owner : manager.node.nodeId = me := holds.node.owner
  have whole := holds.node
  have pairs : (pastOf manager).pairs = ownPairs me manager.node.poolState := by rw [← owner]; rfl
  refine ⟨⟨whole.owner, whole.size, ⟨whole.memory.sound, fun _ => ?_⟩, ⟨whole.record.sound, fun sure => ?_⟩, ?_⟩, whole.backed⟩
  · rw [pairs]
    exact List.Subset.refl _
  · rw [pairs]
    exact whole.backed sure
  · exact List.Subset.refl _

theorem event_sound (room : 1 ≤ limit) {now : DateTime} {event : PoolEvent} :
    Triple False (Sound prims me limit) (event.handle prims now) (fun _ => Sound prims me limit) (Sound prims me limit) := by
  have grown : Triple False (Holds prims False me [] (Whole False me limit Past.nothing)) (event.handle prims now)
      (fun _ => Grown prims False me limit [] Past.nothing) (Sound prims me limit) := event_grown room False.elim
  refine triple_weaken grown ?_ ?_ fun _ sound => sound
  · exact holds_weaken fun _ _ half => half_loud id half
  · rintro _ manager (holds | ⟨pair, _, holds⟩)
    · exact holds_sound whole_half manager holds
    · exact holds_sound whole_half manager holds

theorem step_sound (room : 1 ≤ limit) {world : PoolWorld} {turn : PoolTurn} (sound : Sound prims me limit world.manager) :
    Sound prims me limit (poolStep prims world turn).manager := by
  unfold poolStep
  split
  · exact sound
  · rw [after_handling_manager]
    exact triple_leaves (event_sound room) turn.fates sound

variable {after : PoolManager}

theorem once_inherits {before : PoolWorld} (once : Once prims me limit used before) (same : past.signed = before.manager.signed)
    (holds : Holds prims True me used (Whole True me limit past) after) (clock : DateTime) :
    Once prims me limit used ⟨after, clock, false⟩ := by
  refine ⟨holds_present holds, once.distinct, fun id listed => ?_⟩
  obtain ⟨invitation, member, named⟩ := once.issued id listed
  exact ⟨invitation, holds.node.kept (same ▸ member), named⟩

theorem grown_once {before : PoolWorld} (once : Once prims me limit used before)
    (grown : Grown prims True me limit used (pastOf before.manager) after) {clock : DateTime} :
    Once prims me limit (used ++ (newMembers before.manager.node after.node).map Prod.snd) ⟨after, clock, false⟩ := by
  have owner : before.manager.node.nodeId = me := once.holds.node.owner
  subst owner
  rcases grown with holds | ⟨pair, unused, holds⟩
  · have none : newMembers before.manager.node after.node = [] :=
      new_members_none (holds.node.memory.inside trivial)
    rw [none, map_nil, append_nil]
    exact once_inherits once rfl holds clock
  have nodup := own_pairs_nodup _ holds.node.memory
  have inside := holds.node.memory.inside trivial
  have earlier := holds_fewer (subset_cons_self pair.2 used) after holds
  have old := once_inherits once rfl earlier clock
  rcases new_members_one before.manager.node nodup inside with none | one
  · rw [none, map_nil, append_nil]
    exact old
  have listed : pair ∈ newMembers before.manager.node after.node := one ▸ .head []
  obtain ⟨own, found, mine, member, other⟩ := own_pairs_member pair (mem_of_mem_filter listed)
  obtain ⟨invitation, issued, named, _⟩ := (holds.node.memory.sound own found mine).invited pair member other
  rw [one, map_singleton]
  constructor
  · refine holds_present (holds_fewer ?_ after holds)
    exact append_subset.mpr ⟨subset_cons_self pair.2 used, cons_subset_cons pair.2 (nil_subset used)⟩
  · exact nodup_last once.distinct (unused trivial other)
  · exact forall_concat old.issued ⟨invitation, issued, named⟩

theorem step_once (room : 1 ≤ limit) {world : PoolWorld} {turn : PoolTurn}
    (once : Once prims me limit used world) (landing : turn.fates = []) (fresh : DrawsFresh world turn) :
    Once prims me limit (used ++ joins prims world turn) (poolStep prims world turn) := by
  by_cases idle : (world.down && !turn.event.isRestart) = true
  · have next : poolStep prims world turn = { world with clock := turn.now } := if_pos idle
    have none : joins prims world turn = [] := by
      rw [joins, next, new_members_none (List.Subset.refl _)]
      rfl
    rw [none, append_nil, next]
    exact { once with }
  have unused : True → ∀ id ∈ turn.event.draws, id ∉ used := by
    intro _ id drawn listed
    obtain ⟨invitation, member, named⟩ := once.issued id listed
    exact fresh id drawn invitation member named
  obtain ⟨_, after, ran, grown⟩ := triple_lands (event_grown room unused) once.holds
  have next : poolStep prims world turn = ⟨after, turn.now, false⟩ := by
    rw [poolStep, if_neg idle, landing, ran]
    rfl
  rw [joins, next]
  exact grown_once once grown

variable (prims)

structure OwnerRoster (manager : PoolManager) (state : PoolState) : Prop where
  distinct : (state.members.map PoolMembership.nodeId).Nodup
  bounded : state.members.length ≤ manager.node.maxPoolSize
  invited : ∀ member ∈ state.members, member.nodeId ≠ state.poolId → ∃ invitation ∈ manager.signed,
    invitation.id = member.invitationId ∧ invitation.inviteeNodeId = member.nodeId ∧ Genuine prims state.poolId invitation

theorem sound_roster (sound : Sound prims me manager.node.maxPoolSize manager) {state : PoolState}
    (found : manager.node.poolState = some state) (own : state.poolId = manager.node.nodeId) : OwnerRoster prims manager state := by
  have mine : state.poolId = me := own.trans sound.node.owner
  have pairs := sound.node.memory.sound state found mine
  constructor
  · have distinct := pairs.distinct
    rw [roster, map_map] at distinct
    exact distinct
  · have bounded := pairs.bounded
    rw [roster, length_map] at bounded
    exact bounded
  · intro member listed other
    rw [mine] at other ⊢
    obtain ⟨invitation, issued, named, invitee⟩ := pairs.invited _ (mem_map.mpr ⟨member, listed, rfl⟩) other
    exact ⟨invitation, issued, named, invitee, sound.genuine invitation issued⟩

structure NewManager (manager : PoolManager) : Prop where
  memory : manager.node.poolState = none
  record : manager.node.poolStateRecord = none
  pending : manager.pendingInvitations = ∅
  tree : manager.invitationTree = ∅
  signed : manager.signed = []

theorem new_holds (quiet : Prop) (new : NewManager manager) (past : Past) (nothing : past.signed = []) :
    Holds prims quiet manager.node.nodeId [] (Whole quiet manager.node.nodeId manager.node.maxPoolSize past) manager := by
  have empty : ∀ table : Table Uuid PoolInvitation, table = ∅ → Issued quiet manager.node.nodeId [] manager.signed table := by
    rintro table rfl id invitation found
    rw [AList.lookup_empty] at found
    cases found
  constructor
  · intro invitation member
    rw [new.signed] at member
    cases member
  · exact empty _ new.pending
  · exact empty _ new.tree
  have memory : (cells manager.node).memory = none := new.memory
  have record : (cells manager.node).record = none := new.record
  refine ⟨⟨rfl, rfl, memory ▸ fits_none, record ▸ fits_none, ?_⟩, fun _ => ?_⟩
  · rw [nothing]
    exact nil_subset _
  · rw [record]
    exact nil_subset _

end Run

-- With room for the owner, whatever is sent, whatever fails and however often the
-- process restarts, the roster is sound. With every write landing and distinct
-- UUIDs, no invitation lets a second node in.
theorem owner_roster_kept (prims : Primitives) (start : PoolWorld) (turns : List PoolTurn) (new : NewManager start.manager)
    (room : 1 ≤ start.manager.node.maxPoolSize) :
    (∀ state, (run (poolStep prims) start turns).manager.node.poolState = some state → state.poolId = start.manager.node.nodeId →
        OwnerRoster prims (run (poolStep prims) start turns).manager state) ∧
    (RunMeets (poolStep prims) (fun world turn => turn.fates = [] ∧ DrawsFresh world turn) start turns →
      (observed (poolStep prims) (joins prims) start turns).Nodup) := by
  constructor
  · have first : Sound prims start.manager.node.nodeId start.manager.node.maxPoolSize start.manager :=
      holds_sound whole_half _ (new_holds prims False new Past.nothing rfl)
    have last := @run_keeps _ _ (poolStep prims) (fun world => Sound prims start.manager.node.nodeId
      start.manager.node.maxPoolSize world.manager) (fun world turn => step_sound room) start turns first
    intro state found own
    have size : (run (poolStep prims) start turns).manager.node.maxPoolSize = start.manager.node.maxPoolSize := last.node.size
    have owner : (run (poolStep prims) start turns).manager.node.nodeId = start.manager.node.nodeId := last.node.owner
    exact sound_roster prims (size ▸ last) found (own.trans owner.symm)
  intro meets
  have first : Once prims start.manager.node.nodeId start.manager.node.maxPoolSize [] start := by
    refine ⟨new_holds prims True new (pastOf start.manager) new.signed, nodup_nil, ?_⟩
    exact fun _ member => nomatch member
  have last := run_history (fun used world turn once ok => step_once room once ok.1 ok.2) [] start first meets
  exact last.distinct

section Sample

def homeOwner : NodeId := NodeId.ofByte 1
def homeGuest : NodeId := NodeId.ofByte 2
def guestInvitation : Uuid := Uuid.ofByte 3

def newHome (limit : Nat) : PoolWorld :=
  ⟨sampleManager { sampleNode homeOwner none with maxPoolSize := limit }, 0, false⟩

def guestJoins : List PoolTurn :=
  let acceptance := createAcceptance samplePrims homeGuest
    (createInvitation samplePrims homeOwner homeOwner homeGuest 24 guestInvitation 1) 2
  [⟨0, .createPool "home", []⟩, ⟨1, .createInvitation homeGuest guestInvitation, []⟩,
    ⟨2, .inboundAcceptance acceptance ⟨0, 0, 0, 0, 0, 0, []⟩, []⟩, ⟨3, .restart, []⟩]

theorem new_home {limit : Nat} : NewManager (newHome limit).manager := ⟨rfl, rfl, rfl, rfl, rfl⟩

end Sample

theorem owner_roster_kept_sample :
    ((run (poolStep samplePrims) (newHome 2) guestJoins).manager.node.poolState.map fun state =>
        state.members.map PoolMembership.nodeId) = some [homeOwner, homeGuest] ∧
      observed (poolStep samplePrims) (joins samplePrims) (newHome 2) guestJoins = [guestInvitation] ∧
      (observed (poolStep samplePrims) (joins samplePrims) (newHome 2) guestJoins).Nodup :=
  ⟨by decide +kernel, by decide +kernel,
    (owner_roster_kept samplePrims (newHome 2) guestJoins (new_home) (by decide)).2 (by decide +kernel)⟩

-- A limit of zero is not refused, and creating a pool does not look at the limit.
theorem empty_limit_exceeded :
    NewManager (newHome 0).manager ∧
      ∃ state, (run (poolStep samplePrims) (newHome 0) [⟨0, .createPool "home", []⟩]).manager.node.poolState = some state ∧
        state.poolId = homeOwner ∧
        ¬ OwnerRoster samplePrims (run (poolStep samplePrims) (newHome 0) [⟨0, .createPool "home", []⟩]).manager state := by
  refine ⟨new_home, newPool samplePrims homeOwner "home" 0, by decide +kernel, rfl, fun roster => ?_⟩
  exact absurd roster.bounded (by decide +kernel)

end SwarmLlm.Pool
