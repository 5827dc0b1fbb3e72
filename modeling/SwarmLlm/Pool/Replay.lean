import SwarmLlm.Pool.Frames
import SwarmLlm.Pool.Removal
import SwarmLlm.Lib.Run

namespace SwarmLlm.Pool

open Lib List PoolEvent Option
open Lib.Prog

inductive ControlMessage where
  | removal (removal : PoolRemoval)
  | memberLeft (notice : MemberLeft)
  deriving DecidableEq

namespace ControlMessage

def event : ControlMessage → PoolEvent
  | .removal eviction => .inboundRemoval eviction
  | .memberLeft notice => .inboundMemberLeft notice

def key : ControlMessage → ReplayKey
  | .removal eviction => .removal eviction.removalId
  | .memberLeft notice => .memberLeft notice.nonce

def date : ControlMessage → Int
  | .removal eviction => eviction.removedAt
  | .memberLeft notice => notice.leftAt * secondsNs

def fresh (now : DateTime) : ControlMessage → Bool
  | .removal eviction => isFresh now eviction.removedAt "pool_removal"
  | .memberLeft notice => decide (notice.leftAt ≤ timestamp now + 30) && decide (timestamp now - 300 ≤ notice.leftAt)

def authentic (prims : Primitives) (me : NodeId) : ControlMessage → Bool
  | .removal eviction =>
    decide (eviction.removedNodeId = me) && decide (eviction.removalId ≠ Uuid.nil) && prims.keyValid eviction.poolId &&
      verifyRemoval prims eviction eviction.poolId
  | .memberLeft notice =>
    decide (notice.poolId = me) && prims.keyValid notice.nodeId &&
      verifySig prims notice.signature (memberLeftPayload prims notice.poolId notice.nodeId notice.leftAt notice.nonce)
        notice.nodeId

def handle (prims : Primitives) (now : DateTime) : ControlMessage → Prog PoolNode Unit
  | .removal eviction => handleInboundRemoval prims eviction now
  | .memberLeft notice => handleInboundMemberLeft prims notice now

def refused (prims : Primitives) (node : PoolNode) (now : DateTime) : ControlMessage → Bool
  | .removal eviction => removalRefused prims node eviction now
  | .memberLeft notice => memberLeftRefused prims node notice now

end ControlMessage

def PoolEvent.message : PoolEvent → Option ControlMessage
  | .inboundRemoval removal => some (.removal removal)
  | .inboundMemberLeft notice => some (.memberLeft notice)
  | _ => none

variable {now : DateTime} {key : ReplayKey} {replays : Table ReplayKey Int}

section Effects

variable (prims : Primitives)

-- The key of the message that takes effect at this turn, with the second.
def controlEffect (world : PoolWorld) (turn : PoolTurn) : List (ReplayKey × Int) :=
  match turn.event.message with
  | none => []
  | some message =>
    if world.down || message.refused prims world.manager.node turn.now then []
    else [(message.key, timestamp turn.now)]

variable {me : NodeId} {quiet : Prop} {message : ControlMessage} {before node : PoolNode} {now : DateTime} {prims}

theorem accepted_iff : message.refused prims node now = false ↔
      message.authentic prims node.nodeId = true ∧ message.fresh now = true ∧ node.removalReplays.lookup message.key = none := by
  cases message with
  | removal removal =>
    simp only [ControlMessage.refused, removalRefused, ControlMessage.authentic, ControlMessage.fresh, ControlMessage.key,
      Bool.or_eq_false_iff, Bool.and_eq_true, Bool.not_eq_false', decide_eq_false_iff_not, decide_eq_true_eq, ne_eq,
      Decidable.not_not, isSome_eq_false_iff, isNone_iff_eq_none]
    tauto
  | memberLeft notice =>
    simp only [ControlMessage.refused, memberLeftRefused, ControlMessage.authentic, ControlMessage.fresh,
      ControlMessage.key, Bool.or_eq_false_iff, Bool.and_eq_true, Bool.not_eq_false', decide_eq_false_iff_not,
      decide_eq_true_eq, ne_eq, Decidable.not_not, isSome_eq_false_iff, isNone_iff_eq_none, not_lt]
    tauto

-- An accepted message may be cut off or fail before its key is on disk.
def MayRecord (key : ReplayKey) (now : DateTime) (before after : PoolNode) : Prop :=
  after.nodeId = before.nodeId ∧ (after.removalReplays = before.removalReplays ∨
      after.removalReplays = before.removalReplays.insert key (timestamp now))

theorem drop_and_persist_keeps {member : NodeId} : (dropAndPersist member).Keeps nodeReplays := by
  apply keeps_bind keeps_get
  intro node
  split
  · exact keeps_pure
  · refine keeps_bind (keeps_modify fun _ => rfl) fun _ => ?_
    split
    · exact keeps_bind persist_keeps_replays fun _ => keeps_pure
    · exact keeps_pure

theorem record_key : Triple False (fun node => nodeReplays node = nodeReplays before)
      (do
        let _ ← Prog.write fun node => { node with removalReplays := node.removalReplays.insert key (timestamp now) }
        pure ())
      (fun _ => MayRecord key now before) (MayRecord key now before) := by
  have same : ∀ node, nodeReplays node = nodeReplays before → MayRecord key now before node := by
    intro node equal
    exact ⟨congrArg Prod.fst equal, .inl (congrArg Prod.snd equal)⟩
  have recorded : ∀ node, nodeReplays node = nodeReplays before →
      MayRecord key now before { node with removalReplays := node.removalReplays.insert key (timestamp now) } := by
    intro node equal
    have table : node.removalReplays = before.removalReplays := congrArg Prod.snd equal
    refine ⟨congrArg Prod.fst equal, .inr ?_⟩
    rw [← table]
  refine triple_bind (fun _ => MayRecord key now before) ?_ fun _ => triple_pure fun _ holds => holds
  apply triple_write recorded
  · exact fun _ _ node equal => same node equal
  · exact fun _ node equal => ⟨same node equal, recorded node equal⟩

theorem before_record {Q : Type} {prog : Prog PoolNode Q} (keeps : prog.Keeps nodeReplays) :
    Triple False (fun node => nodeReplays node = nodeReplays before) prog
      (fun _ node => nodeReplays node = nodeReplays before) (MayRecord key now before) := by
  refine triple_weaken (keeps.triple False (nodeReplays before)) (fun _ same => same) (fun _ _ same => same) ?_
  exact fun node same => ⟨congrArg Prod.fst same, .inl (congrArg Prod.snd same)⟩

theorem removal_records {eviction : PoolRemoval} (accepted : removalRefused prims before eviction now = false) :
    Triple False (fun node => node = before) (handleInboundRemoval prims eviction now)
      (fun _ => MayRecord (.removal eviction.removalId) now before) (MayRecord (.removal eviction.removalId) now before) := by
  simp only [removalRefused, Bool.or_eq_false_iff, Bool.not_eq_false', decide_eq_false_iff_not, ne_eq,
    Decidable.not_not] at accepted
  obtain ⟨⟨⟨⟨⟨addressed, fresh⟩, named⟩, unseen⟩, key⟩, signed⟩ := accepted
  refine triple_bind (fun read node => read = before ∧ nodeReplays node = nodeReplays before)
    (triple_get fun node same => ⟨same, congrArg nodeReplays same⟩) fun read => ?_
  refine triple_given (read = before) (fun _ both => both.1) fun same => ?_
  simp only [same, addressed, fresh, named, unseen, key, signed, ne_eq, not_true_eq_false, if_false, Bool.false_eq_true,
    Bool.true_eq_false, true_and]
  refine triple_bind _ (before_record (keeps_modify fun _ => rfl)) fun _ => ?_
  refine triple_bind _ (before_record (keeps_write fun _ => rfl)) fun _ => ?_
  refine triple_bind _ (before_record (keeps_modify fun _ => rfl)) fun _ => ?_
  exact record_key

theorem member_left_records {notice : MemberLeft} (accepted : memberLeftRefused prims before notice now = false) :
    Triple False (fun node => node = before) (handleInboundMemberLeft prims notice now)
      (fun _ => MayRecord (.memberLeft notice.nonce) now before) (MayRecord (.memberLeft notice.nonce) now before) := by
  refine triple_bind (fun read node => read = before ∧ nodeReplays node = nodeReplays before)
    (triple_get fun node same => ⟨same, congrArg nodeReplays same⟩) fun read => ?_
  refine triple_given (read = before) (fun _ both => both.1) fun same => ?_
  simp only [same, accepted, Bool.false_eq_true, if_false, true_and]
  refine triple_bind _ (before_record drop_and_persist_keeps) fun _ => ?_
  exact record_key

theorem accepted_records (fates : List WriteFate) (accepted : message.refused prims node now = false) :
    MayRecord message.key now node (message.handle prims now ⟨node, fates⟩).2.store := by
  have triple : Triple False (fun other => other = node) (message.handle prims now)
      (fun _ => MayRecord message.key now node) (MayRecord message.key now node) := by
    cases message with
    | removal eviction => exact removal_records accepted
    | memberLeft notice => exact member_left_records accepted
  exact triple_leaves triple fates rfl

theorem refused_unchanged {fates : List WriteFate} (refused : message.refused prims node now = true) :
    (message.handle prims now ⟨node, fates⟩).2.store = node := by
  cases message with
  | removal eviction => exact removal_refused_keeps prims refused
  | memberLeft notice =>
    have turnedAway : memberLeftRefused prims node notice now = true := refused
    change ((if memberLeftRefused prims node notice now = true then pure () else _ : Prog PoolNode Unit)
      ⟨node, fates⟩).2.store = node
    rw [if_pos turnedAway]
    rfl

def Swept (now : DateTime) (before after : Table ReplayKey Int) : Prop :=
  ∀ key, after.lookup key = before.lookup key ∨
    ∃ seen, before.lookup key = some seen ∧ seen < timestamp now - 300 ∧ after.lookup key = none

theorem stale_replay_found
    (member : key ∈ staleReplays now replays) : ∃ seen, replays.lookup key = some seen ∧ seen < timestamp now - 300 := by
  have present : ((Table.retain (fun _ seen => decide (seen < timestamp now - 300)) replays).lookup key).isSome = true :=
    AList.lookup_isSome.mpr member
  rw [Table.lookup_retain] at present
  obtain ⟨seen, kept⟩ := isSome_iff_exists.mp present
  obtain ⟨found, stale⟩ := filter_eq_some_iff.mp kept
  exact ⟨seen, found, of_decide_eq_true stale⟩

def SweptFrom (me : NodeId) (now : DateTime) (before : Table ReplayKey Int) (manager : PoolManager) : Prop :=
  manager.node.nodeId = me ∧ Swept now before manager.node.removalReplays

theorem swept_start {before : Table ReplayKey Int} {manager : PoolManager} (same : replayView manager = (me, before)) :
    SweptFrom me now before manager :=
  ⟨congrArg Prod.fst same, fun key => .inl (congrArg (fun view => view.2.lookup key) same)⟩

theorem sweep_drops_stale {before : Table ReplayKey Int} :
    Triple quiet (fun manager => replayView manager = (me, before)) (sweepReplayTable now)
      (fun _ => SweptFrom me now before) (SweptFrom me now before) := by
  refine triple_bind (fun read manager => replayView read = (me, before) ∧ SweptFrom me now before manager)
    (triple_get fun manager same => ⟨same, swept_start same⟩) fun read => ?_
  refine triple_given (replayView read = (me, before)) (fun _ both => both.1) fun same => ?_
  refine triple_weaken (triple_for_each fun key member => ?_) (fun _ both => both.2)
    (fun _ _ holds => holds) (fun _ holds => holds)
  have table : read.node.removalReplays = before := congrArg Prod.snd same
  rw [table] at member
  obtain ⟨seen, found, stale⟩ := stale_replay_found member
  have erased : ∀ manager, SweptFrom me now before manager → SweptFrom me now before
      { manager with node := { manager.node with removalReplays := manager.node.removalReplays.erase key } } := by
    intro manager holds
    refine ⟨holds.1, fun query => ?_⟩
    rw [Table.lookup_erase_if]
    by_cases hit : query = key
    · rw [if_pos hit, hit]
      exact .inr ⟨seen, found, stale, rfl⟩
    · rw [if_neg hit]
      exact holds.2 query
  refine triple_bind (fun _ => SweptFrom me now before) ?_ fun _ => triple_pure fun _ holds => holds
  refine triple_zoom fun manager holds => ?_
  apply triple_write
  · exact fun node same => same ▸ erased manager holds
  · exact fun _ _ node same => same ▸ holds
  · exact fun _ node same => same ▸ ⟨holds, erased manager holds⟩

theorem restart_drops_stale {before : Table ReplayKey Int} :
    Triple quiet (fun manager => replayView manager = (me, before)) (restart.handle prims now)
      (fun _ => SweptFrom me now before) (SweptFrom me now before) := by
  have decided : ∀ store other, replayView store = replayView other → SweptFrom me now before store →
      SweptFrom me now before other := by
    intro store other same holds
    have equal : store.node.removalReplays = other.node.removalReplays := congrArg Prod.snd same
    exact ⟨(congrArg Prod.fst same).symm.trans holds.1, equal ▸ holds.2⟩
  have boot : (Prog.modify PoolManager.booted).Keeps replayView := keeps_modify fun _ => rfl
  have load : restorePoolState.Keeps replayView := by
    refine on_node_keeps_replays (keeps_modify fun node => ?_)
    split <;> rfl
  have codes : ∀ entries : List PoolInviteCode, (Prog.forEach entries (restoreCode now)).Keeps replayView :=
    fun entries => keeps_for_each (restore_code_keeps replay_view_ignores)
  refine triple_bind _ (triple_weaken (boot.triple quiet (me, before)) (fun _ same => same) (fun _ _ same => same) fun _ => swept_start)
    fun _ => ?_
  refine triple_bind _ (triple_weaken (load.triple quiet (me, before)) (fun _ same => same) (fun _ _ same => same) fun _ => swept_start)
    fun _ => ?_
  refine triple_bind _ sweep_drops_stale fun _ => ?_
  refine triple_bind _ (triple_keeps (keeps_modify fun _ => rfl) decided fun _ holds => holds) fun _ => ?_
  refine triple_bind (fun _ => SweptFrom me now before) (triple_get fun _ holds => holds) fun manager => ?_
  exact triple_keeps (codes _) decided fun _ holds => holds

end Effects

variable {message : ControlMessage} {world : PoolWorld} {turn : PoolTurn}

section Step

variable (prims : Primitives) {event : PoolEvent}

theorem message_event (carried : event.message = some message) : event = message.event := by
  cases event <;> simp only [PoolEvent.message, Option.some.injEq, reduceCtorEq] at carried
  all_goals subst carried; rfl

theorem handle_message (now : DateTime) (message : ControlMessage) :
    message.event.handle prims now = onNode (message.handle prims now) := by
  cases message <;> rfl

theorem swept_self : Swept now replays replays := fun _ => .inl rfl

theorem event_sweeps (now : DateTime) (other : event.message = none) (manager : PoolManager) (fates : List WriteFate) :
    SweptFrom manager.node.nodeId now manager.node.removalReplays (event.handle prims now ⟨manager, fates⟩).2.store := by
  cases touches : event.touchesReplays with
  | false =>
    have keeps := @other_events_keep_replays prims now event touches
    have same := triple_leaves (keeps.triple False (replayView manager)) fates rfl
    have table : (event.handle prims now ⟨manager, fates⟩).2.store.node.removalReplays = manager.node.removalReplays :=
      congrArg Prod.snd same
    refine ⟨congrArg Prod.fst same, ?_⟩
    rw [table]
    exact swept_self
  | true =>
    cases event with
    | replaySweep => exact triple_leaves sweep_drops_stale fates rfl
    | restart => exact triple_leaves restart_drops_stale fates rfl
    | inboundRemoval | inboundMemberLeft => cases other
    | _ => cases touches

inductive ReplayStep (world : PoolWorld) (turn : PoolTurn) (after : Table ReplayKey Int) : Prop where
  | quiet (none : controlEffect prims world turn = []) (swept : Swept turn.now world.manager.node.removalReplays after)
  | effect (message : ControlMessage) (carried : turn.event.message = some message) (up : world.down = false)
      (accepted : message.refused prims world.manager.node turn.now = false)
      (noted : controlEffect prims world turn = [(message.key, timestamp turn.now)])
      (table : after = world.manager.node.removalReplays ∨
        after = world.manager.node.removalReplays.insert message.key (timestamp turn.now))

theorem step_replays : (poolStep prims world turn).manager.node.nodeId = world.manager.node.nodeId ∧
      ReplayStep prims world turn (poolStep prims world turn).manager.node.removalReplays := by
  cases down : world.down && !turn.event.isRestart with
  | true =>
    have still : poolStep prims world turn = { world with clock := turn.now } := by rw [poolStep, if_pos down]
    have silent : controlEffect prims world turn = [] := by
      have stopped : world.down = true := (Bool.and_eq_true_iff.mp down).1
      unfold controlEffect
      split
      · rfl
      · rw [stopped, Bool.true_or, if_pos rfl]
    rw [still]
    exact ⟨rfl, .quiet silent swept_self⟩
  | false =>
    have moved : (poolStep prims world turn).manager = (turn.event.handle prims turn.now ⟨world.manager, turn.fates⟩).2.store := by
      rw [poolStep, if_neg (Bool.not_eq_true _ ▸ down), after_handling_manager]
    rw [moved]
    cases carried : turn.event.message with
    | none =>
      have swept := event_sweeps prims turn.now carried world.manager turn.fates
      refine ⟨swept.1, .quiet ?_ swept.2⟩
      rw [controlEffect, carried]
    | some message =>
      have event := message_event carried
      have up : world.down = false := by
        have running : (world.down && !turn.event.isRestart) = false := down
        rw [event] at running
        cases message <;> simpa only [ControlMessage.event, isRestart, Bool.not_false, Bool.and_true] using running
      have store : (turn.event.handle prims turn.now ⟨world.manager, turn.fates⟩).2.store.node =
          (message.handle prims turn.now ⟨world.manager.node, turn.fates⟩).2.store := by
        rw [event, handle_message]
        rfl
      rw [store]
      cases refused : message.refused prims world.manager.node turn.now with
      | true =>
        rw [refused_unchanged refused]
        refine ⟨rfl, .quiet ?_ swept_self⟩
        rw [controlEffect, carried]
        simp only [refused, Bool.or_true, if_true]
      | false =>
        have recorded := accepted_records turn.fates refused
        refine ⟨recorded.1, .effect message carried up refused ?_ recorded.2⟩
        rw [controlEffect, carried]
        simp only [up, refused, Bool.or_false, Bool.false_eq_true, if_false]

end Step

variable {now : Int}

section Window

theorem fresh_iff {date : Int} {kind : String} :
    isFresh now date kind = true ↔ -30 ≤ numSeconds (now - date) ∧ numSeconds (now - date) ≤ 300 := by
  unfold isFresh checkSignedFreshness clockSkewToleranceSecs balanceReportMaxAgeSecs
  dsimp only
  split_ifs with ahead old
  · exact ⟨fun refused => absurd refused (by simp [Except.isOk, Except.toBool]), fun inside => absurd ahead (by omega)⟩
  · exact ⟨fun refused => absurd refused (by simp [Except.isOk, Except.toBool]), fun inside => absurd old (by omega)⟩
  · exact ⟨fun _ => ⟨by omega, by omega⟩, fun _ => rfl⟩

-- While a message is fresh, a sweep keeps every entry no older than its date.
theorem fresh_outlasts {second : Int} (fresh : message.fresh now = true)
    (dated : message.date ≤ second * secondsNs) : timestamp now - 300 ≤ second := by
  cases message with
  | removal eviction =>
    have age := (fresh_iff.mp fresh).2
    simp only [ControlMessage.date, secondsNs] at dated
    unfold timestamp secondsNs
    by_cases later : now ≤ (eviction.removedAt : Int)
    · omega
    · have forward : (0 : Int) ≤ now - eviction.removedAt := by omega
      rw [numSeconds, Int.tdiv_eq_ediv_of_nonneg forward, secondsNs] at age
      omega
  | memberLeft notice =>
    simp only [ControlMessage.fresh, Bool.and_eq_true, decide_eq_true_eq] at fresh
    simp only [ControlMessage.date, secondsNs] at dated
    omega

-- A message dated after the second it was handled in is still fresh when a sweep
-- has dropped the entry of that second.
theorem late_date_outlives (late : timestamp now * secondsNs < message.date) :
    ∃ later : Int, now ≤ later ∧ message.fresh later = true ∧ timestamp now < timestamp later - 300 := by
  refine ⟨max ((timestamp now + 301) * secondsNs) message.date, ?_, ?_, ?_⟩
  · unfold timestamp secondsNs
    omega
  · cases message with
    | removal eviction =>
      simp only [ControlMessage.date, ControlMessage.fresh] at late ⊢
      have forward : (0 : Int) ≤ max ((timestamp now + 301) * secondsNs) eviction.removedAt - eviction.removedAt := by omega
      rw [fresh_iff, numSeconds, Int.tdiv_eq_ediv_of_nonneg forward]
      unfold timestamp secondsNs at late ⊢
      omega
    | memberLeft notice =>
      have dated : timestamp now < notice.leftAt := by
        change timestamp now * secondsNs < notice.leftAt * secondsNs at late
        unfold secondsNs at late
        omega
      have exact : timestamp (max ((timestamp now + 301) * secondsNs) (notice.leftAt * secondsNs)) =
          max (timestamp now + 301) notice.leftAt := by
        simp only [timestamp, secondsNs]
        omega
      refine Bool.and_eq_true_iff.mpr ⟨decide_eq_true ?_, decide_eq_true ?_⟩
      · rw [ControlMessage.date, exact]
        omega
      · rw [ControlMessage.date, exact]
        omega
  · unfold timestamp secondsNs
    omega

theorem timestamp_mono {earlier later : Int} (ordered : earlier ≤ later) : timestamp earlier ≤ timestamp later := by
  unfold timestamp secondsNs
  omega

end Window

section Runs

variable (prims : Primitives) (sent : List ControlMessage)

-- The clock does not go back, and the control messages are among those ever sent.
def Scheduled (world : PoolWorld) (turn : PoolTurn) : Prop :=
  world.clock ≤ turn.now ∧ ∀ message ∈ turn.event.message, message ∈ sent

instance (world : PoolWorld) (turn : PoolTurn) : Decidable (Scheduled sent world turn) :=
  inferInstanceAs (Decidable (_ ∧ _))

-- A message that takes effect leaves its key on disk, and no message with that key
-- is dated after the second in which it does.
def Covered (world : PoolWorld) (turn : PoolTurn) : Prop :=
  ∀ entry ∈ controlEffect prims world turn, (poolStep prims world turn).manager.node.removalReplays.lookup entry.1 = some entry.2 ∧
      ∀ message ∈ sent, message.authentic prims world.manager.node.nodeId = true → message.key = entry.1 →
        message.date ≤ entry.2 * secondsNs

instance (world : PoolWorld) (turn : PoolTurn) : Decidable (Covered prims sent world turn) :=
  inferInstanceAs (Decidable (∀ entry ∈ controlEffect prims world turn, _))

variable (start : PoolWorld) (turns : List PoolTurn)

def effects : List (ReplayKey × Int) :=
  observed (poolStep prims) (controlEffect prims) start turns

-- No key takes effect twice, and a message that would still be fresh finds the
-- entry its earlier processing left.
def NeverTwice : Prop :=
  ((effects prims start turns).map Prod.fst).Nodup ∧ ∀ message ∈ sent, message.authentic prims start.manager.node.nodeId = true →
      message.key ∈ (effects prims start turns).map Prod.fst →
      message.fresh (run (poolStep prims) start turns).clock = true →
      ((run (poolStep prims) start turns).manager.node.removalReplays.lookup message.key).isSome = true

structure ReplaysHeld (me : NodeId) (seen : List (ReplayKey × Int)) (world : PoolWorld) : Prop where
  node : world.manager.node.nodeId = me
  distinct : (seen.map Prod.fst).Nodup
  held : ∀ entry ∈ seen, world.manager.node.removalReplays.lookup entry.1 = some entry.2 ∨ entry.2 < timestamp world.clock - 300
  dated : ∀ entry ∈ seen, ∀ message ∈ sent, message.authentic prims me = true → message.key = entry.1 →
    message.date ≤ entry.2 * secondsNs

variable {prims} {me : NodeId} {seen : List (ReplayKey × Int)}

theorem held_entry (inv : ReplaysHeld prims sent me seen world) (ordered : world.clock ≤ now) (known : message ∈ sent)
    (authentic : message.authentic prims me = true) (fresh : message.fresh now = true) (listed : message.key ∈ seen.map Prod.fst) :
    ∃ second, world.manager.node.removalReplays.lookup message.key = some second := by
  obtain ⟨entry, member, key⟩ := mem_map.mp listed
  have recent := fresh_outlasts fresh (inv.dated entry member message known authentic key.symm)
  have monotone := timestamp_mono ordered
  rcases inv.held entry member with found | stale
  · exact ⟨entry.2, key ▸ found⟩
  · omega

theorem step_holds
    (inv : ReplaysHeld prims sent me seen world) (scheduled : Scheduled sent world turn) (covered : Covered prims sent world turn) :
    ReplaysHeld prims sent me (seen ++ controlEffect prims world turn) (poolStep prims world turn) := by
  obtain ⟨node, step⟩ := step_replays prims
  have monotone := timestamp_mono scheduled.1
  cases step with
  | quiet silent swept =>
    rw [silent, append_nil]
    refine ⟨node.trans inv.node, inv.distinct, fun entry member => ?_, inv.dated⟩
    rw [step_clock]
    rcases inv.held entry member with found | stale
    · rcases swept entry.1 with same | ⟨old, before, stale, -⟩
      · exact .inl (same.trans found)
      · rw [found] at before
        cases before
        exact .inr stale
    · exact .inr (by omega)
  | effect message carried up accepted noted table =>
    obtain ⟨authentic, fresh, missing⟩ := accepted_iff.mp accepted
    have known : message ∈ sent := scheduled.2 message carried
    have unlisted : message.key ∉ seen.map Prod.fst := by
      intro listed
      obtain ⟨second, found⟩ := held_entry sent inv scheduled.1 known (inv.node ▸ authentic) fresh listed
      rw [missing] at found
      cases found
    have recorded := covered (message.key, timestamp turn.now) (by rw [noted]; exact mem_singleton_self _)
    rw [noted]
    refine ⟨node.trans inv.node, ?_, fun entry member => ?_, forall_concat inv.dated (inv.node ▸ recorded.2)⟩
    · rw [map_append]
      exact nodup_last inv.distinct unlisted
    · rcases mem_append.mp member with old | new
      · have differs : entry.1 ≠ message.key := fun same => unlisted (same ▸ mem_map_of_mem old)
        have lookup : (poolStep prims world turn).manager.node.removalReplays.lookup entry.1 =
            world.manager.node.removalReplays.lookup entry.1 := by
          rcases table with same | inserted
          · rw [same]
          · rw [inserted, AList.lookup_insert_ne differs]
        rw [lookup, step_clock]
        rcases inv.held entry old with found | stale
        · exact .inl found
        · exact .inr (by omega)
      · rw [mem_singleton.mp new]
        exact .inl recorded.1

theorem held_run {start : PoolWorld} {turns : List PoolTurn} (scheduled : RunMeets (poolStep prims) (Scheduled sent) start turns)
    (covered : RunMeets (poolStep prims) (Covered prims sent) start turns) :
    ReplaysHeld prims sent start.manager.node.nodeId (effects prims start turns) (run (poolStep prims) start turns) := by
  have initial : ReplaysHeld prims sent start.manager.node.nodeId [] start :=
    ⟨rfl, nodup_nil, fun entry member => absurd member not_mem_nil, fun entry member => absurd member not_mem_nil⟩
  have both := run_meets_and (Covered prims sent) start turns scheduled covered
  exact run_history (fun seen world turn inv ok => step_holds sent inv ok.1 ok.2) [] start initial both

end Runs

variable {key : ReplayKey}

section Redelivery

variable (prims : Primitives)

def withReplays (manager : PoolManager) (replays : Table ReplayKey Int) : PoolManager :=
  { manager with node := { manager.node with removalReplays := replays } }

def eraseReplays (keys : List ReplayKey) (replays : Table ReplayKey Int) : Table ReplayKey Int :=
  keys.foldl (fun table key => table.erase key) replays

theorem erase_each_lands {keys : List ReplayKey} (manager : PoolManager) : Prog.forEach keys (fun key => do
      let _ ← onNode (Prog.write fun node => { node with removalReplays := node.removalReplays.erase key })
      pure ()) ⟨manager, []⟩ =
      (.done (), ⟨withReplays manager (eraseReplays keys manager.node.removalReplays), []⟩) := by
  induction keys generalizing manager with
  | nil => rfl
  | cons key rest ih => exact ih _

def sweptManager (now : DateTime) (manager : PoolManager) : PoolManager :=
  withReplays manager (eraseReplays (staleReplays now manager.node.removalReplays) manager.node.removalReplays)

variable {manager : PoolManager} {later now : DateTime}

theorem sweep_lands : sweepReplayTable now ⟨manager, []⟩ = (.done (), ⟨sweptManager now manager, []⟩) :=
  erase_each_lands manager

def Droppable (later : DateTime) (key : ReplayKey) (replays : Table ReplayKey Int) : Prop :=
  ∀ seen, replays.lookup key = some seen → seen < timestamp later - 300

theorem stale_replay_listed {seen : Int}
    (found : replays.lookup key = some seen) (stale : seen < timestamp now - 300) : key ∈ staleReplays now replays := by
  refine AList.lookup_isSome.mp ?_
  rw [Table.lookup_retain, found, filter_some, if_pos (decide_eq_true stale)]
  rfl

theorem swept_droppable {before after : Table ReplayKey Int} (swept : Swept now before after)
    (droppable : Droppable later key before) : Droppable later key after := by
  intro seen found
  rcases swept key with same | ⟨_, _, _, gone⟩
  · exact droppable seen (same ▸ found)
  · rw [gone] at found
    cases found

theorem sweep_clears (droppable : Droppable later key manager.node.removalReplays) :
    (sweptManager later manager).node.removalReplays.lookup key = none := by
  rw [sweptManager, withReplays, eraseReplays, Table.lookup_erase_each]
  split
  · rfl
  next kept =>
    cases found : manager.node.removalReplays.lookup key with
    | none => rfl
    | some seen => exact absurd (stale_replay_listed found (droppable seen found)) kept

theorem redelivery_takes_effect
    (authentic : message.authentic prims world.manager.node.nodeId = true) (fresh : message.fresh later = true)
    (droppable : Droppable later message.key world.manager.node.removalReplays) :
    effects prims world [⟨world.clock, .restart, []⟩, ⟨later, .replaySweep, []⟩, ⟨later, message.event, []⟩] =
      [(message.key, timestamp later)] := by
  obtain ⟨_, restored, ran, node, swept⟩ := triple_lands
    restart_drops_stale rfl
  have up : poolStep prims world ⟨world.clock, .restart, []⟩ = ⟨restored, world.clock, false⟩ := by
    rw [poolStep, if_neg (by simp [isRestart]), ran]
    rfl
  have cleared : poolStep prims ⟨restored, world.clock, false⟩ ⟨later, .replaySweep, []⟩ =
      ⟨sweptManager later restored, later, false⟩ := by
    rw [poolStep, if_neg (by simp)]
    exact congrArg (afterHandling later) sweep_lands
  have missing := sweep_clears (swept_droppable swept droppable)
  have restarted : restart.message = none := rfl
  have sweeping : replaySweep.message = none := rfl
  have carried : message.event.message = some message := by cases message <;> rfl
  have accepted : message.refused prims (sweptManager later restored).node later = false :=
    accepted_iff.mpr ⟨node ▸ authentic, fresh, missing⟩
  simp only [effects, observed, up, cleared, controlEffect, restarted, sweeping, carried, accepted, Bool.or_self,
    Bool.false_eq_true, if_false, nil_append, append_nil]

end Redelivery

section Results

variable (prims : Primitives) (sent : List ControlMessage)

-- What an uncovered message leaves: some message with its key, still fresh at a
-- time when a sweep has dropped the entry.
theorem uncovered_leaves (scheduled : Scheduled sent world turn) (uncovered : ¬ Covered prims sent world turn) :
    ∃ message ∈ sent, ∃ later, turn.now ≤ later ∧ controlEffect prims world turn = [(message.key, timestamp turn.now)] ∧
      message.authentic prims (poolStep prims world turn).manager.node.nodeId = true ∧ message.fresh later = true ∧
      Droppable later message.key (poolStep prims world turn).manager.node.removalReplays := by
  obtain ⟨node, step⟩ := step_replays prims
  rw [node]
  cases step with
  | quiet silent swept =>
    refine absurd (fun entry member => ?_) uncovered
    rw [silent] at member
    cases member
  | effect message carried up accepted noted table =>
    obtain ⟨authentic, fresh, missing⟩ := accepted_iff.mp accepted
    rcases table with same | inserted
    · -- The key never reached the disk: the message itself may come again at once.
      refine ⟨message, scheduled.2 message carried, turn.now, le_refl _, noted, authentic, fresh, ?_⟩
      intro seen found
      rw [same, missing] at found
      cases found
    have recorded : (poolStep prims world turn).manager.node.removalReplays.lookup message.key =
        some (timestamp turn.now) := by rw [inserted, AList.lookup_insert]
    by_contra none
    refine uncovered fun entry member => ?_
    rw [noted, mem_singleton] at member
    subst member
    refine ⟨recorded, fun other known genuine same => ?_⟩
    by_contra late
    obtain ⟨later, after, stillFresh, dropped⟩ := late_date_outlives (not_le.mp late)
    refine none ⟨other, known, later, after, same ▸ noted, genuine, stillFresh, fun seen found => ?_⟩
    rw [same, recorded] at found
    cases found
    exact dropped

theorem uncovered_repeats {start : PoolWorld} {before : List PoolTurn}
    (scheduled : RunMeets (poolStep prims) (Scheduled sent) start (before ++ [turn]))
    (uncovered : ¬ Covered prims sent (run (poolStep prims) start before) turn) :
    ∃ turns, RunMeets (poolStep prims) (Scheduled sent) start turns ∧ ¬ NeverTwice prims sent start turns := by
  have last := ((run_meets_append (Scheduled sent) start before [turn]).mp scheduled).2.1
  obtain ⟨message, known, later, ordered, noted, authentic, fresh, droppable⟩ :=
    uncovered_leaves prims sent last uncovered
  have clock := step_clock prims (run (poolStep prims) start before) turn
  have again := redelivery_takes_effect prims authentic fresh droppable
  have reached : run (poolStep prims) start (before ++ [turn]) = poolStep prims (run (poolStep prims) start before) turn :=
    run_append
  have carried : message.event.message = some message := by cases message <;> rfl
  refine ⟨(before ++ [turn]) ++ [⟨turn.now, .restart, []⟩, ⟨later, .replaySweep, []⟩, ⟨later, message.event, []⟩], ?_, ?_⟩
  · rw [run_meets_append]
    refine ⟨scheduled, ⟨?_, ?_⟩, ⟨?_, ?_⟩, ⟨?_, ?_⟩, trivial⟩
    · rw [reached, clock]
    · exact fun other member => absurd member (by simp [PoolEvent.message])
    · rw [step_clock]
      exact ordered
    · exact fun other member => absurd member (by simp [PoolEvent.message])
    · rw [step_clock]
    · intro other member
      rw [carried, mem_some_iff] at member
      exact member ▸ known
  intro once
  have twice : effects prims start ((before ++ [turn]) ++
      [⟨turn.now, .restart, []⟩, ⟨later, .replaySweep, []⟩, ⟨later, message.event, []⟩]) =
      (effects prims start before ++ [(message.key, timestamp turn.now)]) ++ [(message.key, timestamp later)] := by
    rw [effects, observed_append, observed_append, reached, ← again, ← clock]
    simp only [observed, noted, clock, append_nil, effects]
  have distinct := once.1
  rw [twice] at distinct
  simp only [map_append, map_singleton, nodup_append, mem_append, mem_singleton] at distinct
  exact distinct.2.2 message.key (.inr rfl) message.key rfl rfl

-- No message takes effect twice in a run that covers each message that does. In a
-- run that leaves one uncovered, the schedule can go on so that its key takes effect
-- again.
theorem control_messages_once (start : PoolWorld) (turns : List PoolTurn)
    (scheduled : RunMeets (poolStep prims) (Scheduled sent) start turns) :
    (RunMeets (poolStep prims) (Covered prims sent) start turns → NeverTwice prims sent start turns) ∧
      (¬ RunMeets (poolStep prims) (Covered prims sent) start turns →
        ∃ others, RunMeets (poolStep prims) (Scheduled sent) start others ∧ ¬ NeverTwice prims sent start others) := by
  constructor
  · intro covered
    have inv := held_run sent scheduled covered
    refine ⟨inv.distinct, fun message known authentic listed fresh => ?_⟩
    obtain ⟨second, found⟩ := held_entry sent inv (le_refl _) known authentic fresh listed
    rw [found]
    rfl
  · intro misses
    obtain ⟨before, turn, after, rfl, uncovered⟩ := run_misses (Covered prims sent) start misses
    have leading : before ++ turn :: after = (before ++ [turn]) ++ after := by simp
    rw [leading, run_meets_append] at scheduled
    exact uncovered_repeats prims sent scheduled.1 uncovered

end Results

def memberWorld : PoolWorld :=
  ⟨sampleManager (sampleNode (NodeId.ofByte 2) (some (samplePool (NodeId.ofByte 1) [] 0))), 0, false⟩

def removalSigned (date : DateTime) : ControlMessage :=
  .removal (createRemoval samplePrims (NodeId.ofByte 1) (NodeId.ofByte 1) (NodeId.ofByte 2) (Uuid.ofByte 7) date)

theorem control_messages_once_sample :
    RunMeets (poolStep samplePrims) (Covered samplePrims [removalSigned 0]) memberWorld
        [⟨0, (removalSigned 0).event, []⟩, ⟨300 * secondsNs, .restart, []⟩, ⟨300 * secondsNs, (removalSigned 0).event, []⟩] ∧
      NeverTwice samplePrims [removalSigned 0] memberWorld
        [⟨0, (removalSigned 0).event, []⟩, ⟨300 * secondsNs, .restart, []⟩, ⟨300 * secondsNs, (removalSigned 0).event, []⟩] :=
  ⟨by decide +kernel, (control_messages_once samplePrims [removalSigned 0] memberWorld _ (by decide +kernel)).1 (by decide +kernel)⟩

-- Dated 30 s ahead, which the skew allows, the removal outlives its own entry.
theorem skewed_removal_repeats :
    RunMeets (poolStep samplePrims) (Scheduled [removalSigned (30 * secondsNs)]) memberWorld
        [⟨0, (removalSigned (30 * secondsNs)).event, []⟩, ⟨301 * secondsNs, .replaySweep, []⟩,
          ⟨301 * secondsNs, (removalSigned (30 * secondsNs)).event, []⟩] ∧
      ¬ NeverTwice samplePrims [removalSigned (30 * secondsNs)] memberWorld
        [⟨0, (removalSigned (30 * secondsNs)).event, []⟩, ⟨301 * secondsNs, .replaySweep, []⟩,
          ⟨301 * secondsNs, (removalSigned (30 * secondsNs)).event, []⟩] :=
  ⟨by decide +kernel, fun once => absurd once.1 (by decide +kernel)⟩

end SwarmLlm.Pool
