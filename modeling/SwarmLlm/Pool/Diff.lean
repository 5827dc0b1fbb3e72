import SwarmLlm.Pool.Forgery

namespace SwarmLlm.Pool

open Lib List NodeId

variable (prims : Primitives) (first second owner : NodeId) (members : List PoolMembership)

theorem member_ids_roster : memberIds members = (roster members).map Prod.fst := by
  simp [memberIds, roster]

theorem sorted_roster_canonical {left right : List PoolMembership} (same : (roster left).Perm (roster right))
    (distinct : (memberIds left).Nodup) : roster (sortedMembers left) = roster (sortedMembers right) := by
  have sorted : ∀ members, roster (sortedMembers members) =
      (roster members).mergeSort fun left right => nodeLe left.1 right.1 := fun members => map_mergeSort fun _ _ _ _ => rfl
  rw [member_ids_roster] at distinct
  rw [sorted, sorted]
  refine sort_unique (fun entry : NodeId × Uuid => entry.1.bytes.toList) same fun first here second there equal => ?_
  exact inj_on_of_nodup_map distinct here there (congrArg mk (Vector.toList_inj.mp equal))

theorem member_bytes_roster :
    members.flatMap memberBytes = (roster members).flatMap fun entry => nodeBytes entry.1 ++ uuidBytes entry.2 := by
  rw [roster, flatMap_map]
  rfl

-- The receiver's copy of a pool agrees with the owner's on all that the diff
-- protocol carries; the order of the members does not count.
structure Mirrors (mine state : PoolState) : Prop where
  members : (roster mine.members).Perm (roster state.members)
  pins : mine.shardPins = state.shardPins
  split : mine.memberCreditSplitPct = state.memberCreditSplitPct
  credits : mine.totalLifetimeCredits = state.totalLifetimeCredits
  generation : mine.generation = state.generation

theorem mirror_checksum {mine state : PoolState} (pool : mine.poolId = state.poolId) (mirror : Mirrors mine state)
    (distinct : (memberIds state.members).Nodup) : poolStateChecksum prims mine = poolStateChecksum prims state := by
  have sorted := sorted_roster_canonical mirror.members.symm distinct
  have count : mine.members.length = state.members.length := by
    simpa [roster] using mirror.members.length_eq
  simp only [poolStateChecksum, checksumInput, member_bytes_roster, sorted, count, pool, mirror.generation, mirror.credits,
    mirror.split, mirror.pins]

theorem additions_append {added : List PoolMembership} (members : List PoolMembership) (distinct : (memberIds added).Nodup)
    (fresh : ∀ member ∈ added, member.nodeId ∉ memberIds members) :
    added.foldl (fun members added => if members.any fun member => member.nodeId = added.nodeId then members
      else members ++ [added]) members = members ++ added := by
  induction added generalizing members with
  | nil => simp
  | cons head tail ih =>
    have parts : head.nodeId ∉ memberIds tail ∧ (memberIds tail).Nodup := nodup_cons.mp distinct
    have absent : (members.any fun member => member.nodeId = head.nodeId) = false := by
      rw [any_eq_false]
      intro member listed same
      exact fresh head (by simp) (mem_map.mpr ⟨member, listed, of_decide_eq_true same⟩)
    rw [foldl_cons, absent, if_neg Bool.false_ne_true, ih (members ++ [head]) parts.2 ?_]
    · simp
    intro member listed present
    obtain ⟨other, inBoth, same⟩ := mem_map.mp present
    rcases mem_append.mp inBoth with inMembers | isHead
    · exact fresh member (by simp [listed]) (mem_map.mpr ⟨other, inMembers, same⟩)
    · rw [mem_singleton] at isHead
      exact parts.1 (mem_map.mpr ⟨member, listed, same.symm.trans (congrArg _ isHead)⟩)

variable (mine prev current : PoolState)

-- No member keeps its node id and changes its invitation.
def KeepsInvitations : Prop :=
  ∀ before ∈ prev.members, ∀ after ∈ current.members, before.nodeId = after.nodeId → before.invitationId = after.invitationId

theorem roster_nodup (distinct : (memberIds members).Nodup) : (roster members).Nodup := by
  rw [member_ids_roster] at distinct
  exact distinct.of_map _

def diffedMembers (base : List PoolMembership) (prev current : PoolState) : List PoolMembership :=
  base.filter (fun member => member.nodeId ∉ removedNodeIds prev current) ++ addedMembers prev current

section Diffed

variable {base : List PoolMembership} {prev : PoolState} (current : PoolState) (mirror : (roster base).Perm (roster prev.members))
  (prevDistinct : (memberIds prev.members).Nodup) (distinct : (memberIds current.members).Nodup)

include mirror

theorem mem_base_ids {id : NodeId} : id ∈ memberIds base ↔ id ∈ memberIds prev.members := by
  rw [member_ids_roster, member_ids_roster]
  exact (mirror.map Prod.fst).mem_iff

theorem mem_diffed_roster (entry : NodeId × Uuid) :
    entry ∈ roster (diffedMembers base prev current) ↔ (entry ∈ roster prev.members ∧ entry.1 ∈ memberIds current.members) ∨
        (entry ∈ roster current.members ∧ entry.1 ∉ memberIds prev.members) := by
  rw [diffedMembers, roster, map_append, mem_append]
  refine or_congr ?_ ?_
  · rw [← mirror.mem_iff]
    constructor
    · intro kept
      obtain ⟨member, listed, rfl⟩ := mem_map.mp kept
      obtain ⟨inBase, stays⟩ := mem_filter.mp listed
      have inPrev : member.nodeId ∈ memberIds prev.members :=
        (mem_base_ids mirror).mp (mem_map.mpr ⟨member, inBase, rfl⟩)
      refine ⟨mem_map.mpr ⟨member, inBase, rfl⟩, ?_⟩
      by_contra gone
      exact of_decide_eq_true stays (mem_filter.mpr ⟨inPrev, decide_eq_true gone⟩)
    · rintro ⟨inBase, stays⟩
      obtain ⟨member, listed, rfl⟩ := mem_map.mp inBase
      refine mem_map.mpr ⟨member, mem_filter.mpr ⟨listed, decide_eq_true fun removed => ?_⟩, rfl⟩
      exact of_decide_eq_true (mem_filter.mp removed).2 stays
  constructor
  · intro added
    obtain ⟨member, listed, rfl⟩ := mem_map.mp added
    obtain ⟨inCurrent, isNew⟩ := mem_filter.mp listed
    exact ⟨mem_map.mpr ⟨member, inCurrent, rfl⟩, of_decide_eq_true isNew⟩
  · rintro ⟨inCurrent, isNew⟩
    obtain ⟨member, listed, rfl⟩ := mem_map.mp inCurrent
    exact mem_map.mpr ⟨member, mem_filter.mpr ⟨listed, decide_eq_true isNew⟩, rfl⟩

include prevDistinct distinct

theorem diffed_ids_nodup : (memberIds (diffedMembers base prev current)).Nodup := by
  have baseDistinct : (memberIds base).Nodup := by
    rw [member_ids_roster] at prevDistinct ⊢
    exact (mirror.map Prod.fst).nodup_iff.mpr prevDistinct
  rw [diffedMembers, memberIds, map_append]
  refine List.Nodup.append (baseDistinct.sublist (filter_sublist.map _)) (distinct.sublist (filter_sublist.map _)) ?_
  intro id kept added
  obtain ⟨member, listed, rfl⟩ := mem_map.mp kept
  obtain ⟨other, isNew, same⟩ := mem_map.mp added
  have inPrev := (mem_base_ids mirror).mp
    (mem_map.mpr ⟨member, (mem_filter.mp listed).1, rfl⟩)
  exact of_decide_eq_true (mem_filter.mp isNew).2 (same ▸ inPrev)

theorem diffed_roster_iff :
    (roster (diffedMembers base prev current)).Perm (roster current.members) ↔ KeepsInvitations prev current := by
  have nodup := roster_nodup _ (diffed_ids_nodup current mirror prevDistinct distinct)
  have mapped : ((roster current.members).map Prod.fst).Nodup := by
    rw [← member_ids_roster]
    exact distinct
  rw [perm_ext_iff_of_nodup nodup (roster_nodup _ distinct)]
  constructor
  · intro same before inPrev after inCurrent sameId
    have kept := (same (before.nodeId, before.invitationId)).mp
      ((mem_diffed_roster current mirror _).mpr
        (Or.inl ⟨mem_map.mpr ⟨before, inPrev, rfl⟩, mem_map.mpr ⟨after, inCurrent, sameId.symm⟩⟩))
    have listed : (after.nodeId, after.invitationId) ∈ roster current.members := mem_map.mpr ⟨after, inCurrent, rfl⟩
    exact congrArg Prod.snd (inj_on_of_nodup_map mapped kept listed sameId)
  intro keeps entry
  rw [mem_diffed_roster current mirror]
  constructor
  · rintro (⟨inPrev, stays⟩ | ⟨inCurrent, _⟩)
    · obtain ⟨before, listed, rfl⟩ := mem_map.mp inPrev
      obtain ⟨after, inCurrent, sameId⟩ := mem_map.mp stays
      rw [keeps before listed after inCurrent sameId.symm]
      exact mem_map.mpr ⟨after, inCurrent, by rw [sameId]⟩
    · exact inCurrent
  intro inCurrent
  by_cases known : entry.1 ∈ memberIds prev.members
  · obtain ⟨after, listed, rfl⟩ := mem_map.mp inCurrent
    obtain ⟨before, inPrev, sameId⟩ := mem_map.mp known
    refine Or.inl ⟨mem_map.mpr ⟨before, inPrev, ?_⟩, mem_map.mpr ⟨after, listed, rfl⟩⟩
    rw [sameId, keeps before inPrev after listed sameId]
  · exact Or.inr ⟨inCurrent, known⟩

end Diffed

-- What an owner's own state satisfies: the creation signature, at most the allowed
-- number of members, each under one id and with a verifiable acceptance.
structure OwnerState (maxPoolSize : Nat) (poolId : PoolId) (state : PoolState) : Prop where
  pool : state.poolId = poolId
  signed : verifySig prims state.ownerSignature (poolCreatePayload prims state.poolId state.name state.createdAt) poolId = true
  sized : state.members.length ≤ maxPoolSize
  distinct : (memberIds state.members).Nodup
  verified : ∀ member ∈ state.members, memberVerified prims poolId member = true

structure OwnerStep where
  next : PoolState
  sentMs : Nat
  receivedMs : Nat

variable (node : PoolNode)

def MirrorsPool (state : PoolState) : Prop := ∃ mine, node.poolState = some mine ∧ Mirrors mine state

-- At every point of the owner's history the member holds the owner's state, and
-- every diff that is sent is accepted.
def TracksOwner (owner : NodeId) : PoolNode → PoolState → List OwnerStep → Prop
  | node, current, [] => MirrorsPool node current
  | node, current, step :: rest => MirrorsPool node current ∧
      match buildPoolStateDiff prims owner current step.next step.sentMs with
      | none => TracksOwner owner node step.next rest
      | some diff => (acceptDiff prims node diff step.receivedMs).isSome = true ∧
          TracksOwner owner (settled (handlePoolStateDiffGossip prims diff step.receivedMs) node) step.next rest

def Diffable (maxPoolSize : Nat) (prev current : PoolState) : Prop :=
  KeepsInvitations prev current ∧ if diffEmpty prev current then prev.generation = current.generation
    else prev.generation < current.generation ∧ (prev.shardPins ≠ current.shardPins → current.shardPins.length ≤ maxPoolSize * 8)

instance (maxPoolSize : Nat) (prev current : PoolState) : Decidable (Diffable maxPoolSize prev current) := by
  unfold Diffable KeepsInvitations
  infer_instance

def HistoryDiffable (maxPoolSize : Nat) : PoolState → List OwnerStep → Prop
  | _, [] => True
  | prev, step :: rest => Diffable maxPoolSize prev step.next ∧ HistoryDiffable maxPoolSize step.next rest

variable {current mine prev}

theorem apply_diff_members (sentMs : Nat)
    (mirror : (roster mine.members).Perm (roster prev.members)) (distinct : (memberIds current.members).Nodup) :
    (applyDiff mine (signedDiff prims owner prev current sentMs)).members = diffedMembers mine.members prev current := by
  simp only [applyDiff, signedDiff, diffedMembers]
  refine additions_append _ (distinct.sublist (filter_sublist.map _)) fun member added present => ?_
  obtain ⟨other, kept, same⟩ := mem_map.mp present
  have inPrev := (mem_base_ids mirror).mp
    (mem_map.mpr ⟨other, (mem_filter.mp kept).1, rfl⟩)
  exact of_decide_eq_true (mem_filter.mp added).2 (same ▸ inPrev)

theorem changed_getD {α : Type} [DecidableEq α] {old new : α} : (if old = new then none else some new).getD old = new := by
  split_ifs with same
  · exact same
  · rfl

theorem apply_diff_mirrors_iff (sentMs : Nat) (mirror : Mirrors mine prev)
    (prevDistinct : (memberIds prev.members).Nodup) (distinct : (memberIds current.members).Nodup) :
    Mirrors (applyDiff mine (signedDiff prims owner prev current sentMs)) current ↔ KeepsInvitations prev current := by
  have members := apply_diff_members prims owner sentMs mirror.members distinct
  have keeps := diffed_roster_iff current mirror.members prevDistinct distinct
  constructor
  · intro arrived
    have perm := arrived.members
    rw [members] at perm
    exact keeps.mp perm
  intro kept
  refine ⟨by rw [members]; exact keeps.mpr kept, ?_, ?_, ?_, rfl⟩
  · rw [applyDiff, mirror.pins]
    exact changed_getD
  · rw [applyDiff, mirror.split]
    exact changed_getD
  · rw [applyDiff, mirror.credits]
    exact changed_getD

theorem empty_diff_mirrors_iff (mirror : Mirrors mine prev)
    (prevDistinct : (memberIds prev.members).Nodup) (distinct : (memberIds current.members).Nodup)
    (empty : diffEmpty prev current = true) :
    Mirrors mine current ↔ KeepsInvitations prev current ∧ prev.generation = current.generation := by
  simp only [diffEmpty, Bool.and_eq_true, decide_eq_true_eq] at empty
  obtain ⟨⟨⟨⟨noneAdded, noneRemoved⟩, pins⟩, credits⟩, split⟩ := empty
  have unchanged : diffedMembers mine.members prev current = mine.members := by
    rw [diffedMembers, noneAdded, noneRemoved]
    simp
  have keeps := diffed_roster_iff current mirror.members prevDistinct distinct
  rw [unchanged] at keeps
  rw [← keeps, ← mirror.generation]
  exact ⟨fun arrived => ⟨arrived.members, arrived.generation⟩, fun arrived =>
    ⟨arrived.1, mirror.pins.trans pins, mirror.split.trans split, mirror.credits.trans credits, arrived.2⟩⟩

variable {diff : PoolStateDiff}

theorem accept_diff_iff {node : PoolNode} {nowMs : Nat} {base next : PoolState} (found : diffBase node diff.poolId = some base) :
    acceptDiff prims node diff nowMs = some next ↔
      (timestampFreshOneSided diff.timestampMs nowMs 300000 5000 = true ∧ prims.keyValid diff.poolId = true ∧
        verifySig prims diff.ownerSignature (poolStateDiffPayload prims diff.poolId diff.parentGeneration
          diff.newGeneration diff.stateChecksum diff.timestampMs) diff.poolId = true) ∧
      diff.parentGeneration < diff.newGeneration ∧
      (diff.addedMembers.length ≤ node.maxPoolSize ∧ diff.removedNodeIds.length ≤ node.maxPoolSize ∧
        ∀ pins ∈ diff.shardPins, pins.length ≤ node.maxPoolSize * 8) ∧
      (base.generation = diff.parentGeneration ∧ (applyDiff base diff).members.length ≤ node.maxPoolSize ∧
        poolStateChecksum prims (applyDiff base diff) = diff.stateChecksum ∧
        ∀ member ∈ diff.addedMembers, memberVerified prims diff.poolId member = true) ∧ applyDiff base diff = next := by
  simp only [acceptDiff, found, Option.ite_none_left_eq_some, Bool.not_eq_false, not_or, not_lt, not_le, ne_eq, not_not,
    all_eq_true, Option.any_eq_true, decide_eq_true_eq, not_exists, not_and, Option.some.injEq, Option.mem_def]
  tauto

section Accept

variable (node : PoolNode) (mine prev current : PoolState) {poolId : PoolId} (sentMs receivedMs : Nat)
  (member : node.poolState = some mine) (own : mine.poolId = poolId) (mirror : Mirrors mine prev)
  (prevState : OwnerState prims node.maxPoolSize poolId prev) (state : OwnerState prims node.maxPoolSize poolId current)
  (key : prims.keyValid poolId = true)
  (signs : ∀ payload, verifySig prims (prims.sign poolId payload) payload poolId = true)
  (timely : timestampFreshOneSided sentMs receivedMs 300000 5000 = true)

include member own state

variable {current mine prims}

theorem diff_base_mine : diffBase node (signedDiff prims poolId prev current sentMs).poolId = some mine := by
  simp only [diffBase, member, signedDiff, state.pool, own, if_true]

variable {receivedMs}

theorem accepted_diff_facts {next : PoolState}
    (accepted : acceptDiff prims node (signedDiff prims poolId prev current sentMs) receivedMs = some next) :
    next = applyDiff mine (signedDiff prims poolId prev current sentMs) ∧ prev.generation < current.generation ∧
      (prev.shardPins ≠ current.shardPins → current.shardPins.length ≤ node.maxPoolSize * 8) := by
  have base := diff_base_mine node prev sentMs member own state
  obtain ⟨_, advances, ⟨_, _, pins⟩, _, same⟩ := (accept_diff_iff prims base).mp accepted
  exact ⟨same.symm, advances, fun changed => pins _ (if_neg changed)⟩

include mirror prevState key signs timely

theorem accept_signed_diff (advances : prev.generation < current.generation)
    (pinned : prev.shardPins ≠ current.shardPins → current.shardPins.length ≤ node.maxPoolSize * 8)
    (keeps : KeepsInvitations prev current) :
    acceptDiff prims node (signedDiff prims poolId prev current sentMs) receivedMs =
      some (applyDiff mine (signedDiff prims poolId prev current sentMs)) := by
  have arrived := (apply_diff_mirrors_iff prims poolId sentMs mirror prevState.distinct state.distinct).mpr keeps
  rw [accept_diff_iff prims (diff_base_mine node prev sentMs member own state)]
  refine ⟨⟨timely, ?_, ?_⟩, advances, ⟨?_, ?_, ?_⟩, ⟨mirror.generation, ?_, ?_, ?_⟩, rfl⟩
  · simp only [signedDiff, state.pool, key]
  · simp only [signedDiff, state.pool, signs]
  · exact le_trans (length_filter_le _ _) state.sized
  · refine le_trans (length_filter_le _ _) ?_
    simpa only [memberIds, length_map] using prevState.sized
  · intro pins changed
    simp only [signedDiff, Option.mem_def, Option.ite_none_left_eq_some, Option.some.injEq] at changed
    exact changed.2 ▸ pinned changed.1
  · have count := arrived.members.length_eq
    simp only [roster, length_map] at count
    rw [count]
    exact state.sized
  · exact mirror_checksum prims (own.trans state.pool.symm) arrived state.distinct
  · intro added listed
    simp only [signedDiff, state.pool]
    exact state.verified added (mem_filter.mp listed).1

end Accept

theorem mirrors_merge_diff (me : NodeId) (mine next state : PoolState) :
    Mirrors (mergeDiff me mine next) state ↔ Mirrors next state := by
  constructor
  all_goals
    intro mirror
    refine { mirror with members := ?_ }
    simpa only [mergeDiff, roster_keep_own_device] using mirror.members

theorem diff_effect (next : PoolState) {receivedMs : Nat}
    (member : node.poolState = some mine) (own : mine.poolId = diff.poolId) (notOwner : diff.poolId ≠ node.nodeId)
    (accepted : acceptDiff prims node diff receivedMs = some next) :
    Replaced node (mergeDiff node.nodeId mine next) (settled (handlePoolStateDiffGossip prims diff receivedMs) node) := by
  refine Prog.wp_always (Replaced node (mergeDiff node.nodeId mine next)) ⟨node, []⟩ ?_
  simp only [handlePoolStateDiffGossip, Prog.wp_bind, Prog.wp_get, accepted, updateMine, member]
  rw [if_pos ⟨own, notOwner⟩]
  exact ⟨rfl, rfl, rfl⟩

theorem mirrors_pool_iff {state : PoolState} (member : node.poolState = some mine) :
    MirrorsPool node state ↔ Mirrors mine state := by
  simp only [MirrorsPool, member, Option.some.injEq, exists_eq_left']

theorem tracks_owner_iff {poolId : PoolId} (key : prims.keyValid poolId = true)
    (signs : ∀ payload, verifySig prims (prims.sign poolId payload) payload poolId = true) {steps : List OwnerStep}
    (node : PoolNode) (mine current : PoolState) (member : node.poolState = some mine) (own : mine.poolId = poolId)
    (notOwner : poolId ≠ node.nodeId) (state : OwnerState prims node.maxPoolSize poolId current)
    (states : ∀ step ∈ steps, OwnerState prims node.maxPoolSize poolId step.next)
    (timely : ∀ step ∈ steps, timestampFreshOneSided step.sentMs step.receivedMs 300000 5000 = true) :
    TracksOwner prims poolId node current steps ↔ Mirrors mine current ∧ HistoryDiffable node.maxPoolSize current steps := by
  induction steps generalizing node mine current with
  | nil =>
    rw [TracksOwner, HistoryDiffable, mirrors_pool_iff node member]
    exact (and_iff_left trivial).symm
  | cons step rest ih =>
    have nextState := states step (by simp)
    have restStates := fun other listed => states other (mem_cons_of_mem step listed)
    have restTimely := fun other listed => timely other (mem_cons_of_mem step listed)
    rw [TracksOwner, HistoryDiffable, mirrors_pool_iff node member]
    refine and_congr_right fun mirror => ?_
    cases empty : diffEmpty current step.next with
    | true =>
      simp only [buildPoolStateDiff, empty, if_true, Diffable]
      rw [ih node mine step.next member own notOwner nextState restStates restTimely,
        empty_diff_mirrors_iff mirror state.distinct nextState.distinct empty]
    | false =>
      have arrives := apply_diff_mirrors_iff prims poolId step.sentMs mirror state.distinct nextState.distinct
      have followed : ∀ next, acceptDiff prims node (signedDiff prims poolId current step.next step.sentMs) step.receivedMs = some next →
          (TracksOwner prims poolId (settled (handlePoolStateDiffGossip prims
            (signedDiff prims poolId current step.next step.sentMs) step.receivedMs) node) step.next rest ↔
            Mirrors next step.next ∧ HistoryDiffable node.maxPoolSize step.next rest) := by
        intro next found
        obtain ⟨sameNode, sameSize, after⟩ := diff_effect prims node next member (own.trans nextState.pool.symm) (nextState.pool.symm ▸ notOwner : step.next.poolId ≠ node.nodeId) found
        rw [ih _ _ step.next after own (by rw [sameNode]; exact notOwner) (by rw [sameSize]; exact nextState)
          (by rw [sameSize]; exact restStates) restTimely, mirrors_merge_diff, sameSize]
      simp only [buildPoolStateDiff, empty, if_false, Bool.false_eq_true, Diffable]
      constructor
      · rintro ⟨accepted, tracked⟩
        obtain ⟨next, found⟩ := Option.isSome_iff_exists.mp accepted
        obtain ⟨same, advances, pinned⟩ := accepted_diff_facts node current step.sentMs member own nextState found
        rw [followed next found, same, arrives] at tracked
        exact ⟨⟨tracked.1, advances, pinned⟩, tracked.2⟩
      rintro ⟨⟨keeps, advances, pinned⟩, restDiffable⟩
      have found := accept_signed_diff node current step.sentMs member own mirror state nextState key signs (timely step (by simp)) advances pinned keeps
      refine ⟨by rw [found]; rfl, ?_⟩
      rw [followed _ found, arrives]
      exact ⟨keeps, restDiffable⟩

theorem owner_gossip_accepted {maxPoolSize : Nat} {poolId : PoolId} {state : PoolState} (key : prims.keyValid poolId = true)
    (owner : OwnerState prims maxPoolSize poolId state) : acceptGossip prims maxPoolSize state = some state := by
  have kept : state.members.filter (memberVerified prims poolId) = state.members :=
    filter_eq_self.mpr owner.verified
  rw [acceptGossip, owner.pool, if_neg (by simp [key]),
    if_neg (by have := owner.signed; rw [owner.pool] at this; simp [this]), if_neg (not_lt.mpr owner.sized),
    if_neg (not_not.mpr (show (state.members.map PoolMembership.nodeId).Nodup from owner.distinct)), kept, ← owner.pool]

theorem diffs_converge_iff (mine first : PoolState) (poolId : PoolId) (steps : List OwnerStep)
    (member : node.poolState = some mine) (own : mine.poolId = poolId) (notOwner : poolId ≠ node.nodeId)
    (key : prims.keyValid poolId = true) (signs : ∀ payload, verifySig prims (prims.sign poolId payload) payload poolId = true)
    (start : OwnerState prims node.maxPoolSize poolId first)
    (states : ∀ step ∈ steps, OwnerState prims node.maxPoolSize poolId step.next)
    (timely : ∀ step ∈ steps, timestampFreshOneSided step.sentMs step.receivedMs 300000 5000 = true) :
    TracksOwner prims poolId (settled (handlePoolStateGossip prims first) node) first steps ↔
      (mine.generation = first.generation ∧ mine.shardPins = first.shardPins) ∧ HistoryDiffable node.maxPoolSize first steps := by
  obtain ⟨sameNode, sameSize, after⟩ := gossip_effect prims node mine first member (own ▸ notOwner)
  have merged : gossipResult prims node.nodeId node.maxPoolSize mine first = mergeGossip node.nodeId mine first := by
    rw [gossipResult, owner_gossip_accepted prims key start]
    exact if_pos (own.trans start.pool.symm)
  rw [merged] at after
  rw [tracks_owner_iff prims key signs _ _ first after own (by rw [sameNode]; exact notOwner) (by rw [sameSize]; exact start) (by rw [sameSize]; exact states) timely, sameSize]
  refine and_congr_left' ⟨fun mirror => ⟨mirror.generation, mirror.pins⟩, fun same => ?_⟩
  refine ⟨?_, same.2, rfl, rfl, same.1⟩
  simp only [mergeGossip, roster_keep_own_device]
  exact List.Perm.refl _

def sampleMembership (node : NodeId) : PoolMembership :=
  ⟨node, 0, 0, nodeBytes node ++ nodeBytes node, Uuid.ofByte 7, 0, none, none, true, none, 100⟩

def samplePoolAt (pct : UInt8) (generation : Nat) : PoolState :=
  { samplePool (ofByte 1) [sampleMembership (ofByte 1), sampleMembership (ofByte 2)] pct with
    generation := generation }

theorem sample_signs {node : NodeId} (payload : Bytes) :
    verifySig samplePrims (samplePrims.sign node payload) payload node = true := by
  simp [verifySig, samplePrims, nodeBytes]

theorem sample_owner_state {pct : UInt8} {generation : Nat} :
    OwnerState samplePrims 10 (ofByte 1) (samplePoolAt pct generation) where
  pool := rfl
  signed := sample_signs _
  sized := by
    show 2 ≤ 10
    decide
  distinct := by
    show [ofByte 1, ofByte 2].Nodup
    decide
  verified := by
    show ∀ member ∈ [sampleMembership (ofByte 1), sampleMembership (ofByte 2)],
      memberVerified samplePrims (ofByte 1) member = true
    decide +kernel

-- A device that joined holds generation 0, and the owner's gossip at generation 1
-- leaves that as it is. The owner's next diff starts from generation 1.
theorem first_diff_rejected :
    (acceptDiff samplePrims
        (settled (handlePoolStateGossip samplePrims (samplePoolAt 0 1))
          (sampleNode (ofByte 2) (some (samplePoolAt 0 0))))
        (signedDiff samplePrims (ofByte 1) (samplePoolAt 0 1) (samplePoolAt 50 2) 0) 0).isSome = false ∧
      ¬ TracksOwner samplePrims (ofByte 1)
        (settled (handlePoolStateGossip samplePrims (samplePoolAt 0 1))
          (sampleNode (ofByte 2) (some (samplePoolAt 0 0))))
        (samplePoolAt 0 1) [⟨samplePoolAt 50 2, 0, 0⟩] := by
  refine (and_iff_left_of_imp fun rejected tracks => ?_).mpr (by decide +kernel)
  have sent : diffEmpty (samplePoolAt 0 1) (samplePoolAt 50 2) = false := by decide +kernel
  simp only [TracksOwner, buildPoolStateDiff, sent, Bool.false_eq_true, if_false] at tracks
  exact absurd tracks.2.1 (by rw [rejected]; decide)

theorem diffs_converge_iff_sample :
    TracksOwner samplePrims (ofByte 1)
      (settled (handlePoolStateGossip samplePrims (samplePoolAt 0 3))
        (sampleNode (ofByte 2) (some (samplePoolAt 20 3))))
      (samplePoolAt 0 3) [⟨samplePoolAt 50 4, 0, 0⟩, ⟨samplePoolAt 50 4, 0, 0⟩, ⟨samplePoolAt 80 5, 0, 0⟩] :=
  (diffs_converge_iff samplePrims _ (samplePoolAt 20 3) (samplePoolAt 0 3) (ofByte 1) _ rfl rfl (by decide) rfl (sample_signs) (sample_owner_state)
    (by simp [sample_owner_state, sampleNode]) (by simp; decide)).mpr
    ⟨⟨rfl, rfl⟩, by decide +kernel, by decide +kernel, by decide +kernel, trivial⟩

end SwarmLlm.Pool
