import SwarmLlm.Pool.Frames
import SwarmLlm.Lib.Run

namespace SwarmLlm.Pool

open Lib List
open Lib.Prog

-- What a roster depends on: the node and its limit, and the pool in memory and on
-- disk.
structure Cells where
  nodeId : NodeId
  maxPoolSize : Nat
  memory : Option PoolState
  record : Option PoolState

def cells (node : PoolNode) : Cells := ⟨node.nodeId, node.maxPoolSize, node.poolState, node.poolStateRecord⟩

def ownPairs (me : NodeId) : Option PoolState → List (NodeId × Uuid)
  | none => []
  | some state => if state.poolId = me then (roster state.members).filter fun pair => pair.1 ≠ me else []

structure PairsSound (me : NodeId) (limit : Nat) (signed : List PoolInvitation) (pairs : List (NodeId × Uuid)) : Prop where
  distinct : (pairs.map Prod.fst).Nodup
  bounded : pairs.length ≤ limit
  invited : ∀ pair ∈ pairs, pair.1 ≠ me → ∃ invitation ∈ signed, invitation.id = pair.2 ∧ invitation.inviteeNodeId = pair.1

variable {signed : List PoolInvitation}

theorem pairs_sound_sublist {me : NodeId} {limit : Nat} {fewer pairs : List (NodeId × Uuid)}
    (sub : fewer.Sublist pairs) (sound : PairsSound me limit signed pairs) : PairsSound me limit signed fewer := by
  refine ⟨sound.distinct.sublist (sub.map Prod.fst), sub.length_le.trans sound.bounded, ?_⟩
  exact fun pair member => sound.invited pair (sub.subset member)

section Invariant

variable (prims : Primitives) (quiet : Prop) (me : NodeId) (limit : Nat)

-- A pool that may stand in memory or on disk. While every write lands, its
-- memberships of others lie in `base`.
structure Fits (base : List (NodeId × Uuid)) (signed : List PoolInvitation) (state : Option PoolState) : Prop where
  sound : ∀ own, state = some own → own.poolId = me → PairsSound me limit signed (roster own.members)
  inside : quiet → ownPairs me state ⊆ base

structure Past where
  pairs : List (NodeId × Uuid)
  signed : List PoolInvitation

def Past.nothing : Past := ⟨[], []⟩

def Past.join (past : Past) (pair : NodeId × Uuid) : Past := ⟨pair :: past.pairs, past.signed⟩

structure Half (past : Past) (signed : List PoolInvitation) (now : Cells) : Prop where
  owner : now.nodeId = me
  size : now.maxPoolSize = limit
  memory : Fits quiet me limit past.pairs signed now.memory
  record : Fits quiet me limit past.pairs signed now.record
  kept : past.signed ⊆ signed

-- Between handlers nothing is on disk that memory does not hold.
structure Whole (past : Past) (signed : List PoolInvitation) (now : Cells) : Prop
    extends Half quiet me limit past signed now where
  backed : quiet → ownPairs me now.record ⊆ ownPairs me now.memory

-- Each stored invitation is for the node itself or one that it signed. While every
-- write lands, none of the latter has been used.
def Issued (used : List Uuid) (signed : List PoolInvitation) (table : Table Uuid PoolInvitation) : Prop :=
  ∀ id invitation, table.lookup id = some invitation →
    invitation.id = id ∧ (invitation.inviteeNodeId = me ∨ invitation ∈ signed ∧ (quiet → id ∉ used))

structure Genuine (invitation : PoolInvitation) : Prop where
  pool : invitation.poolId = me
  signature : invitation.ownerSignature =
    prims.sign me (invitationPayload prims invitation.id me invitation.inviteeNodeId invitation.expiresAt)

structure Holds (used : List Uuid) (part : List PoolInvitation → Cells → Prop) (manager : PoolManager) : Prop where
  genuine : ∀ invitation ∈ manager.signed, Genuine prims me invitation
  pending : Issued quiet me used manager.signed manager.pendingInvitations
  tree : Issued quiet me used manager.signed manager.invitationTree
  node : part manager.signed (cells manager.node)

-- What is left of it once a write has failed or the process was cut off.
def Sound : PoolManager → Prop := Holds prims False me [] (Half False me limit Past.nothing)

end Invariant

section Pools

variable {quiet : Prop} {me : NodeId} {limit : Nat} {base : List (NodeId × Uuid)} {signed : List PoolInvitation}

theorem fits_none : Fits quiet me limit base signed none := by
  constructor
  · intro own found
    cases found
  · exact fun _ => nil_subset base

variable {id : Uuid} {fewer state : PoolState}

theorem fits_foreign (foreign : state.poolId ≠ me) : Fits quiet me limit base signed (some state) := by
  constructor
  · rintro own found mine
    cases found
    exact absurd mine foreign
  · intro _
    rw [ownPairs, if_neg foreign]
    exact nil_subset base

theorem own_pairs_subset (pool : fewer.poolId = state.poolId) (sub : (roster fewer.members).Sublist (roster state.members)) :
    ownPairs me (some fewer) ⊆ ownPairs me (some state) := by
  simp only [ownPairs]
  rw [pool]
  split
  · exact (sub.filter _).subset
  · exact List.Subset.refl _

theorem fits_shrink (fits : Fits quiet me limit base signed (some state)) (pool : fewer.poolId = state.poolId)
    (sub : (roster fewer.members).Sublist (roster state.members)) : Fits quiet me limit base signed (some fewer) := by
  constructor
  · rintro own found mine
    cases found
    exact pairs_sound_sublist sub (fits.sound state rfl (pool.symm.trans mine))
  · exact fun sure => List.Subset.trans (own_pairs_subset pool sub) (fits.inside sure)

theorem own_pairs_alone (alone : roster state.members = [(me, id)]) : ownPairs me (some state) = [] := by
  simp only [ownPairs]
  rw [alone]
  split
  · exact filter_eq_nil_iff.mpr fun pair member => by simp [mem_singleton.mp member]
  · rfl

theorem fits_alone (room : 1 ≤ limit) (alone : roster state.members = [(me, id)]) :
    Fits quiet me limit base signed (some state) := by
  constructor
  · rintro own found _
    cases found
    rw [alone]
    refine ⟨nodup_singleton _, room, ?_⟩
    intro pair member other
    rw [mem_singleton.mp member] at other
    exact absurd rfl other
  · intro _
    rw [own_pairs_alone alone]
    exact nil_subset base

theorem fits_mono {wider : List (NodeId × Uuid)} {more : List PoolInvitation} {state : Option PoolState} (within : base ⊆ wider)
    (kept : signed ⊆ more) (fits : Fits quiet me limit base signed state) : Fits quiet me limit wider more state := by
  constructor
  · intro own found mine
    have sound := fits.sound own found mine
    refine ⟨sound.distinct, sound.bounded, fun pair member other => ?_⟩
    obtain ⟨invitation, issued, matching⟩ := sound.invited pair member other
    exact ⟨invitation, kept issued, matching⟩
  · exact fun sure => List.Subset.trans (fits.inside sure) within

theorem fits_sound {state : Option PoolState} (fits : Fits quiet me limit base signed state) :
    Fits False me limit [] signed state := ⟨fits.sound, False.elim⟩

theorem fits_grow (grown state : PoolState) (pair : NodeId × Uuid) (fits : Fits quiet me limit base signed (some state))
    (pool : grown.poolId = state.poolId) (added : roster grown.members = roster state.members ++ [pair])
    (room : state.members.length < limit) (absent : pair.1 ∉ (roster state.members).map Prod.fst)
    (invited : pair.1 ≠ me → ∃ invitation ∈ signed, invitation.id = pair.2 ∧ invitation.inviteeNodeId = pair.1) :
    Fits quiet me limit (pair :: base) signed (some grown) := by
  constructor
  · rintro own found mine
    cases found
    have sound := fits.sound state rfl (pool.symm.trans mine)
    rw [added]
    constructor
    · rw [map_append, map_singleton]
      exact nodup_last sound.distinct absent
    · rw [length_append, length_singleton, roster, length_map]
      exact room
    · exact forall_concat sound.invited invited
  intro sure entry member
  have before := fits.inside sure
  simp only [ownPairs] at member before
  rw [pool, added] at member
  split at member
  · rename_i mine
    rw [if_pos mine] at before
    rw [filter_append] at member
    rcases mem_append.mp member with old | new
    · exact mem_cons_of_mem pair (before old)
    · exact mem_cons.mpr (.inl (mem_singleton.mp (mem_of_mem_filter new)))
  · cases member

end Pools

section Rules

variable {prims : Primitives} {quiet : Prop} {me : NodeId} {limit : Nat} {used : List Uuid}
  {past : Past} {R : Type}

theorem half_sound {now : Cells} (half : Half quiet me limit past signed now) : Half False me limit Past.nothing signed now :=
  ⟨half.owner, half.size, fits_sound half.memory, fits_sound half.record, nil_subset signed⟩

variable {prog : Prog PoolNode R} {table : Table Uuid PoolInvitation}

theorem issued_fewer {fewer : List Uuid} (sub : fewer ⊆ used)
    (issued : Issued quiet me used signed table) : Issued quiet me fewer signed table := by
  intro id invitation found
  obtain ⟨named, own | ⟨member, unused⟩⟩ := issued id invitation found
  · exact ⟨named, .inl own⟩
  · exact ⟨named, .inr ⟨member, fun sure listed => unused sure (sub listed)⟩⟩

theorem issued_sound (issued : Issued quiet me used signed table) : Issued False me [] signed table := by
  intro id invitation found
  obtain ⟨named, own | ⟨member, _⟩⟩ := issued id invitation found
  · exact ⟨named, .inl own⟩
  · exact ⟨named, .inr ⟨member, False.elim⟩⟩

theorem issued_insert {invitation : PoolInvitation} (issued : Issued quiet me used signed table)
    (new : invitation.inviteeNodeId = me ∨ invitation ∈ signed ∧ (quiet → invitation.id ∉ used)) :
    Issued quiet me used signed (table.insert invitation.id invitation) :=
  Table.forall_insert issued ⟨rfl, new⟩

theorem issued_erase (id : Uuid) (issued : Issued quiet me used signed table) :
    Issued quiet me (id :: used) signed (table.erase id) := by
  intro key invitation found
  obtain ⟨other, found⟩ := Table.lookup_erase_some found
  obtain ⟨named, own | ⟨member, unused⟩⟩ := issued key invitation found
  · exact ⟨named, .inl own⟩
  · refine ⟨named, .inr ⟨member, fun sure listed => ?_⟩⟩
    rcases mem_cons.mp listed with same | before
    · exact other same
    · exact unused sure before

theorem issued_loud {more : List Uuid} (loud : ¬ quiet)
    (issued : Issued quiet me used signed table) : Issued quiet me more signed table := by
  intro id invitation found
  obtain ⟨named, own | ⟨member, _⟩⟩ := issued id invitation found
  · exact ⟨named, .inl own⟩
  · exact ⟨named, .inr ⟨member, fun sure => absurd sure loud⟩⟩

variable {part : List PoolInvitation → Cells → Prop}

theorem holds_sound (halves : ∀ signed now, part signed now → Half quiet me limit past signed now) (manager : PoolManager)
    (holds : Holds prims quiet me used part manager) : Sound prims me limit manager :=
  ⟨holds.genuine, issued_sound holds.pending, issued_sound holds.tree, half_sound (halves _ _ holds.node)⟩

theorem holds_weaken {other : List PoolInvitation → Cells → Prop} (entails : ∀ signed now, part signed now → other signed now)
    (manager : PoolManager) (holds : Holds prims quiet me used part manager) : Holds prims quiet me used other manager :=
  { holds with node := entails _ _ holds.node }

def rosterView (manager : PoolManager) :
    List PoolInvitation × Table Uuid PoolInvitation × Table Uuid PoolInvitation × Cells :=
  (manager.signed, manager.pendingInvitations, manager.invitationTree, cells manager.node)

theorem roster_view_ignores : IgnoresBookkeeping rosterView := by
  constructor
  all_goals intros; rfl

theorem on_node_keeps_roster (keeps : prog.Keeps cells) : (onNode prog).Keeps rosterView := by
  refine keeps_zoom keeps fun manager node same => ?_
  simp only [rosterView, same]

theorem keeps_roster {prog : Prog PoolManager R} (keeps : prog.Keeps rosterView)
    (halves : ∀ signed now, part signed now → Half quiet me limit past signed now) :
    Triple quiet (Holds prims quiet me used part) prog (fun _ => Holds prims quiet me used part) (Sound prims me limit) := by
  refine triple_keeps keeps (fun before after same holds => ?_) (holds_sound halves)
  obtain ⟨signed, pending, tree, node⟩ : before.signed = after.signed ∧
      before.pendingInvitations = after.pendingInvitations ∧ before.invitationTree = after.invitationTree ∧
      cells before.node = cells after.node := by
    simpa only [rosterView, Prod.mk.injEq] using same
  constructor
  · exact signed ▸ holds.genuine
  · exact signed ▸ pending ▸ holds.pending
  · exact signed ▸ tree ▸ holds.tree
  · exact signed ▸ node ▸ holds.node

theorem on_node_triple {post : R → List PoolInvitation → Cells → Prop}
    (inner : ∀ signed, Triple quiet (fun node => part signed (cells node)) prog (fun value node => post value signed (cells node)) (fun node => Half False me limit Past.nothing signed (cells node))) :
    Triple quiet (Holds prims quiet me used part) (onNode prog) (fun value => Holds prims quiet me used (post value))
      (Sound prims me limit) := by
  refine triple_zoom fun manager holds => ?_
  refine triple_weaken (inner manager.signed) ?_ ?_ ?_
  · intro node same
    rw [same]
    exact holds.node
  · exact fun value node reached => { holds with node := reached }
  · exact fun node reached => ⟨holds.genuine, issued_sound holds.pending, issued_sound holds.tree, reached⟩

end Rules

end SwarmLlm.Pool
