import SwarmLlm.Pool.Roster

namespace SwarmLlm.Pool

open Lib
open Lib.Prog

def At (quiet : Prop) (me : NodeId) (limit : Nat) (past : Past) (seen : Cells)
    (signed : List PoolInvitation) (now : Cells) : Prop := Whole quiet me limit past signed now ∧ now = seen

def Held (quiet : Prop) (me : NodeId) (limit : Nat) (past : Past) (seen : Cells)
    (signed : List PoolInvitation) (now : Cells) : Prop := Half quiet me limit past signed now ∧ now = seen

section Node

variable {prims : Primitives} {quiet : Prop} {me : NodeId} {limit : Nat} {past : Past}
  {signed : List PoolInvitation} {R : Type}

theorem whole_half (signed : List PoolInvitation) (now : Cells) (whole : Whole quiet me limit past signed now) :
    Half quiet me limit past signed now := whole.toHalf

variable {member : NodeId} {now : DateTime} (state : PoolState) {seen : Cells}

theorem at_half (signed : List PoolInvitation) (now : Cells) (standing : At quiet me limit past seen signed now) :
    Half quiet me limit past signed now := standing.1.toHalf

theorem half_loud {now : Cells} (loud : ¬ quiet) (half : Half quiet me limit past signed now) :
    Whole quiet me limit past signed now := ⟨half, fun sure => absurd sure loud⟩

theorem keeps_cells {prog : Prog PoolNode R} {part : List PoolInvitation → Cells → Prop} (keeps : prog.Keeps cells)
    (halves : ∀ signed now, part signed now → Half quiet me limit past signed now) :
    Triple quiet (fun node => part signed (cells node)) prog (fun _ node => part signed (cells node))
      (fun node => Half False me limit Past.nothing signed (cells node)) := by
  refine triple_keeps keeps (fun before after same holds => same ▸ holds) fun node holds => ?_
  exact half_sound (halves signed (cells node) holds)

theorem read_node : Triple quiet (fun node => Whole quiet me limit past signed (cells node)) Prog.get
    (fun read node => At quiet me limit past (cells read) signed (cells node))
    (fun node => Half False me limit Past.nothing signed (cells node)) := triple_get fun _ whole => ⟨whole, rfl⟩

theorem set_memory {state : Option PoolState}
    (fits : Half quiet me limit past signed seen → Fits quiet me limit past.pairs signed state) :
    Triple quiet (fun node => At quiet me limit past seen signed (cells node))
      (Prog.modify fun node => { node with poolState := state })
      (fun _ node => Held quiet me limit past { seen with memory := state } signed (cells node))
      (fun node => Half False me limit Past.nothing signed (cells node)) := by
  refine triple_modify fun node standing => ?_
  obtain ⟨⟨half, _⟩, rfl⟩ := standing
  exact ⟨{ half with memory := fits half }, rfl⟩

theorem persist_memory {state : Option PoolState} (same : seen.memory = state) :
    Triple quiet (fun node => Held quiet me limit past seen signed (cells node))
      (Prog.write fun node => { node with poolStateRecord := state })
      (fun _ node => Whole quiet me limit past signed (cells node))
      (fun node => Half False me limit Past.nothing signed (cells node)) := by
  have landed : ∀ node, Held quiet me limit past seen signed (cells node) →
      Whole quiet me limit past signed (cells { node with poolStateRecord := state }) := by
    rintro node ⟨half, rfl⟩
    refine ⟨{ half with record := same ▸ half.memory }, fun _ => ?_⟩
    exact same ▸ List.Subset.refl _
  refine triple_write landed ?_ ?_
  · exact fun loud _ node held => half_loud loud held.1
  · exact fun _ node held => ⟨half_sound held.1, half_sound (landed node held).toHalf⟩

theorem replace_state (state fewer : PoolState) (found : seen.memory = some state)
    (pool : fewer.poolId = state.poolId) (sub : (roster fewer.members).Sublist (roster state.members))
    {next : Except String Unit → Prog PoolNode R} {post : R → PoolNode → Prop}
    (rest : ∀ stored, Triple quiet (fun node => Whole quiet me limit past signed (cells node)) (next stored) post
      (fun node => Half False me limit Past.nothing signed (cells node))) :
    Triple quiet (fun node => At quiet me limit past seen signed (cells node))
      (do
        Prog.modify fun node => { node with poolState := some fewer }
        let stored ← persistPoolState fewer
        next stored)
      post (fun node => Half False me limit Past.nothing signed (cells node)) := by
  refine triple_bind _ (set_memory fun half => ?_) fun _ => ?_
  · exact fits_shrink (found ▸ half.memory) pool sub
  · exact triple_bind _ (persist_memory rfl) rest

def NodeSteady (quiet : Prop) (me : NodeId) (limit : Nat) (past : Past) (prog : Prog PoolNode Unit) : Prop :=
  ∀ signed, Triple quiet (fun node => Whole quiet me limit past signed (cells node)) prog
    (fun _ node => Whole quiet me limit past signed (cells node)) (fun node => Half False me limit Past.nothing signed (cells node))

theorem steady_at {prog : Prog PoolNode Unit} (steady : NodeSteady quiet me limit past prog) :
    Triple quiet (fun node => At quiet me limit past seen signed (cells node)) prog
      (fun _ node => Whole quiet me limit past signed (cells node)) (fun node => Half False me limit Past.nothing signed (cells node)) :=
  triple_before (steady signed) fun _ standing => standing.1

theorem roster_contribution (member : NodeId) (amount : Int) :
    roster (creditContribution state member amount).members = roster state.members :=
  roster_update_member fun _ => rfl

theorem credit_forward_steady {forward : PoolCreditForward} :
    NodeSteady quiet me limit past (handleCreditForward prims forward now) := by
  intro signed
  refine triple_bind _ read_node fun read => ?_
  refine triple_guard (fun _ standing => standing.1) fun _ => ?_
  refine triple_bind _ (keeps_cells (keeps_modify fun _ => rfl) at_half) fun _ => ?_
  refine triple_guard (fun _ standing => standing.1) fun _ => ?_
  refine triple_guard (fun _ standing => standing.1) fun _ => ?_
  refine triple_guard (fun _ standing => standing.1) fun _ => ?_
  split
  · exact triple_pure fun _ standing => standing.1
  rename_i cosigned _
  refine triple_bind _ (keeps_cells (apply_forward_keeps (fun _ _ => rfl) _ now) at_half) fun applied => ?_
  split
  · exact triple_pure fun _ standing => standing.1
  refine triple_bind _ (keeps_cells (keeps_write fun _ => rfl) at_half) fun _ => ?_
  cases found : read.poolState with
  | none =>
    refine triple_bind (fun _ node => Whole quiet me limit past signed (cells node)) (triple_modify ?_) fun _ =>
      keeps_cells (keeps_modify fun _ => rfl) whole_half
    rintro node ⟨whole, same⟩
    have memory : node.poolState = none := (congrArg Cells.memory same).trans found
    change Whole quiet me limit past signed { cells node with memory := none }
    rw [← memory]
    exact whole
  | some state =>
    refine replace_state state (creditContribution state cosigned.fromNodeId cosigned.amount) found rfl
      (by rw [roster_contribution]) fun _ => ?_
    exact keeps_cells (keeps_modify fun _ => rfl) whole_half

theorem update_mine_steady {poolId : PoolId} {merge : PoolState → PoolState}
    (pool : ∀ mine, (merge mine).poolId = mine.poolId) : NodeSteady quiet me limit past (updateMine poolId merge) := by
  intro signed
  refine triple_bind _ read_node fun read => ?_
  split
  · exact triple_pure fun _ standing => standing.1
  rename_i mine found
  split
  · rename_i foreign
    refine triple_bind _ (set_memory fun half => ?_) fun _ => ?_
    · refine fits_foreign ?_
      rw [pool, foreign.1, ← half.owner]
      exact foreign.2
    · exact triple_bind _ (persist_memory rfl) fun _ => triple_pure fun _ whole => whole
  · exact triple_pure fun _ standing => standing.1

theorem state_gossip_steady : NodeSteady quiet me limit past (handlePoolStateGossip prims state) := by
  intro signed
  refine triple_bind _ read_node fun read => ?_
  split
  · exact triple_pure fun _ standing => standing.1
  rename_i checked _
  refine triple_bind _ (steady_at (update_mine_steady fun _ => rfl)) fun _ => ?_
  split
  · exact keeps_cells (keeps_modify fun _ => rfl) whole_half
  · exact triple_pure fun _ whole => whole

theorem state_diff_steady {diff : PoolStateDiff} (nowMs : Nat) :
    NodeSteady quiet me limit past (handlePoolStateDiffGossip prims diff nowMs) := by
  intro signed
  refine triple_bind _ read_node fun read => ?_
  split
  · exact triple_pure fun _ standing => standing.1
  · rename_i next _
    refine triple_bind _ (steady_at (update_mine_steady fun _ => rfl)) fun _ => ?_
    exact keeps_cells (keeps_modify fun _ => rfl) whole_half

theorem removal_steady {removal : PoolRemoval} : NodeSteady quiet me limit past (handleInboundRemoval prims removal now) := by
  intro signed
  refine triple_bind _ read_node fun read => ?_
  refine triple_guard (fun _ standing => standing.1) fun _ => ?_
  refine triple_guard (fun _ standing => standing.1) fun _ => ?_
  refine triple_guard (fun _ standing => standing.1) fun _ => ?_
  refine triple_guard (fun _ standing => standing.1) fun _ => ?_
  refine triple_guard (fun _ standing => standing.1) fun _ => ?_
  refine triple_guard (fun _ standing => standing.1) fun _ => ?_
  refine triple_bind _ (set_memory fun _ => fits_none) fun _ => ?_
  refine triple_bind _ (persist_memory rfl) fun _ => ?_
  refine triple_bind _ (keeps_cells (keeps_modify fun _ => rfl) whole_half) fun _ => ?_
  exact triple_bind _ (keeps_cells (keeps_write fun _ => rfl) whole_half) fun _ => triple_pure fun _ whole => whole

theorem roster_drop_sublist {state : PoolState} :
    (roster (dropMember member state).members).Sublist (roster state.members) := List.filter_sublist.map _

theorem drop_and_persist_steady : NodeSteady quiet me limit past (dropAndPersist member) := by
  intro signed
  refine triple_bind _ read_node fun read => ?_
  split
  · exact triple_pure fun _ standing => standing.1
  rename_i state found
  split
  · exact replace_state state (dropMember member state) found rfl roster_drop_sublist fun _ => triple_pure fun _ whole => whole
  rename_i shorter
  have all : dropMember member state = state := by
    have kept := List.filter_sublist.eq_of_length_le (Nat.le_of_not_lt shorter)
    exact congrArg (fun members => { state with members := members }) kept
  refine triple_bind (fun _ node => Whole quiet me limit past signed (cells node)) (triple_modify ?_) fun _ =>
    triple_pure fun _ whole => whole
  rintro node ⟨whole, same⟩
  have memory : node.poolState = some state := (congrArg Cells.memory same).trans found
  change Whole quiet me limit past signed { cells node with memory := some (dropMember member state) }
  rw [all, ← memory]
  exact whole

theorem member_left_steady {notice : MemberLeft} : NodeSteady quiet me limit past (handleInboundMemberLeft prims notice now) := by
  intro signed
  refine triple_bind _ read_node fun read => ?_
  refine triple_guard (fun _ standing => standing.1) fun _ => ?_
  refine triple_bind _ (steady_at drop_and_persist_steady) fun _ => ?_
  exact triple_bind _ (keeps_cells (keeps_write fun _ => rfl) whole_half) fun _ => triple_pure fun _ whole => whole

end Node

section Manager

variable {prims : Primitives} {quiet : Prop} {me : NodeId} {limit : Nat} {used : List Uuid}
  {past : Past} {R : Type}

theorem read_manager : Triple quiet (Holds prims quiet me used (Whole quiet me limit past)) Prog.get
    (fun read => Holds prims quiet me used (At quiet me limit past (cells read.node))) (Sound prims me limit) :=
  triple_get fun _ holds => ⟨holds.genuine, holds.pending, holds.tree, holds.node, rfl⟩

variable {state : PoolState} {seen : Cells} (manager : PoolManager)

section

variable (holds : Holds prims quiet me used (At quiet me limit past seen) manager)

include holds

theorem holds_at :
    Holds prims quiet me used (Whole quiet me limit past) manager := holds_weaken (fun _ _ standing => standing.1) manager holds

theorem at_owner : seen.nodeId = me :=
  holds.node.2 ▸ holds.node.1.owner

end

theorem set_pool_state {state : Option PoolState}
    (fits : ∀ signed, Half quiet me limit past signed seen → Fits quiet me limit past.pairs signed state) :
    Triple quiet (Holds prims quiet me used (At quiet me limit past seen)) (setPoolState state)
      (fun _ => Holds prims quiet me used (Held quiet me limit past { seen with memory := state })) (Sound prims me limit) :=
  on_node_triple fun signed => set_memory (fits signed)

theorem persist_pool_state (same : seen.memory = some state) :
    Triple quiet (Holds prims quiet me used (Held quiet me limit past seen)) (onNode (persistPoolState state))
      (fun _ => Holds prims quiet me used (Whole quiet me limit past)) (Sound prims me limit) :=
  on_node_triple fun _ => persist_memory same

theorem replace_pool_state (state fewer : PoolState) (found : seen.memory = some state)
    (pool : fewer.poolId = state.poolId) (sub : (roster fewer.members).Sublist (roster state.members))
    (next : Except String Unit → Prog PoolManager R) {post : R → PoolManager → Prop}
    (rest : ∀ stored, Triple quiet (Holds prims quiet me used (Whole quiet me limit past)) (next stored) post
      (Sound prims me limit)) :
    Triple quiet (Holds prims quiet me used (At quiet me limit past seen))
      (do
        setPoolState (some fewer)
        let stored ← onNode (persistPoolState fewer)
        next stored)
      post (Sound prims me limit) := by
  refine triple_bind _ (set_pool_state fun signed half => ?_) fun _ => ?_
  · exact fits_shrink (found ▸ half.memory) pool sub
  · exact triple_bind _ (persist_pool_state rfl) rest

theorem redraw_pool_state {redrawn : PoolState} (found : seen.memory = some state)
    (pool : redrawn.poolId = state.poolId) (same : roster redrawn.members = roster state.members) :
    Triple quiet (Holds prims quiet me used (At quiet me limit past seen)) (setPoolState (some redrawn))
      (fun _ => Holds prims quiet me used (Whole quiet me limit past)) (Sound prims me limit) := by
  refine on_node_triple fun signed => triple_modify fun node standing => ?_
  obtain ⟨⟨half, backed⟩, rfl⟩ := standing
  have fits := fits_shrink (found ▸ half.memory) pool (by rw [same])
  refine ⟨{ half with memory := fits }, fun sure => ?_⟩
  refine List.Subset.trans (backed sure) ?_
  rw [found]
  exact own_pairs_subset pool.symm (by rw [same])

theorem record_empty {state : Option PoolState} (fits : ∀ signed, Fits quiet me limit past.pairs signed state)
    (empty : ownPairs me state = []) :
    Triple quiet (Holds prims quiet me used (Whole quiet me limit past))
      (onNode (Prog.write fun node => { node with poolStateRecord := state }))
      (fun stored => Holds prims quiet me used fun signed now =>
        Whole quiet me limit past signed now ∧ (stored = .ok () → now.record = state)) (Sound prims me limit) := by
  refine on_node_triple fun signed => ?_
  have landed : ∀ node, Whole quiet me limit past signed (cells node) →
      Whole quiet me limit past signed (cells { node with poolStateRecord := state }) := by
    intro node whole
    refine ⟨{ whole with record := fits signed }, fun _ => ?_⟩
    change ownPairs me state ⊆ _
    rw [empty]
    exact List.nil_subset _
  apply triple_write
  · exact fun node whole => ⟨landed node whole, fun _ => rfl⟩
  · exact fun _ error node whole => ⟨whole, fun impossible => nomatch impossible⟩
  · exact fun _ node whole => ⟨half_sound whole.toHalf, half_sound (landed node whole).toHalf⟩

theorem memory_follows {state : Option PoolState} {change : PoolNode → PoolNode}
    (memory : ∀ node, cells (change node) = { cells node with memory := state }) :
    Triple quiet (Holds prims quiet me used fun signed now =>
        Whole quiet me limit past signed now ∧ ((.ok () : Except String Unit) = .ok () → now.record = state))
      (onNode (Prog.modify change)) (fun _ => Holds prims quiet me used (Whole quiet me limit past)) (Sound prims me limit) := by
  refine on_node_triple fun signed => triple_modify fun node reached => ?_
  obtain ⟨whole, recorded⟩ := reached
  have same : (cells node).record = state := recorded rfl
  rw [memory node]
  refine ⟨{ whole with memory := same ▸ whole.record }, fun _ => ?_⟩
  change ownPairs me (cells node).record ⊆ ownPairs me state
  rw [same]
  exact List.Subset.refl _

end Manager

end SwarmLlm.Pool
