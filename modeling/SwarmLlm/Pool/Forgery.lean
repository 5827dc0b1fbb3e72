import SwarmLlm.Pool.Gossip
import SwarmLlm.Lib.Run

namespace SwarmLlm.Pool

open Lib NodeId

variable (prims : Primitives)

-- What a member acts on: its share of the earnings, who is in the pool, and the
-- pool's credit total.
structure PoolView where
  splitPct : UInt8
  roster : List (NodeId × Uuid)
  credits : Int
  deriving DecidableEq

def PoolState.view (state : PoolState) : PoolView :=
  ⟨state.memberCreditSplitPct, roster state.members, state.totalLifetimeCredits⟩

variable (node : PoolNode) (me : NodeId) (maxPoolSize : Nat) (mine state : PoolState)

@[simp] theorem view_merge_gossip : (mergeGossip me mine state).view = state.view := by
  simp only [PoolState.view, mergeGossip, roster_keep_own_device]

-- The view a gossip message brings to a member of the pool, if it is let through.
def carriedView (poolId : PoolId) (maxPoolSize : Nat) (state : PoolState) : Option PoolView :=
  (acceptGossip prims maxPoolSize state).bind fun checked => if poolId = checked.poolId then some checked.view else none

def gossipResult (me : NodeId) (maxPoolSize : Nat) (mine state : PoolState) : PoolState :=
  match acceptGossip prims maxPoolSize state with
  | none => mine
  | some checked => if mine.poolId = checked.poolId then mergeGossip me mine checked else mine

theorem gossip_result_pool : (gossipResult prims me maxPoolSize mine state).poolId = mine.poolId := by
  rw [gossipResult]
  split
  · rfl
  · split <;> rfl

theorem gossip_result_view :
    (gossipResult prims me maxPoolSize mine state).view = (carriedView prims mine.poolId maxPoolSize state).getD mine.view := by
  rw [gossipResult, carriedView]
  cases acceptGossip prims maxPoolSize state with
  | none => rfl
  | some checked =>
    simp only [Option.bind_some]
    split
    · exact view_merge_gossip me mine checked
    · rfl

-- A member whose pool's state was replaced; nothing else the next message depends on moved.
def Replaced (node : PoolNode) (state : PoolState) (after : PoolNode) : Prop :=
  after.nodeId = node.nodeId ∧ after.maxPoolSize = node.maxPoolSize ∧ after.poolState = some state

-- All that full gossip does to a member: its own pool's state is replaced by the merge.
theorem gossip_effect (member : node.poolState = some mine) (notOwner : mine.poolId ≠ node.nodeId) :
    Replaced node (gossipResult prims node.nodeId node.maxPoolSize mine state) (settled (handlePoolStateGossip prims state) node) := by
  refine Prog.wp_always (Replaced node (gossipResult prims node.nodeId node.maxPoolSize mine state)) ⟨node, []⟩ ?_
  simp only [handlePoolStateGossip, Prog.wp_bind, Prog.wp_get, gossipResult]
  cases accepted : acceptGossip prims node.maxPoolSize state with
  | none => exact ⟨rfl, rfl, member⟩
  | some checked =>
    have registry : ∀ rest expected, Replaced node expected rest →
        (if node.poolRegistry.keys.length < maxPoolRegistry ∨ (node.poolRegistry.lookup checked.poolId).isSome then
          Prog.modify fun node => { node with poolRegistry := node.poolRegistry.insert checked.poolId checked }
        else pure ()).wp (fun _ after => Replaced node expected after.store) (Replaced node expected) ⟨rest, []⟩ := by
      intro rest expected holds
      split
      · exact holds
      · exact holds
    simp only [updateMine, Prog.wp_bind, Prog.wp_get, member]
    by_cases own : mine.poolId = checked.poolId
    · have both : mine.poolId = checked.poolId ∧ checked.poolId ≠ node.nodeId := ⟨own, own ▸ notOwner⟩
      rw [if_pos both, if_pos own]
      exact registry _ _ ⟨rfl, rfl, rfl⟩
    · rw [if_neg (fun both => own both.1), if_neg own]
      exact registry _ _ ⟨rfl, rfl, member⟩

-- `adopted` is ghost state: the view the member holds after each gossip message
-- it let through, oldest first.
structure GossipWorld where
  node : PoolNode
  adopted : List PoolView

def currentView (node : PoolNode) : Option PoolView := node.poolState.map PoolState.view

def letsThrough (node : PoolNode) (state : PoolState) : Bool :=
  (node.poolState.bind fun mine => carriedView prims mine.poolId node.maxPoolSize state).isSome

def gossipStep (world : GossipWorld) (state : PoolState) : GossipWorld :=
  let after := settled (handlePoolStateGossip prims state) world.node
  ⟨after, if letsThrough prims world.node state then world.adopted ++ (currentView after).toList else world.adopted⟩

theorem gossip_run (adopted : List PoolView) {messages : List PoolState} (member : node.poolState = some mine)
    (notOwner : mine.poolId ≠ node.nodeId) :
    (run (gossipStep prims) ⟨node, adopted⟩ messages).adopted =
        adopted ++ messages.filterMap (carriedView prims mine.poolId node.maxPoolSize) ∧
      currentView (run (gossipStep prims) ⟨node, adopted⟩ messages).node =
        some (((messages.filterMap (carriedView prims mine.poolId node.maxPoolSize)).getLast?).getD mine.view) := by
  induction messages generalizing node mine adopted with
  | nil => simp [currentView, member]
  | cons state rest ih =>
    obtain ⟨sameNode, sameSize, after⟩ := gossip_effect prims node mine state member notOwner
    have samePool := gossip_result_pool prims node.nodeId node.maxPoolSize mine state
    have view := gossip_result_view prims node.nodeId node.maxPoolSize mine state
    obtain ⟨log, current⟩ := ih _ _
      (if letsThrough prims node state then
        adopted ++ (currentView (settled (handlePoolStateGossip prims state) node)).toList else adopted)
      after (by rw [samePool, sameNode]; exact notOwner)
    rw [samePool, sameSize] at log current
    rw [run_cons, gossipStep, log, current]
    simp only [letsThrough, member, Option.bind_some, currentView, after, Option.map_some, view]
    cases carried : carriedView prims mine.poolId node.maxPoolSize state with
    | none => simp [carried]
    | some brought => simp [carried, List.getLast?_cons]

def FollowsOwner (published : List PoolState) (views : List PoolView) : Prop :=
  ∃ positions : List Nat, positions.Pairwise (· ≤ ·) ∧
    positions.map (fun position => (published[position]?).map PoolState.view) = views.map some

-- The member holds the view it adopted last (before the first adoption the one it
-- joined with), and its adoptions follow the owner's publications.
def OwnerViewsOnly (published : List PoolState) (joined : PoolView) (world : GossipWorld) : Prop :=
  currentView world.node = some (world.adopted.getLast?.getD joined) ∧ FollowsOwner published world.adopted

end SwarmLlm.Pool
