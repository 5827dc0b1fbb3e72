import SwarmLlm.Pool.Diff

namespace SwarmLlm.Pool

open Lib List

variable (prims : Primitives)

structure PoolModelAvailability where
  poolId : PoolId
  modelIds : List String
  timestampMs : UInt64

def PoolModelAvailability.joinedIds (announced : PoolModelAvailability) : Bytes :=
  (announced.modelIds.mergeSort fun left right => decide (utf8 left ≤ utf8 right)).flatMap utf8

def poolModelAvailabilityPayload (announced : PoolModelAvailability) : Bytes :=
  prims.blake3 (utf8 "pool_model_avail_v1" ++ nodeBytes announced.poolId ++ leBytes 4 announced.modelIds.length ++
    announced.joinedIds ++ leBytes 8 announced.timestampMs.toNat)

-- The length of an id is not hashed: what two announcements with one payload share is the ids run together.
structure AnnouncedAlike (first second : PoolModelAvailability) : Prop where
  pool : first.poolId = second.poolId
  count : leBytes 4 first.modelIds.length = leBytes 4 second.modelIds.length
  joined : first.joinedIds = second.joinedIds
  time : first.timestampMs = second.timestampMs

-- Nor is the length of a pinned model's id; the members have a fixed width, their count only 32 bits.
structure HashedAlike (first second : PoolState) : Prop where
  pool : first.poolId = second.poolId
  generation : leBytes 8 first.generation = leBytes 8 second.generation
  credits : leBytesI64 first.totalLifetimeCredits = leBytesI64 second.totalLifetimeCredits
  split : first.memberCreditSplitPct = second.memberCreditSplitPct
  count : leBytes 4 first.members.length = leBytes 4 second.members.length
  lists : (sortedMembers first.members).flatMap memberBytes ++ (leBytes 4 first.shardPins.length ++
      (first.shardPins.mergeSort pinLe).flatMap pinBytes) =
    (sortedMembers second.members).flatMap memberBytes ++ (leBytes 4 second.shardPins.length ++
      (second.shardPins.mergeSort pinLe).flatMap pinBytes)

variable {prims} (hashes : Function.Injective prims.blake3)

@[simp] theorem length_node_bytes (node : NodeId) : (nodeBytes node).length = 32 := by simp [nodeBytes]

@[simp] theorem length_uuid_bytes (id : Uuid) : (uuidBytes id).length = 16 := by simp [uuidBytes]

theorem node_bytes_inj {first second : NodeId} (same : nodeBytes first = nodeBytes second) : first = second := by
  cases first
  cases second
  exact congrArg NodeId.mk (Vector.toList_inj.mp same)

theorem uuid_bytes_inj {first second : Uuid} (same : uuidBytes first = uuidBytes second) : first = second := by
  cases first
  cases second
  exact congrArg Uuid.mk (Vector.toList_inj.mp same)

include hashes in
theorem availability_payload_eq_iff {first second : PoolModelAvailability} :
    poolModelAvailabilityPayload prims first = poolModelAvailabilityPayload prims second ↔ AnnouncedAlike first second := by
  constructor
  · intro same
    obtain ⟨body, time⟩ := append_inj' (hashes same) (by simp)
    obtain ⟨head, joined⟩ := append_inj body (by simp)
    obtain ⟨named, count⟩ := append_inj head (by simp)
    exact ⟨node_bytes_inj (append_cancel_left named), count, joined, le_bytes_u64_inj time⟩
  · intro alike
    simp only [poolModelAvailabilityPayload, alike.pool, alike.count, alike.joined, alike.time]

include hashes in
theorem checksum_eq_iff {first second : PoolState} :
    poolStateChecksum prims first = poolStateChecksum prims second ↔ HashedAlike first second := by
  constructor
  · intro same
    have input := hashes same
    simp only [checksumInput, append_assoc, append_cancel_left_eq] at input
    obtain ⟨pool, input⟩ := append_inj input (by simp)
    obtain ⟨generation, input⟩ := append_inj input (by simp)
    obtain ⟨credits, input⟩ := append_inj input (by simp [leBytesI64])
    obtain ⟨split, input⟩ := append_inj input rfl
    obtain ⟨count, lists⟩ := append_inj input (by simp)
    exact ⟨node_bytes_inj pool, generation, credits, singleton_inj.mp split, count, lists⟩
  · intro alike
    simp only [poolStateChecksum, checksumInput, append_assoc, alike.pool, alike.generation, alike.credits, alike.split,
      alike.count, alike.lists]

theorem member_entry_splits (first second : NodeId × Uuid) (rest others : Bytes) (_ : True)
    (same : nodeBytes first.1 ++ uuidBytes first.2 ++ rest = nodeBytes second.1 ++ uuidBytes second.2 ++ others) :
    first = second ∧ rest = others := by
  obtain ⟨entry, ends⟩ := append_inj same (by simp)
  obtain ⟨node, id⟩ := append_inj entry (by simp)
  exact ⟨Prod.ext (node_bytes_inj node) (uuid_bytes_inj id), ends⟩

theorem hashed_rosters_agree {first second : PoolState} (alike : HashedAlike first second)
    (firstFits : first.members.length < 2 ^ 32) (secondFits : second.members.length < 2 ^ 32) :
    (roster first.members).Perm (roster second.members) := by
  have count : (roster (sortedMembers first.members)).length = (roster (sortedMembers second.members)).length := by
    simpa [roster, sortedMembers] using le_bytes_inj firstFits secondFits alike.count
  have lists := alike.lists
  rw [member_bytes_roster, member_bytes_roster] at lists
  have same := (flat_map_splits member_entry_splits (forall₂_iff_get.mpr ⟨count, fun _ _ _ => trivial⟩) lists).1
  have firstPerm : (roster (sortedMembers first.members)).Perm (roster first.members) := (mergeSort_perm _ _).map _
  exact firstPerm.symm.trans (same ▸ (mergeSort_perm second.members _).map _)

def announced (modelIds : List String) : PoolModelAvailability := ⟨⟨.replicate 32 0⟩, modelIds, 0⟩

theorem joined_payload : poolModelAvailabilityPayload samplePrims (announced ["ab", "c"]) =
    poolModelAvailabilityPayload samplePrims (announced ["a", "bc"]) := by
  have joined : (announced ["ab", "c"]).joinedIds = (announced ["a", "bc"]).joinedIds := by
    rw [PoolModelAvailability.joinedIds, PoolModelAvailability.joinedIds, announced, announced,
      mergeSort_of_pairwise (by decide), mergeSort_of_pairwise (by decide)]
    decide
  rw [poolModelAvailabilityPayload, poolModelAvailabilityPayload, joined]
  rfl

end SwarmLlm.Pool
