import SwarmLlm.Inference.PrefixCache
import SwarmLlm.Lib.Run

namespace SwarmLlm.Inference

open Lib PrefixCache List

variable {P : Type}

def PrefixCache.All (Good : String → Entry P → Prop) (cache : PrefixCache P) : Prop :=
  ∀ model, ∀ entry ∈ cache.bucket model, Good model entry

def TableAll (Good : String → Entry P → Prop) (perModel : Table String (List (Entry P))) : Prop :=
  ∀ model bucket, perModel.lookup model = some bucket → ∀ entry ∈ bucket, Good model entry

variable {entries : List (Entry P)} {perModel : Table String (List (Entry P))} {cache : PrefixCache P}
  (cfg : PrefixConfig) {model : String}

variable {Good : String → Entry P → Prop}

theorem all_iff_table : cache.All Good ↔ TableAll Good cache.perModel := by
  constructor
  · intro all model bucket found entry member
    refine all model entry ?_
    rw [PrefixCache.bucket, found]
    exact member
  intro all model entry member
  rw [PrefixCache.bucket] at member
  cases found : cache.perModel.lookup model with
  | none =>
    rw [found] at member
    cases member
  | some bucket =>
    rw [found] at member
    exact all model bucket found entry member

variable {bucket : List (Entry P)}

theorem table_all_insert (all : TableAll Good perModel)
    (good : ∀ entry ∈ bucket, Good model entry) : TableAll Good (perModel.insert model bucket) :=
  Table.forall_insert all good

theorem table_all_erase (all : TableAll Good perModel) : TableAll Good (perModel.erase model) :=
  fun other found lookedUp => all other found (Table.lookup_erase_some lookedUp).2

theorem set_bucket_all {clock : Nat} (all : cache.All Good)
    (good : ∀ entry ∈ entries, Good model entry) : PrefixCache.All Good { cache.setBucket model entries with clock := clock } :=
  all_iff_table.mpr (table_all_insert (all_iff_table.mp all) good)

theorem mem_by_last_hit {entry : Entry P} : entry ∈ byLastHit entries ↔ entry ∈ entries :=
  (perm_insertionSort _ entries).mem_iff

theorem drop_oldest_subset {incoming : Nat} (total : Nat) : (dropOldest cfg incoming total entries).2 ⊆ entries := by
  induction entries generalizing total with
  | nil => exact List.Subset.refl _
  | cons oldest rest ih =>
    rw [dropOldest]
    split
    · exact List.Subset.trans (ih _) (subset_cons_self oldest rest)
    · exact List.Subset.refl _

theorem drop_over_bytes_subset (maxBytes total : Nat) : dropOverBytes maxBytes total entries ⊆ entries := by
  induction entries generalizing total with
  | nil => exact List.Subset.refl _
  | cons oldest rest ih =>
    cases rest with
    | nil => exact List.Subset.refl _
    | cons next rest =>
      rw [dropOverBytes]
      split
      · exact List.Subset.trans (ih _) (subset_cons_self oldest _)
      · exact List.Subset.refl _

theorem evict_over_count_subset (bucket : List (Entry P)) : evictOverCount cfg bucket ⊆ bucket := by
  rw [evictOverCount]
  split
  · intro entry member
    exact mem_by_last_hit.mp (mem_of_mem_drop member)
  · exact List.Subset.refl _

theorem evict_over_caps_subset : evictOverCaps cfg bucket ⊆ bucket := by
  have counted := evict_over_count_subset cfg bucket
  rw [evictOverCaps]
  split
  · intro entry member
    exact counted (mem_by_last_hit.mp (drop_over_bytes_subset _ _ member))
  · exact counted

theorem make_room_in_subset {cfg : PrefixConfig} {superseded : Entry P → Bool} {incoming : Nat} :
    (makeRoomIn cfg bucket superseded incoming).2 ⊆ bucket := by
  intro entry member
  have left := mem_by_last_hit.mp (drop_oldest_subset cfg _ member)
  exact mem_of_mem_filter left

def WholeBlocks (blockTokens : UInt32) (keys : List BlockKey) (n : Nat) : Prop :=
  n / blockTokens.toNat * blockTokens.toNat = n ∧ n / blockTokens.toNat ≤ keys.length

theorem whole_blocks {blockTokens : UInt32} {keys : List BlockKey} (n : Nat) (positive : 0 < blockTokens.toNat)
    (within : n ≤ keys.length * blockTokens.toNat) : WholeBlocks blockTokens keys (n / blockTokens.toNat * blockTokens.toNat) := by
  rw [WholeBlocks, Nat.mul_div_cancel _ positive]
  exact ⟨rfl, Nat.div_le_of_le_mul (by rwa [mul_comm])⟩

variable {cache : PrefixCache P}

section Keeping

variable (Good : String → Entry P → Prop)

variable {Good} {index : Nat}

theorem without_entry_all (all : TableAll Good perModel) : TableAll Good (withoutEntry perModel model index) := by
  rw [withoutEntry]
  split
  · exact table_all_erase all
  refine table_all_insert all ?_
  intro entry member
  have before := mem_of_mem_eraseIdx member
  cases found : perModel.lookup model with
  | none =>
    rw [found] at before
    cases before
  | some bucket =>
    rw [found] at before
    exact all model bucket found entry before

variable {home : SnapshotHome}

theorem take_oldest_all {needed : Nat} {fuel : Nat} (freed : Nat) (perModel : Table String (List (Entry P)))
    (all : TableAll Good perModel) : TableAll Good (takeOldest needed home fuel freed perModel).2 := by
  induction fuel generalizing freed perModel with
  | zero => exact all
  | succ fuel ih =>
    rw [takeOldest]
    split
    · exact all
    · split
      · exact all
      · split
        · exact all
        · exact ih _ _ (without_entry_all all)

variable {narrowFails copyFails : Bool} {kvStore : KvCacheStore P} {room : SnapshotRoom} {planned : LetGo} {whole : Nat}
  {prompt tokens : List UInt32} {keys : List BlockKey} {blockTokens : UInt32} {cfg : PrefixConfig}
  {request model : String} {cache : PrefixCache P}

theorem release_all {needed : Nat} (all : cache.All Good) : (cache.release needed home).2.All Good :=
  all_iff_table.mpr (take_oldest_all _ _ (all_iff_table.mp all))

theorem make_room_all (cfg : PrefixConfig) (model : String) (superseded : Entry P → Bool) (incoming : Nat)
    (room : SnapshotRoom) (all : cache.All Good) : (cache.makeRoom cfg model superseded incoming room).2.All Good := by
  have table := all_iff_table.mp all
  have before : TableAll Good (makeRoomForModel cfg cache model superseded incoming).2 := by
    rw [makeRoomForModel]
    split
    · exact table
    rename_i bucket found
    have here : cache.perModel.lookup model = some bucket := by
      split at found
      · cases found
      · exact found
    dsimp only
    split
    · exact table_all_erase table
    · refine table_all_insert table ?_
      exact fun entry member => table model bucket here entry (make_room_in_subset member)
  rw [makeRoom]
  dsimp only
  split
  · exact all_iff_table.mpr (take_oldest_all _ _ before)
  · exact all_iff_table.mpr before

variable (stable : ∀ model entry tick, Good model entry → Good model { entry with lastHit := tick })

include stable

theorem hit_all (all : cache.All Good) : (cache.hit model index).All Good := by
  refine set_bucket_all all ?_
  intro entry member
  rw [mem_iff_getElem?] at member
  obtain ⟨i, found⟩ := member
  rw [getElem?_modify] at found
  obtain ⟨old, held, rfl⟩ := Option.map_eq_some_iff.mp found
  have good := all model old (mem_of_getElem? held)
  split
  · exact stable model old _ good
  · exact good

theorem covered_tokens_all {len : Nat} {covered : List PrefixBlockEntry × PrefixCache P} (all : cache.All Good)
    (found : cache.coveredByTokens cfg model tokens len = some covered) : covered.2.All Good := by
  obtain ⟨index, _, made⟩ := Option.bind_eq_some_iff.mp found
  cases made
  exact hit_all stable all

theorem covered_chain_all {chain : List BlockKey} {positions : Nat} {covered : UInt32 × PrefixCache P} (all : cache.All Good)
    (found : cache.coveredByChain model chain blockTokens positions = some covered) : covered.2.All Good := by
  obtain ⟨index, _, made⟩ := Option.bind_eq_some_iff.mp found
  cases made
  exact hit_all stable all

variable (Good)

def Planned {A : Type} (enough : Nat → Prop) : Except (A × PrefixCache P) (Nat × SnapshotRoom) → Prop
  | .error answered => answered.2.All Good
  | .ok plan => enough plan.1

variable {Good} {held : HeldCache}

theorem fit_tokens_planned (all : cache.All Good) (within : whole ≤ prompt.length) :
    Planned Good (· ≤ prompt.length) (fitTokens cfg cache model held prompt whole planned room) := by
  have fits : min whole room.maxPositions ≤ prompt.length := le_trans (min_le_left _ _) within
  rw [fitTokens]
  dsimp only
  split
  · exact all
  split
  · exact all
  split
  · exact all
  split
  · split
    · rename_i covered found
      exact covered_tokens_all stable all found
    · split
      · exact all
      · exact fits
  · exact fits

theorem plan_tokens_planned (cfg : PrefixConfig) (model : String) (held : HeldCache)
    (prompt : List UInt32) (room : LetGo → SnapshotRoom) (all : cache.All Good) :
    Planned Good (· ≤ prompt.length) (planTokens cfg cache model held prompt room) := by
  rw [planTokens]
  dsimp only
  split
  · exact all
  · split
    · rename_i covered found
      exact covered_tokens_all stable all found
    · refine fit_tokens_planned stable all ?_
      exact le_trans (min_le_left _ _) (min_le_right _ _)

theorem fit_chain_planned (all : cache.All Good) (positive : 0 < blockTokens.toNat)
    (within : whole ≤ keys.length * blockTokens.toNat) :
    Planned Good (WholeBlocks blockTokens keys) (fitChain cfg cache model held blockTokens keys whole planned room) := by
  have fits := whole_blocks (min whole room.maxPositions) positive (le_trans (min_le_left _ _) within)
  rw [fitChain]
  dsimp only
  split
  · exact all
  split
  · exact all
  split
  · split
    · rename_i covered found
      exact covered_chain_all stable all found
    · split
      · exact all
      · exact fits
  · exact fits

theorem plan_chain_planned (cfg : PrefixConfig) (model : String) (held : HeldCache)
    (keys : List BlockKey) (room : LetGo → SnapshotRoom) (all : cache.All Good) (positive : 0 < blockTokens.toNat) :
    Planned Good (WholeBlocks blockTokens keys) (planChain cfg cache model held blockTokens keys room) := by
  rw [planChain]
  dsimp only
  split
  · exact all
  split
  · rename_i covered found
    exact covered_chain_all stable all found
  · refine fit_chain_planned stable all positive ?_
    refine le_trans (Nat.div_mul_le_self _ _) ?_
    exact le_trans (min_le_left _ _) (min_le_right _ _)

variable (all : cache.All Good)

include all

omit stable in
theorem stored_all {replaced : Entry P → Bool} {entry : Entry P} {clock : Nat} (good : Good model entry) :
    PrefixCache.All Good { cache.setBucket model
      (evictOverCaps cfg (((cache.bucket model).filter fun entry => !replaced entry) ++ [entry])) with clock := clock } := by
  refine set_bucket_all all fun other member => ?_
  exact forall_concat (fun other old => all model other (mem_of_mem_filter old)) good other (evict_over_caps_subset cfg member)

theorem insert_tokens_all {room : LetGo → SnapshotRoom} {keep : Bool}
    (fresh : ∀ kv n dim maxSeqLen home snap tick keptHere, kvStore.lookup (cacheKey model request) = some kv → n ≤ prompt.length → snapshotAt kv.layers kv.ssmStates n dim maxSeqLen home = some snap → Good model ⟨prompt.take n, [], 0, snap, tick, keptHere⟩) :
    (cache.insertFromKv cfg model request kvStore prompt room keep copyFails).2.All Good := by
  rw [insertFromKv]
  split
  · exact all
  split
  · exact all
  rename_i kv stored
  split
  · exact all
  rename_i held _
  have plan := plan_tokens_planned stable cfg model held prompt room all
  split
  · rename_i answered refused
    rw [refused] at plan
    exact plan
  rename_i available granted planned
  rw [planned] at plan
  rw [saveTokens]
  split
  · exact all
  have roomy := make_room_all cfg model (Entry.replacedByTokens (prompt.take available) (held.servesOnceSaved available)) (held.cost.bytesAt available)
    granted all
  dsimp only
  split
  · exact roomy
  · rename_i snap copied
    split at copied
    · cases copied
    · exact stored_all roomy (fresh kv available _ _ _ snap _ _ stored plan copied)

theorem insert_chain_all {room : LetGo → SnapshotRoom}
    (fresh : ∀ kv n dim maxSeqLen home snap tick, kvStore.lookup (cacheKey model request) = some kv → WholeBlocks blockTokens keys n → snapshotAt kv.layers [] n dim maxSeqLen home = some snap → Good model ⟨[], keys.take (n / blockTokens.toNat), blockTokens, snap, tick, false⟩) :
    (cache.insertChainFromKv cfg model request kvStore blockTokens keys room copyFails).2.All Good := by
  rw [insertChainFromKv]
  split
  · exact all
  rename_i runs
  have positive : 0 < blockTokens.toNat := by
    simp only [Bool.or_eq_true, decide_eq_true_eq, not_or] at runs
    omega
  split
  · exact all
  rename_i kv stored
  split
  · exact all
  rename_i held _
  split
  · exact all
  have plan := plan_chain_planned stable cfg model held keys room all positive
  split
  · rename_i answered refused
    rw [refused] at plan
    exact plan
  rename_i positions granted planned
  rw [planned] at plan
  rw [saveChain]
  split
  · exact all
  have roomy := make_room_all cfg model
    (Entry.replacedByChain (keys.take (positions / blockTokens.toNat)) blockTokens held.serves)
    (held.cost.bytesAt positions) granted all
  dsimp only
  split
  · exact roomy
  · rename_i snap copied
    split at copied
    · cases copied
    · exact stored_all roomy (fresh kv positions _ _ _ snap _ stored plan copied)

theorem lookup_all : (cache.lookup cfg model tokens narrowFails).2.All Good := by
  rw [PrefixCache.lookup]
  split
  · exact all
  · split
    · exact all
    · exact hit_all stable all

theorem lookup_chain_all {want : Nat} :
    (cache.lookupChain cfg model blockTokens keys want narrowFails).2.All Good := by
  rw [lookupChain]
  dsimp only
  split
  · exact all
  · split
    · exact all
    · split
      · exact all
      · exact hit_all stable all

end Keeping

end SwarmLlm.Inference
