import SwarmLlm.Model.Registry

namespace SwarmLlm.Model

open Lib List

theorem amend_unchanged {rule : ShardInfo → Option Blake3Hash} {manifest : ModelManifest}
    (nothing : (amendHashes rule manifest).2 = 0) : (amendHashes rule manifest).1 = manifest := by
  have silent : ∀ shard ∈ manifest.shards, rule shard = none := by
    simpa [amendHashes] using nothing
  have same : (manifest.shards.map fun shard => { shard with hash := (rule shard).getD shard.hash }) = manifest.shards := by
    conv_rhs => rw [← map_id manifest.shards]
    refine map_congr_left fun shard member => ?_
    rw [silent shard member]
    rfl
  rw [amendHashes, same]

theorem different_build_congr {ours theirs other : ModelManifest} {rule : ShardInfo → Blake3Hash}
    (count : other.shardCount = theirs.shardCount) (total : other.totalSizeBytes = theirs.totalSizeBytes)
    (parts : other.shards = theirs.shards.map fun shard => { shard with hash := rule shard }) :
    describesADifferentBuild ours other = describesADifferentBuild ours theirs := by
  rw [describesADifferentBuild, describesADifferentBuild, count, total, parts, any_map]
  rfl

variable {theirs ours known : ModelManifest}

theorem same_build_size (same : describesADifferentBuild ours theirs = false)
    (distinct : (ours.shards.map (·.index)).Nodup) {our their : ShardInfo} (listed : our ∈ ours.shards)
    (named : their ∈ theirs.shards) (index : our.index = their.index) : our.sizeBytes = their.sizeBytes := by
  have shape : ¬ (ours.shardCount ≠ theirs.shardCount ∨ ours.totalSizeBytes ≠ theirs.totalSizeBytes) := by
    intro differs
    rw [describesADifferentBuild, if_pos differs] at same
    cases same
  rw [describesADifferentBuild, if_neg shape, any_eq_false] at same
  have found : (ours.shards.find? fun part => part.index == their.index) = some our := by
    refine (find?_eq_some_iff_append).mpr ⟨by simpa using index, ?_⟩
    obtain ⟨front, back, split⟩ := append_of_mem listed
    refine ⟨front, back, split, fun part member => ?_⟩
    rw [split, map_append, map_cons] at distinct
    have apart := (nodup_append.mp distinct).2.2 part.index (mem_map_of_mem member) our.index (by simp)
    rw [index] at apart
    simpa using apart
  have agrees := same their named
  rw [found] at agrees
  simpa using agrees

theorem same_build_shape (same : describesADifferentBuild ours theirs = false) :
    ours.shardCount = theirs.shardCount ∧ ours.totalSizeBytes = theirs.totalSizeBytes := by
  by_contra differs
  have shape : ours.shardCount ≠ theirs.shardCount ∨ ours.totalSizeBytes ≠ theirs.totalSizeBytes := by tauto
  rw [describesADifferentBuild, if_pos shape] at same
  cases same

theorem known_hash_listed {index : UInt32} {hash : Blake3Hash} (found : knownHash known index = some hash) :
    hash ≠ zeroHash ∧ ∃ part ∈ known.shards, part.index = index ∧ part.hash = hash := by
  rw [knownHash, Option.map_eq_some_iff] at found
  obtain ⟨part, here, rfl⟩ := found
  have meets := find?_some here
  simp only [Bool.and_eq_true, beq_iff_eq, bne_iff_ne] at meets
  exact ⟨meets.2, part, mem_of_find?_eq_some here, meets.1, rfl⟩

theorem known_hash_some {part : ShardInfo} (listed : part ∈ known.shards) (given : part.hash ≠ zeroHash) :
    ∃ hash, knownHash known part.index = some hash := by
  rw [knownHash]
  cases found : known.shards.find? fun shard => shard.index == part.index && shard.hash != zeroHash with
  | some other => exact ⟨other.hash, rfl⟩
  | none =>
    have misses := find?_eq_none.mp found part listed
    simp [given] at misses

variable {manifest : ModelManifest}

namespace Registry

-- The hash a part has after the merge with the stored manifest: a known one fills a blank,
-- and wins over another unless the build differs or the part is held here.
def mergedHash (registry : Registry) (manifest : ModelManifest) (own : ShardInfo) : Blake3Hash :=
  match (registry.manifests.lookup manifest.id).map fun prev => (prev, knownHash prev own.index) with
  | some (prev, some known) =>
    if own.hash = zeroHash then known
    else if describesADifferentBuild prev manifest ∨ own.index ∈ registry.heldLocally manifest then own.hash
    else known
  | _ => own.hash

-- The hash a part is stored with: the origin's outranks every other.
def settledHash (registry : Registry) (manifest : ModelManifest) (own : ShardInfo) : Blake3Hash :=
  (registry.originVerifiedHash ⟨manifest.id, own.index⟩).getD (registry.mergedHash manifest own)

variable {own : ShardInfo} {hashing : Hashing Blake3Hash} {prev : ModelManifest} {registry : Registry}

theorem merged_known (stored : registry.manifests.lookup manifest.id = some prev) :
    registry.mergedHash manifest own = if own.hash = zeroHash then (knownHash prev own.index).getD zeroHash
      else if describesADifferentBuild prev manifest ∨ own.index ∈ registry.heldLocally manifest then own.hash
      else (knownHash prev own.index).getD own.hash := by
  rw [mergedHash, stored, Option.map_some]
  cases known : knownHash prev own.index with
  | some hash => rfl
  | none =>
    by_cases blank : own.hash = zeroHash
    · simp [blank]
    · simp [blank]

def filled (prev manifest : ModelManifest) (pin : Option MmprojInfo) (context : Option UInt32) : ModelManifest :=
  { (mergeKnownShardHashes { manifest with mmproj := pin } prev).1 with contextLength := context }

theorem filled_build {pin : Option MmprojInfo} {context : Option UInt32} :
    describesADifferentBuild prev (filled prev manifest pin context) = describesADifferentBuild prev manifest :=
  different_build_congr rfl rfl rfl

theorem merge_stored_known (stored : registry.manifests.lookup manifest.id = some prev) : ∃ pin context,
    registry.mergeStored manifest =
      if describesADifferentBuild prev manifest then
        (filled prev manifest pin context, (mergeKnownShardHashes { manifest with mmproj := pin } prev).2, 0)
      else
        ((keepKnownHashesOverContradictingOnes (filled prev manifest pin context) prev (registry.heldLocally manifest)).1,
          (mergeKnownShardHashes { manifest with mmproj := pin } prev).2,
          (keepKnownHashesOverContradictingOnes (filled prev manifest pin context) prev (registry.heldLocally manifest)).2) := by
  let pin := (keepKnownVisionEncoder manifest (some prev) (describesADifferentBuild prev manifest)
    (registry.originVerifiedHash ⟨manifest.id, mmprojShardIndex⟩)).1.mmproj
  let merged := (mergeKnownShardHashes { manifest with mmproj := pin } prev).1
  have sized : ∃ context, (if merged.contextLength.isNone && !describesADifferentBuild prev merged then
      { merged with contextLength := prev.contextLength } else merged) = filled prev manifest pin context := by
    split
    · exact ⟨prev.contextLength, rfl⟩
    · exact ⟨merged.contextLength, rfl⟩
  obtain ⟨context, sized⟩ := sized
  refine ⟨pin, context, ?_⟩
  rw [← filled_build, ← sized, mergeStored, stored]
  rfl

theorem filled_hash (prev : ModelManifest) (own : ShardInfo) :
    (if own.hash ≠ zeroHash then none else knownHash prev own.index).getD own.hash =
      if own.hash = zeroHash then (knownHash prev own.index).getD zeroHash else own.hash := by
  by_cases blank : own.hash = zeroHash
  · simp [blank]
  · simp [blank]

theorem kept_hash {index : UInt32} {held : List UInt32} {own hash : Blake3Hash}
    (filled : hash = if own = zeroHash then (knownHash prev index).getD zeroHash else own) :
    (if hash = zeroHash ∨ index ∈ held then none else (knownHash prev index).filter fun ours => ours != hash).getD hash =
      if own = zeroHash then (knownHash prev index).getD zeroHash
      else if index ∈ held then own else (knownHash prev index).getD own := by
  cases found : knownHash prev index with
  | none =>
    rw [found] at filled
    by_cases blank : own = zeroHash
    · simp [filled, blank]
    · simp [filled, blank]
  | some known =>
    rw [found] at filled
    have given := (known_hash_listed found).1
    by_cases blank : own = zeroHash
    · simp [filled, blank, given, Option.filter]
    · by_cases same : known = own
      · simp [filled, blank, same, Option.filter]
      · by_cases here : index ∈ held
        · simp [filled, blank, here]
        · simp [filled, blank, here, same, Option.filter]

theorem merge_stored_shape : ∃ pin context, (registry.mergeStored manifest).1 = { manifest with
      mmproj := pin, contextLength := context
      shards := manifest.shards.map fun own => { own with hash := registry.mergedHash manifest own } } := by
  cases stored : registry.manifests.lookup manifest.id with
  | none =>
    refine ⟨(registry.mergeStored manifest).1.mmproj, manifest.contextLength, ?_⟩
    have own : ∀ part, registry.mergedHash manifest part = part.hash := by
      intro part
      simp [mergedHash, stored]
    simp [mergeStored, stored, keepKnownVisionEncoder, own]
  | some prev =>
    obtain ⟨pin, context, settled⟩ := merge_stored_known stored
    refine ⟨pin, context, ?_⟩
    rw [settled]
    by_cases differs : describesADifferentBuild prev manifest = true
    · rw [if_pos differs]
      simp only [filled, mergeKnownShardHashes, amendHashes, merged_known stored, differs, true_or, if_true, filled_hash]
    · rw [if_neg differs]
      simp only [keepKnownHashesOverContradictingOnes, filled, mergeKnownShardHashes, amendHashes, map_map,
        Function.comp_def, merged_known stored, differs, filled_hash,
        Bool.false_eq_true, false_or]
      simp only [kept_hash rfl]

theorem adopted_shape : ∃ pin context digest, (registry.adopted hashing manifest).1 = { manifest with
      mmproj := pin, contextLength := context, manifestHash := digest
      shards := manifest.shards.map fun own => { own with hash := registry.settledHash manifest own } } := by
  obtain ⟨pin, context, merged⟩ := merge_stored_shape
  have outranks : ∀ (origin : Option Blake3Hash) (hash : Blake3Hash),
      (origin.filter fun known => hash != known).getD hash = origin.getD hash := by
    intro origin hash
    cases origin with
    | none => rfl
    | some known =>
      by_cases same : hash = known
      · simp [same, Option.filter]
      · simp [same, Option.filter]
  have corrected : (registry.overrideByOrigin (registry.mergeStored manifest).1).1 = { manifest with
      mmproj := pin, contextLength := context
      shards := manifest.shards.map fun own => { own with hash := registry.settledHash manifest own } } := by
    rw [merged]
    simp only [overrideByOrigin, amendHashes, map_map, Function.comp_def, outranks, settledHash]
  rw [adopted]
  dsimp only
  rw [corrected]
  split
  · exact ⟨pin, context, _, rfl⟩
  · exact ⟨pin, context, _, rfl⟩

theorem merge_stored_unchanged (rfc3339 : DateTime → String)
    (recovered : (registry.mergeStored manifest).2.1 = 0) (contested : (registry.mergeStored manifest).2.2 = 0) :
    (registry.mergeStored manifest).1.hashed rfc3339 = manifest.hashed rfc3339 ∧
      (registry.mergeStored manifest).1.manifestHash = manifest.manifestHash := by
  cases stored : registry.manifests.lookup manifest.id with
  | none =>
    rw [mergeStored, stored]
    exact ⟨rfl, rfl⟩
  | some prev =>
    obtain ⟨pin, context, settled⟩ := merge_stored_known stored
    have blanks : (mergeKnownShardHashes { manifest with mmproj := pin } prev).2 = 0 := by
      rw [settled] at recovered
      split at recovered <;> exact recovered
    have bare : filled prev manifest pin context = { manifest with mmproj := pin, contextLength := context } := by
      rw [filled, mergeKnownShardHashes, amend_unchanged blanks]
    rw [settled] at contested ⊢
    by_cases differs : describesADifferentBuild prev manifest = true
    · rw [if_pos differs, bare]
      exact ⟨rfl, rfl⟩
    · rw [if_neg differs] at contested ⊢
      dsimp only at contested ⊢
      rw [keepKnownHashesOverContradictingOnes, amend_unchanged contested, bare]
      exact ⟨rfl, rfl⟩

theorem verify_hash_iff (hashing : Hashing Blake3Hash) (manifest : ModelManifest) : verifyHashStrict hashing manifest = .ok () ↔
      manifest.manifestHash ≠ zeroHash ∧ computeHash hashing manifest = manifest.manifestHash := by
  rw [verifyHashStrict]
  by_cases blank : manifest.manifestHash = zeroHash
  · simp [blank]
  · by_cases matched : computeHash hashing manifest = manifest.manifestHash
    · simp [blank, matched]
    · simp [blank, matched]

-- The hash is computed again whenever a part's hash changed, and only then has to be.
theorem adopted_verified (neverZero : ∀ text, hashing.blake3 text ≠ zeroHash)
    (verified : verifyHashStrict hashing manifest = .ok ()) :
    verifyHashStrict hashing (registry.adopted hashing manifest).1 = .ok () := by
  rw [verify_hash_iff] at verified ⊢
  rw [adopted]
  dsimp only
  split
  · exact ⟨neverZero _, rfl⟩
  · rename_i quiet
    obtain ⟨recovered, contested, overridden⟩ := by simpa only [not_or, Nat.not_lt, Nat.le_zero, gt_iff_lt] using quiet
    have same := merge_stored_unchanged hashing.rfc3339 recovered contested
    rw [overrideByOrigin, amend_unchanged overridden, computeHash, same.1, same.2]
    exact verified

theorem note_heard_frame {shardId : ShardId} (hash : Blake3Hash) {size : UInt64} :
    ∃ heard, registry.noteHeardPartHash shardId hash size = { registry with heardPartHashes := heard } := by
  rw [noteHeardPartHash]
  split
  · exact ⟨registry.heardPartHashes, rfl⟩
  · dsimp only
    split
    · exact ⟨_, rfl⟩
    · exact ⟨_, rfl⟩

theorem heard_frame {model : ModelId} {shards : List ShardInfo} (registry : Registry) : ∃ heard,
    shards.foldl (fun registry shard => registry.noteHeardPartHash ⟨model, shard.index⟩ shard.hash shard.sizeBytes) registry =
      { registry with heardPartHashes := heard } := by
  induction shards generalizing registry with
  | nil => exact ⟨registry.heardPartHashes, rfl⟩
  | cons shard rest ih =>
    obtain ⟨noted, first⟩ := note_heard_frame shard.hash
    obtain ⟨heard, others⟩ := ih { registry with heardPartHashes := noted }
    exact ⟨heard, by rw [foldl_cons, first, others]⟩

def register (hashing : Hashing Blake3Hash) (registry : Registry) (manifest : ModelManifest) : Registry :=
  (registry.registerManifest hashing manifest).1

def turnsAway (registry : Registry) (manifest : ModelManifest) : Bool :=
  isBackupArtifactId manifest.id.text || declaresMoreLayersThanAnyModel manifest || registry.refusesBuild manifest

theorem register_cases : ∃ heard,
    (registry.turnsAway manifest = true ∧ registry.register hashing manifest = { registry with heardPartHashes := heard }) ∨
      (registry.turnsAway manifest = false ∧ registry.register hashing manifest = { registry with
        heardPartHashes := heard
        manifests := registry.manifests.insert manifest.id (registry.adopted hashing manifest).1 }) := by
  obtain ⟨heard, noted⟩ := heard_frame registry
  rw [register, registerManifest, turnsAway]
  by_cases backup : isBackupArtifactId manifest.id.text = true
  · exact ⟨registry.heardPartHashes, .inl ⟨by simp [backup], by rw [if_pos backup]⟩⟩
  by_cases layers : declaresMoreLayersThanAnyModel manifest = true
  · exact ⟨registry.heardPartHashes, .inl ⟨by simp [layers], by rw [if_neg backup, if_pos layers]⟩⟩
  rw [if_neg backup, if_neg layers, noted]
  refine ⟨heard, ?_⟩
  have refusal : ({ registry with heardPartHashes := heard } : Registry).refusesBuild manifest =
      registry.refusesBuild manifest := rfl
  have adoption : ({ registry with heardPartHashes := heard } : Registry).adopted hashing manifest =
      registry.adopted hashing manifest := rfl
  dsimp only
  rw [refusal, adoption]
  by_cases refused : registry.refusesBuild manifest = true
  · exact .inl ⟨by simp [refused], by rw [if_pos refused]⟩
  · obtain ⟨pin, context, digest, shape⟩ := adopted_shape
    refine .inr ⟨by simp [backup, layers, refused], ?_⟩
    rw [if_neg refused, shape]

theorem held_locally_iff (listed : own ∈ manifest.shards) :
    own.index ∈ registry.heldLocally manifest ↔ registry.holdsLocally ⟨manifest.id, own.index⟩ = true := by
  rw [heldLocally, mem_map]
  constructor
  · rintro ⟨part, member, index⟩
    have holds := (mem_filter.mp member).2
    rwa [index] at holds
  · intro holds
    exact ⟨own, mem_filter.mpr ⟨listed, holds⟩, rfl⟩

end Registry

end SwarmLlm.Model
