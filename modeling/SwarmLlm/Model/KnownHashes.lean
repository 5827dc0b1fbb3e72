import SwarmLlm.Model.Adoption

namespace SwarmLlm.Model

open Lib

variable (registry : Registry) (manifest : ModelManifest)

def Names (index : UInt32) (hash : Blake3Hash) : Prop :=
  ∃ part ∈ manifest.shards, part.index = index ∧ part.hash = hash

def Consistent (index : UInt32) : Prop :=
  ∀ first ∈ manifest.shards, ∀ second ∈ manifest.shards, first.index = index → second.index = index →
    first.hash ≠ zeroHash → second.hash ≠ zeroHash → first.hash = second.hash

def SameBuild (hashing : Hashing Blake3Hash) (model : ModelId) (registry : Registry) (manifest : ModelManifest) : Prop :=
  manifest.id = model ∧ verifyHashStrict hashing manifest = .ok () ∧
    ∀ prev ∈ registry.manifests.lookup model, describesADifferentBuild prev manifest = false

-- Every part the stored manifest has a hash for is listed again, and no part is given two
-- different hashes.
def ListsKnown : Prop :=
  (∀ prev ∈ registry.manifests.lookup manifest.id, ∀ part ∈ prev.shards, part.hash ≠ zeroHash →
    ∃ own ∈ manifest.shards, own.index = part.index) ∧ ∀ part ∈ manifest.shards, Consistent manifest part.index

variable {manifest : ModelManifest}

namespace Registry

variable {hashing : Hashing Blake3Hash}

theorem register_holds (shardId : ShardId) :
    (registry.register hashing manifest).holdsLocally shardId = registry.holdsLocally shardId := by
  obtain ⟨heard, ⟨-, left⟩ | ⟨-, stored⟩⟩ := register_cases
  · rw [left]
    rfl
  · rw [stored]
    rfl

theorem register_origin (shardId : ShardId) :
    (registry.register hashing manifest).originVerifiedHash shardId = registry.originVerifiedHash shardId := by
  obtain ⟨heard, ⟨-, left⟩ | ⟨-, stored⟩⟩ := register_cases
  · rw [left]
    rfl
  · rw [stored]
    rfl

theorem register_lookup {registry : Registry} : (registry.turnsAway manifest = true ∧
      (registry.register hashing manifest).manifests.lookup manifest.id = registry.manifests.lookup manifest.id) ∨
      (registry.turnsAway manifest = false ∧ (registry.register hashing manifest).manifests.lookup manifest.id =
        some (registry.adopted hashing manifest).1) := by
  obtain ⟨heard, ⟨away, left⟩ | ⟨taken, stored⟩⟩ := register_cases
  · rw [left]
    exact .inl ⟨away, rfl⟩
  · rw [stored]
    exact .inr ⟨taken, AList.lookup_insert registry.manifests⟩

variable {hash : Blake3Hash} (model : ModelId) {index : UInt32} {own : ShardInfo} {registry : Registry}

theorem adopted_part {part : ShardInfo} (listed : part ∈ (registry.adopted hashing manifest).1.shards) :
    ∃ own ∈ manifest.shards, part = { own with hash := registry.settledHash manifest own } := by
  obtain ⟨pin, context, digest, shape⟩ := adopted_shape
  rw [shape] at listed
  obtain ⟨own, member, rfl⟩ := List.mem_map.mp listed
  exact ⟨own, member, rfl⟩

theorem adopted_listed (listed : own ∈ manifest.shards) :
    { own with hash := registry.settledHash manifest own } ∈ (registry.adopted hashing manifest).1.shards := by
  obtain ⟨pin, context, digest, shape⟩ := adopted_shape
  rw [shape]
  exact List.mem_map_of_mem listed

structure Unsettled (registry : Registry) (model : ModelId) (index : UInt32) : Prop where
  absent : registry.holdsLocally ⟨model, index⟩ = false
  unfetched : registry.originVerifiedHash ⟨model, index⟩ = none

theorem register_unsettled {model : ModelId} (unsettled : registry.Unsettled model index) :
    (registry.register hashing manifest).Unsettled model index := by
  refine ⟨?_, ?_⟩
  · rw [register_holds]
    exact unsettled.absent
  · rw [register_origin]
    exact unsettled.unfetched

theorem settled_known {prev : ModelManifest} (listed : own ∈ manifest.shards)
    (unsettled : registry.Unsettled manifest.id own.index) (stored : registry.manifests.lookup manifest.id = some prev)
    (same : describesADifferentBuild prev manifest = false) (known : knownHash prev own.index = some hash) :
    registry.settledHash manifest own = hash := by
  have apart : own.index ∉ registry.heldLocally manifest := by
    rw [held_locally_iff listed, unsettled.absent]
    exact Bool.false_ne_true
  rw [settledHash, unsettled.unfetched, Option.getD_none, merged_known stored, known]
  by_cases blank : own.hash = zeroHash
  · simp [blank]
  · simp [blank, same, apart]

theorem settled_new (unfetched : registry.originVerifiedHash ⟨manifest.id, own.index⟩ = none)
    (unknown : ∀ prev, registry.manifests.lookup manifest.id = some prev → knownHash prev own.index = none) :
    registry.settledHash manifest own = own.hash := by
  rw [settledHash, unfetched, Option.getD_none]
  cases stored : registry.manifests.lookup manifest.id with
  | none => simp [mergedHash, stored]
  | some prev => simp [mergedHash, stored, unknown prev stored]

theorem adopted_consistent (unsettled : registry.Unsettled manifest.id index) (consistent : Consistent manifest index)
    (same : ∀ prev, registry.manifests.lookup manifest.id = some prev → describesADifferentBuild prev manifest = false) :
    Consistent (registry.adopted hashing manifest).1 index := by
  rintro part listed twin twinListed rfl indexed nonzero other
  obtain ⟨own, member, rfl⟩ := adopted_part listed
  obtain ⟨twinOwn, twinMember, rfl⟩ := adopted_part twinListed
  dsimp only at unsettled indexed nonzero other ⊢
  have twinUnsettled : registry.Unsettled manifest.id twinOwn.index := by rwa [indexed]
  by_cases known : ∃ prev hash, registry.manifests.lookup manifest.id = some prev ∧ knownHash prev own.index = some hash
  · obtain ⟨prev, hash, stored, found⟩ := known
    rw [settled_known member unsettled stored (same prev stored) found,
      settled_known twinMember twinUnsettled stored (same prev stored) (by rwa [indexed])]
  have unknown : ∀ prev, registry.manifests.lookup manifest.id = some prev → knownHash prev own.index = none := by
    intro prev stored
    by_contra given
    obtain ⟨hash, found⟩ := Option.ne_none_iff_exists'.mp given
    exact known ⟨prev, hash, stored, found⟩
  have ownHash := settled_new unsettled.unfetched unknown
  have twinHash := settled_new twinUnsettled.unfetched (by rwa [indexed])
  rw [ownHash] at nonzero ⊢
  rw [twinHash] at other ⊢
  exact consistent own member twinOwn twinMember rfl indexed nonzero other

theorem adopted_names {prev : ModelManifest} (unsettled : registry.Unsettled manifest.id index)
    (stored : registry.manifests.lookup manifest.id = some prev) (same : describesADifferentBuild prev manifest = false)
    (consistent : Consistent prev index) (nonzero : hash ≠ zeroHash) (named : Names prev index hash)
    (again : ∃ own ∈ manifest.shards, own.index = index) : Names (registry.adopted hashing manifest).1 index hash := by
  obtain ⟨part, listed, rfl, rfl⟩ := named
  obtain ⟨known, found⟩ := known_hash_some listed nonzero
  obtain ⟨given, first, firstListed, firstIndex, rfl⟩ := known_hash_listed found
  have only : first.hash = part.hash := consistent first firstListed part listed firstIndex rfl given nonzero
  obtain ⟨own, member, indexed⟩ := again
  rw [← indexed] at unsettled found
  refine ⟨_, adopted_listed member, indexed, ?_⟩
  rw [← only]
  exact settled_known member unsettled stored same found

structure Coherent (model : ModelId) (index : UInt32) (registry : Registry) : Prop where
  unsettled : registry.Unsettled model index
  consistent : ∀ stored, registry.manifests.lookup model = some stored → Consistent stored index

theorem coherent_step (registry : Registry) (manifest : ModelManifest) (coherent : registry.Coherent model index)
    (ok : SameBuild hashing model registry manifest ∧ ListsKnown registry manifest) :
    (registry.register hashing manifest).Coherent model index := by
  obtain ⟨⟨rfl, -, same⟩, -, consistent⟩ := ok
  refine ⟨register_unsettled coherent.unsettled, fun stored found => ?_⟩
  rcases register_lookup with ⟨-, kept⟩ | ⟨-, taken⟩
  · exact coherent.consistent stored (kept ▸ found)
  rw [taken] at found
  obtain rfl := Option.some.inj found
  have own : Consistent manifest index := by
    intro first listed second other indexed
    rw [← indexed]
    exact consistent first listed first listed second other rfl
  exact adopted_consistent coherent.unsettled own same

theorem names_step (nonzero : hash ≠ zeroHash) (registry : Registry) (manifest : ModelManifest)
    (inv : registry.Coherent model index ∧ ∃ stored, registry.manifests.lookup model = some stored ∧ Names stored index hash)
    (ok : SameBuild hashing model registry manifest ∧ ListsKnown registry manifest) :
    (registry.register hashing manifest).Coherent model index ∧
      ∃ stored, (registry.register hashing manifest).manifests.lookup model = some stored ∧ Names stored index hash := by
  refine ⟨coherent_step model registry manifest inv.1 ok, ?_⟩
  obtain ⟨coherent, prev, stored, named⟩ := inv
  obtain ⟨⟨rfl, -, same⟩, again, -⟩ := ok
  rcases register_lookup with ⟨-, kept⟩ | ⟨-, taken⟩
  · exact ⟨prev, kept.trans stored, named⟩
  · obtain ⟨part, listed, rfl, rfl⟩ := named
    exact ⟨_, taken, adopted_names coherent.unsettled stored (same prev stored) (coherent.consistent prev stored) nonzero ⟨part, listed, rfl, rfl⟩
      (again prev stored part listed nonzero)⟩

variable (hashing)

structure Authentic (origin : Table ShardId Blake3Hash) (model : ModelId) (registry : Registry) : Prop where
  origins : registry.originVerified = origin
  carried : ∀ stored, registry.manifests.lookup model = some stored → ∀ part ∈ stored.shards, ∀ hash,
    origin.lookup ⟨model, part.index⟩ = some hash → part.hash = hash
  verified : ∀ stored, registry.manifests.lookup model = some stored → verifyHashStrict hashing stored = .ok ()

theorem authentic_step (neverZero : ∀ text, hashing.blake3 text ≠ zeroHash) {origin : Table ShardId Blake3Hash} {model : ModelId}
    (registry : Registry) (manifest : ModelManifest) (authentic : Authentic hashing origin model registry)
    (ok : SameBuild hashing model registry manifest) : Authentic hashing origin model (registry.register hashing manifest) := by
  obtain ⟨rfl, verified, -⟩ := ok
  have origins : (registry.register hashing manifest).originVerified = origin := by
    rw [← authentic.origins]
    obtain ⟨heard, ⟨-, left⟩ | ⟨-, stored⟩⟩ := register_cases
    · rw [left]
    · rw [stored]
  rcases register_lookup with ⟨-, kept⟩ | ⟨-, taken⟩
  · exact ⟨origins, fun stored found => authentic.carried stored (kept ▸ found),
      fun stored found => authentic.verified stored (kept ▸ found)⟩
  refine ⟨origins, fun stored found part listed hash known => ?_, fun stored found => ?_⟩
  · rw [taken] at found
    obtain rfl := Option.some.inj found
    obtain ⟨own, -, rfl⟩ := adopted_part listed
    dsimp only at known ⊢
    rw [settledHash, originVerifiedHash, authentic.origins, known, Option.getD_some]
  · rw [taken] at found
    obtain rfl := Option.some.inj found
    exact adopted_verified neverZero verified

end Registry

open Registry

theorem known_hashes_kept (hashing : Hashing Blake3Hash) (neverZero : ∀ text, hashing.blake3 text ≠ zeroHash)
    (model : ModelId) (registry : Registry) (fresh : registry.manifests.lookup model = none) (calls : List ModelManifest)
    (same : RunMeets (register hashing) (SameBuild hashing model) registry calls)
    (lists : RunMeets (register hashing) ListsKnown registry calls) :
    (∀ before after, calls = before ++ after → ∀ index hash, registry.holdsLocally ⟨model, index⟩ = false →
      registry.originVerifiedHash ⟨model, index⟩ = none → hash ≠ zeroHash →
      ∀ earlier, (run (register hashing) registry before).manifests.lookup model = some earlier → Names earlier index hash →
        ∃ later, (run (register hashing) registry calls).manifests.lookup model = some later ∧ Names later index hash ∧
          ∀ other, other ≠ zeroHash → Names later index other → other = hash) ∧
      ∀ stored, (run (register hashing) registry calls).manifests.lookup model = some stored →
        (∀ part ∈ stored.shards, ∀ hash, registry.originVerifiedHash ⟨model, part.index⟩ = some hash → part.hash = hash) ∧
          verifyHashStrict hashing stored = .ok () := by
  have both := run_meets_and _ registry calls same lists
  have nothing : ∀ stored, registry.manifests.lookup model ≠ some stored := by simp [fresh]
  constructor
  · rintro before after rfl index hash absent unfetched nonzero earlier found named
    rw [run_meets_append] at both
    have start : registry.Coherent model index :=
      ⟨⟨absent, unfetched⟩, fun stored present => absurd present (nothing stored)⟩
    have middle := run_invariant _ _ (coherent_step model) registry before start both.1
    obtain ⟨coherent, later, stored, kept⟩ := run_invariant _ _ (names_step model nonzero) _ after
      ⟨middle, earlier, found, named⟩ both.2
    rw [run_append]
    refine ⟨later, stored, kept, fun other given otherNamed => ?_⟩
    obtain ⟨part, listed, indexed, rfl⟩ := kept
    obtain ⟨twin, twinListed, twinIndexed, rfl⟩ := otherNamed
    exact coherent.consistent later stored twin twinListed part listed twinIndexed indexed given nonzero
  · have start : Authentic hashing registry.originVerified model registry :=
      ⟨rfl, fun stored present => absurd present (nothing stored), fun stored present => absurd present (nothing stored)⟩
    have authentic := run_invariant _ _ (authentic_step hashing neverZero) registry calls
      start same
    exact fun stored found => ⟨authentic.carried stored found, authentic.verified stored found⟩

instance (manifest : ModelManifest) (index : UInt32) (hash : Blake3Hash) : Decidable (Names manifest index hash) :=
  inferInstanceAs (Decidable (∃ part ∈ manifest.shards, part.index = index ∧ part.hash = hash))

instance (manifest : ModelManifest) (index : UInt32) : Decidable (Consistent manifest index) :=
  inferInstanceAs (Decidable (∀ first ∈ manifest.shards, ∀ second ∈ manifest.shards, first.index = index →
    second.index = index → first.hash ≠ zeroHash → second.hash ≠ zeroHash → first.hash = second.hash))

instance (hashing : Hashing Blake3Hash) (model : ModelId) (registry : Registry) (manifest : ModelManifest) :
    Decidable (SameBuild hashing model registry manifest) :=
  inferInstanceAs (Decidable (manifest.id = model ∧ verifyHashStrict hashing manifest = .ok () ∧
    ∀ prev ∈ registry.manifests.lookup model, describesADifferentBuild prev manifest = false))

instance (registry : Registry) (manifest : ModelManifest) : Decidable (ListsKnown registry manifest) :=
  inferInstanceAs (Decidable ((∀ prev ∈ registry.manifests.lookup manifest.id, ∀ part ∈ prev.shards,
    part.hash ≠ zeroHash → ∃ own ∈ manifest.shards, own.index = part.index) ∧
    ∀ part ∈ manifest.shards, Consistent manifest part.index))

def emptyRegistry : Registry := ⟨none, ∅, ∅, ∅, ∅⟩

def sampleHashing : Hashing Blake3Hash := ⟨fun text => Vector.ofFn fun place => (text.getD place 0) ||| 1, fun _ => ""⟩

def samplePart (index : UInt32) (byte : UInt8) : ShardInfo := ⟨index, (index, index + 1), 1, Vector.replicate 32 byte, []⟩

def listing (parts : List ShardInfo) : ModelManifest :=
  let unsigned : ModelManifest := {
    id := ⟨"m"⟩, name := "M", architecture := .llama, numLayers := 2, numParamsBillions := 0, quantization := .q4KM
    totalSizeBytes := 2, shardCount := 2, shards := parts, tokenizerHash := zeroHash, manifestHash := zeroHash
    publisher := NodeId.ofByte 1, publishDate := 0, license := "", mmproj := none, contextLength := none }
  { unsigned with manifestHash := computeHash sampleHashing unsigned }

theorem sample_never_zero (text : Bytes) : sampleHashing.blake3 text ≠ zeroHash := by
  intro zero
  have first := congrArg (fun hash : Blake3Hash => hash[0]) zero
  simp [sampleHashing, zeroHash] at first

theorem known_hashes_kept_blank : ∃ later,
    (run (register sampleHashing) emptyRegistry
      [listing [samplePart 0 1, samplePart 1 7], listing [samplePart 0 3, samplePart 1 0]]).manifests.lookup ⟨"m"⟩ =
        some later ∧ Names later 1 (Vector.replicate 32 7) := by
  have kept := known_hashes_kept sampleHashing sample_never_zero ⟨"m"⟩ emptyRegistry rfl
    ([listing [samplePart 0 1, samplePart 1 7]] ++ [listing [samplePart 0 3, samplePart 1 0]]) (by decide +kernel) (by decide +kernel)
  have first : ∃ earlier ∈ (run (register sampleHashing) emptyRegistry
      [listing [samplePart 0 1, samplePart 1 7]]).manifests.lookup ⟨"m"⟩, Names earlier 1 (Vector.replicate 32 7) := by
    decide +kernel
  obtain ⟨earlier, found, named⟩ := first
  obtain ⟨later, stored, same, -⟩ := kept.1 _ [listing [samplePart 0 3, samplePart 1 0]] rfl 1 (Vector.replicate 32 7)
    rfl rfl (by decide +kernel) earlier found named
  exact ⟨later, stored, same⟩

-- The stored part list is the incoming one: a part it leaves out is forgotten, and the
-- next manifest may give it any hash.
theorem hash_lost_and_flipped :
    RunMeets (register sampleHashing) (SameBuild sampleHashing ⟨"m"⟩) emptyRegistry
      [listing [samplePart 0 1, samplePart 1 7], listing [samplePart 0 1], listing [samplePart 0 1, samplePart 1 9]] ∧
    (∃ earlier ∈ (run (register sampleHashing) emptyRegistry
      [listing [samplePart 0 1, samplePart 1 7]]).manifests.lookup ⟨"m"⟩, Names earlier 1 (Vector.replicate 32 7)) ∧
    (∃ later ∈ (run (register sampleHashing) emptyRegistry
      [listing [samplePart 0 1, samplePart 1 7], listing [samplePart 0 1]]).manifests.lookup ⟨"m"⟩,
      ∀ part ∈ later.shards, part.index ≠ 1) ∧
    ∃ last ∈ (run (register sampleHashing) emptyRegistry
      [listing [samplePart 0 1, samplePart 1 7], listing [samplePart 0 1],
        listing [samplePart 0 1, samplePart 1 9]]).manifests.lookup ⟨"m"⟩,
      Names last 1 (Vector.replicate 32 9) ∧ ¬ Names last 1 (Vector.replicate 32 7) := by
  decide +kernel

end SwarmLlm.Model
