import Mathlib.Data.List.Perm.Basic
import SwarmLlm.Model.KnownHashes

namespace SwarmLlm.Model

open Lib Registry List

inductive RegistryCall where
  | register (manifest : ModelManifest)
  | recordOrigin (index : UInt32) (hash : Blake3Hash)

open RegistryCall

variable (hashing : Hashing Blake3Hash) (model : ModelId) (registry : Registry)

def RegistryCall.perform : RegistryCall → Registry
  | .register manifest => registry.register hashing manifest
  | .recordOrigin index hash => registry.recordOriginVerifiedHash ⟨model, index⟩ hash

-- A hash said to be a part's, with the shape of the file it was said of.
structure Testimony where
  shardCount : UInt32
  totalSizeBytes : UInt64
  index : UInt32
  sizeBytes : UInt64
  hash : Blake3Hash
  deriving DecidableEq

variable (manifest : ModelManifest)

def testify (part : ShardInfo) (hash : Blake3Hash) : Testimony :=
  ⟨manifest.shardCount, manifest.totalSizeBytes, part.index, part.sizeBytes, hash⟩

-- A registered manifest speaks for its own parts, an origin download for the part of the
-- manifest that is stored.
def testimony : RegistryCall → List Testimony
  | .register manifest => manifest.shards.map fun part => testify manifest part part.hash
  | .recordOrigin index hash =>
    match registry.manifests.lookup model with
    | none => []
    | some stored => (stored.shards.filter fun part => part.index == index).map fun part => testify stored part hash

def Concerns : RegistryCall → Prop
  | .register manifest => manifest.id = model
  | .recordOrigin _ _ => True

def WholeList : Prop :=
  (manifest.shards.map fun part => part.index.toNat).Perm (List.range manifest.shardCount.toNat)

-- No manifest of another build is adopted with a blank that the stored one has a hash for;
-- an origin download is of a part the stored manifest lists.
def FillsWithin : RegistryCall → Prop
  | .register manifest => WholeList manifest ∧ (registry.turnsAway manifest = false →
      ∀ prev ∈ registry.manifests.lookup model, describesADifferentBuild prev manifest = true →
        ∀ own ∈ manifest.shards, own.hash = zeroHash → knownHash prev own.index = none)
  | .recordOrigin index _ => ∃ stored ∈ registry.manifests.lookup model, ∃ part ∈ stored.shards, part.index = index

theorem whole_distinct (whole : WholeList manifest) : (manifest.shards.map (·.index)).Nodup := by
  have distinct := whole.nodup_iff.mpr nodup_range
  rw [show (fun part : ShardInfo => part.index.toNat) = UInt32.toNat ∘ (·.index) from rfl, ← map_map] at distinct
  exact distinct.of_map _

theorem whole_listed {manifest other : ModelManifest} (whole : WholeList manifest) (otherWhole : WholeList other)
    (count : manifest.shardCount = other.shardCount) {part : ShardInfo} (listed : part ∈ manifest.shards) :
    ∃ own ∈ other.shards, own.index = part.index := by
  have inside : part.index.toNat ∈ other.shards.map fun part => part.index.toNat := by
    rw [otherWhole.mem_iff, ← count, ← whole.mem_iff]
    exact mem_map_of_mem listed
  obtain ⟨own, member, same⟩ := mem_map.mp inside
  exact ⟨own, member, UInt32.toNat_inj.mp same⟩

variable {hash : Blake3Hash}

theorem origin_known {registry : Registry} {model : ModelId} {index : UInt32}
    (found : registry.originVerifiedHash ⟨model, index⟩ = some hash) : registry.hasOriginKnowledge model = true := by
  rw [hasOriginKnowledge, any_eq_true]
  have present : (⟨model, index⟩ : ShardId) ∈ registry.originVerified :=
    AList.lookup_isSome.mp (by rw [originVerifiedHash] at found; rw [found]; rfl)
  exact ⟨⟨model, index⟩, AList.mem_keys.mp present, beq_self_eq_true model⟩

structure Vouched (model : ModelId) (said : List Testimony) (registry : Registry) : Prop where
  parts : ∀ stored, registry.manifests.lookup model = some stored → ∀ part ∈ stored.shards, part.hash ≠ zeroHash →
    testify stored part part.hash ∈ said
  origins : ∀ index hash, registry.originVerifiedHash ⟨model, index⟩ = some hash →
    ∃ stored, registry.manifests.lookup model = some stored ∧
      ∃ part ∈ stored.shards, part.index = index ∧ testify stored part hash ∈ said
  whole : ∀ stored, registry.manifests.lookup model = some stored → WholeList stored

variable {said : List Testimony}

theorem vouched_more (more : List Testimony) {registry : Registry}
    (vouched : Vouched model said registry) : Vouched model (said ++ more) registry := by
  refine ⟨fun stored found part listed given => ?_, fun index hash known => ?_, vouched.whole⟩
  · exact mem_append_left more (vouched.parts stored found part listed given)
  · obtain ⟨stored, found, part, listed, indexed, spoken⟩ := vouched.origins index hash known
    exact ⟨stored, found, part, listed, indexed, mem_append_left more spoken⟩

theorem vouched_record {model : ModelId} {registry : Registry} {index : UInt32}
    (vouched : Vouched model said registry) (ok : FillsWithin model registry (.recordOrigin index hash)) :
    Vouched model (said ++ testimony model registry (.recordOrigin index hash))
      (registry.recordOriginVerifiedHash ⟨model, index⟩ hash) := by
  have before := vouched_more model (testimony model registry (.recordOrigin index hash)) vouched
  rw [recordOriginVerifiedHash]
  by_cases blank : hash = zeroHash
  · rw [if_neg (not_not.mpr blank)]
    exact before
  rw [if_pos blank]
  refine ⟨before.parts, fun asked answer known => ?_, before.whole⟩
  rw [originVerifiedHash, Table.lookup_insert_if] at known
  by_cases here : asked = index
  · subst here
    rw [if_pos rfl] at known
    obtain rfl := Option.some.inj known
    obtain ⟨stored, found, part, listed, indexed⟩ := ok
    refine ⟨stored, found, part, listed, indexed, mem_append_right said ?_⟩
    rw [testimony, show registry.manifests.lookup model = some stored from found]
    exact mem_map_of_mem (mem_filter.mpr ⟨listed, by simpa using indexed⟩)
  · rw [if_neg (fun same => here (congrArg ShardId.index same))] at known
    exact before.origins asked answer known

theorem settled_cases {registry : Registry} {manifest : ModelManifest} {own : ShardInfo} :
    registry.originVerifiedHash ⟨manifest.id, own.index⟩ = some (registry.settledHash manifest own) ∨
      registry.settledHash manifest own = own.hash ∨
      ∃ prev, registry.manifests.lookup manifest.id = some prev ∧
        knownHash prev own.index = some (registry.settledHash manifest own) ∧
        (own.hash = zeroHash ∨ describesADifferentBuild prev manifest = false) := by
  rw [settledHash]
  cases origin : registry.originVerifiedHash ⟨manifest.id, own.index⟩ with
  | some hash => exact .inl rfl
  | none =>
    rw [Option.getD_none]
    cases stored : registry.manifests.lookup manifest.id with
    | none => exact .inr (.inl (by simp [mergedHash, stored]))
    | some prev =>
      cases known : knownHash prev own.index with
      | none => exact .inr (.inl (by simp [mergedHash, stored, known]))
      | some hash =>
        rw [merged_known stored, known, Option.getD_some, Option.getD_some]
        by_cases blank : own.hash = zeroHash
        · rw [if_pos blank]
          exact .inr (.inr ⟨prev, rfl, known, .inl blank⟩)
        · rw [if_neg blank]
          by_cases stands : describesADifferentBuild prev manifest = true ∨ own.index ∈ registry.heldLocally manifest
          · exact .inr (.inl (if_pos stands))
          · rw [if_neg stands]
            exact .inr (.inr ⟨prev, rfl, known, .inr (by simpa using (not_or.mp stands).1)⟩)

section Registration

variable (model : ModelId) {said : List Testimony} {registry : Registry} {manifest : ModelManifest} {prev : ModelManifest}

theorem testimony_carries (stored : registry.manifests.lookup model = some prev) (vouched : Vouched model said registry)
    (same : describesADifferentBuild prev manifest = false) {part own : ShardInfo} (listed : part ∈ prev.shards)
    (member : own ∈ manifest.shards) (indexed : part.index = own.index) (spoken : testify prev part hash ∈ said)
    : testify manifest own hash ∈ said := by
  have shape := same_build_shape same
  have size := same_build_size same (whole_distinct prev (vouched.whole prev stored)) listed member indexed
  rw [testify, ← shape.1, ← shape.2, ← size, ← indexed]
  exact spoken

theorem same_build_of_origin (stored : registry.manifests.lookup manifest.id = some prev)
    (taken : registry.turnsAway manifest = false) (known : registry.hasOriginKnowledge manifest.id = true) :
    describesADifferentBuild prev manifest = false := by
  rw [turnsAway, Bool.or_eq_false_iff, refusesBuild, stored, Option.any_some, known, Bool.and_true] at taken
  exact taken.2

theorem settled_vouched (vouched : Vouched manifest.id said registry) (taken : registry.turnsAway manifest = false)
    (fills : ∀ prev ∈ registry.manifests.lookup manifest.id, describesADifferentBuild prev manifest = true →
      ∀ own ∈ manifest.shards, own.hash = zeroHash → knownHash prev own.index = none)
    (own : ShardInfo) (member : own ∈ manifest.shards) :
    testify manifest own (registry.settledHash manifest own) ∈
      said ++ testimony manifest.id registry (.register manifest) := by
  rcases settled_cases with origin | itself | ⟨prev, stored, known, within⟩
  · obtain ⟨prev, stored, part, listed, indexed, spoken⟩ := vouched.origins own.index _ origin
    have same := same_build_of_origin stored taken (origin_known origin)
    exact mem_append_left _
      (testimony_carries _ stored vouched same listed member indexed spoken)
  · rw [itself]
    exact mem_append_right said (mem_map_of_mem member)
  have same : describesADifferentBuild prev manifest = false := by
    rcases within with blank | same
    · by_contra differs
      rw [fills prev stored (by simpa using differs) own member blank] at known
      cases known
    · exact same
  obtain ⟨given, part, listed, indexed, hashed⟩ := known_hash_listed known
  have spoken := vouched.parts prev stored part listed (by rw [hashed]; exact given)
  rw [hashed] at spoken
  exact mem_append_left _
    (testimony_carries _ stored vouched same listed member indexed spoken)

theorem vouched_register {hashing : Hashing Blake3Hash} (vouched : Vouched manifest.id said registry)
    (ok : FillsWithin manifest.id registry (.register manifest)) :
    Vouched manifest.id (said ++ testimony manifest.id registry (.register manifest)) (registry.register hashing manifest) := by
  rcases register_lookup with ⟨-, kept⟩ | ⟨taken, stored⟩
  · have before := vouched_more _ (testimony manifest.id registry (.register manifest)) vouched
    refine ⟨fun other found => before.parts other (kept ▸ found), fun index hash known => ?_,
      fun other found => before.whole other (kept ▸ found)⟩
    rw [register_origin] at known
    rw [kept]
    exact before.origins index hash known
  obtain ⟨pin, context, digest, shape⟩ := adopted_shape
  have settled := settled_vouched vouched taken (ok.2 taken)
  refine ⟨fun other found part listed _ => ?_, fun index hash known => ?_, fun other found => ?_⟩
  · rw [stored, shape] at found
    obtain rfl := Option.some.inj found
    obtain ⟨own, member, rfl⟩ := mem_map.mp listed
    exact settled own member
  · rw [register_origin] at known
    obtain ⟨prev, before, part, listed, indexed, -⟩ := vouched.origins index hash known
    have same := same_build_of_origin before taken (origin_known known)
    obtain ⟨own, member, again⟩ := whole_listed (vouched.whole prev before) ok.1
      (same_build_shape same).1 listed
    have origin : registry.settledHash manifest own = hash := by
      rw [settledHash, again, indexed, known, Option.getD_some]
    have spoken := settled own member
    rw [origin] at spoken
    rw [stored, shape]
    exact ⟨_, rfl, _, mem_map_of_mem member, again.trans indexed, spoken⟩
  · rw [stored, shape] at found
    obtain rfl := Option.some.inj found
    rw [WholeList, map_map]
    exact ok.1

end Registration

theorem vouched_step (said : List Testimony) (registry : Registry)
    (call : RegistryCall) (vouched : Vouched model said registry) (ok : Concerns model call ∧ FillsWithin model registry call) :
    Vouched model (said ++ testimony model registry call) (call.perform hashing model registry) := by
  cases call with
  | register manifest =>
    obtain ⟨rfl, fills⟩ := ok
    exact vouched_register vouched fills
  | recordOrigin index hash => exact vouched_record vouched ok.2

theorem hashes_said_of_stored_file
    (fresh : registry.manifests.lookup model = none) (unfetched : ∀ index, registry.originVerifiedHash ⟨model, index⟩ = none)
    (calls : List RegistryCall) (concern : ∀ call ∈ calls, Concerns model call)
    (within : RunMeets (perform hashing model) (FillsWithin model) registry calls) :
    ∀ stored, (run (perform hashing model) registry calls).manifests.lookup model = some stored →
      ∀ part ∈ stored.shards, part.hash ≠ zeroHash →
        testify stored part part.hash ∈ observed (perform hashing model) (testimony model) registry calls := by
  have start : Vouched model [] registry := by
    refine ⟨fun stored found => ?_, fun index hash known => ?_, fun stored found => ?_⟩
    · rw [fresh] at found
      cases found
    · rw [unfetched index] at known
      cases known
    · rw [fresh] at found
      cases found
  have ok := run_meets_and _ registry calls (run_meets_of (fun _ call => Concerns model call) registry calls fun _ => concern) within
  have vouched := run_history (vouched_step hashing model) [] registry start ok
  exact fun stored found part listed given => vouched.parts stored found part listed given

instance (manifest : ModelManifest) : Decidable (WholeList manifest) :=
  inferInstanceAs (Decidable (List.Perm _ _))

instance (model : ModelId) : (call : RegistryCall) → Decidable (Concerns model call)
  | .register manifest => inferInstanceAs (Decidable (manifest.id = model))
  | .recordOrigin _ _ => inferInstanceAs (Decidable True)

instance (model : ModelId) (registry : Registry) : (call : RegistryCall) → Decidable (FillsWithin model registry call)
  | .register manifest =>
    inferInstanceAs (Decidable (WholeList manifest ∧ (registry.turnsAway manifest = false →
      ∀ prev ∈ registry.manifests.lookup model, describesADifferentBuild prev manifest = true →
        ∀ own ∈ manifest.shards, own.hash = zeroHash → knownHash prev own.index = none)))
  | .recordOrigin index _ =>
    inferInstanceAs (Decidable (∃ stored ∈ registry.manifests.lookup model, ∃ part ∈ stored.shards, part.index = index))

theorem hashes_said_of_stored_file_twice : ∃ stored,
    (run (perform sampleHashing ⟨"m"⟩) emptyRegistry
      [.register (listing [samplePart 0 1, samplePart 1 7]), .recordOrigin 0 (Vector.replicate 32 5),
        .register (listing [samplePart 0 1, samplePart 1 0])]).manifests.lookup ⟨"m"⟩ = some stored ∧
      ∀ part ∈ stored.shards, part.hash ≠ zeroHash → testify stored part part.hash ∈
        observed (perform sampleHashing ⟨"m"⟩) (testimony ⟨"m"⟩) emptyRegistry
          [.register (listing [samplePart 0 1, samplePart 1 7]), .recordOrigin 0 (Vector.replicate 32 5),
            .register (listing [samplePart 0 1, samplePart 1 0])] := by
  refine Exists.imp (fun stored found => ⟨found, hashes_said_of_stored_file sampleHashing ⟨"m"⟩ emptyRegistry rfl
    (fun _ => rfl) _ (by decide +kernel) (by decide +kernel) stored found⟩) (Option.isSome_iff_exists.mp ?_)
  decide +kernel

def otherBuild (parts : List ShardInfo) : ModelManifest :=
  { listing parts with totalSizeBytes := 4, manifestHash := computeHash sampleHashing { listing parts with totalSizeBytes := 4 } }

-- Blanks are filled before the builds are told apart: the second file's part of two bytes
-- is stored under the hash of the first file's part of one byte.
theorem blank_filled_from_other_build :
    let calls := [register (listing [samplePart 0 1, samplePart 1 7]),
      .register (otherBuild [⟨0, (0, 1), 2, Vector.replicate 32 3, []⟩, ⟨1, (1, 2), 2, zeroHash, []⟩])]
    (∀ call ∈ calls, Concerns ⟨"m"⟩ call) ∧
    ∃ stored ∈ (run (perform sampleHashing ⟨"m"⟩) emptyRegistry calls).manifests.lookup ⟨"m"⟩,
      ∃ part ∈ stored.shards, part.hash ≠ zeroHash ∧ testify stored part part.hash ∉
        observed (perform sampleHashing ⟨"m"⟩) (testimony ⟨"m"⟩) emptyRegistry calls := by
  decide +kernel

end SwarmLlm.Model
