import Mathlib.Logic.Function.Basic
import SwarmLlm.Daemon.ManifestSync
import SwarmLlm.Model.DebugNames

namespace SwarmLlm.Model

open Lib Daemon ManifestSync List

structure SameContent (first second : ModelManifest) : Prop where
  id : first.id = second.id
  name : first.name = second.name
  publisher : first.publisher = second.publisher
  license : first.license = second.license
  architecture : first.architecture = second.architecture
  quantization : first.quantization = second.quantization
  numLayers : first.numLayers = second.numLayers
  numParamsBillions : first.numParamsBillions = second.numParamsBillions
  totalSizeBytes : first.totalSizeBytes = second.totalSizeBytes
  publishDate : first.publishDate = second.publishDate
  shardCount : first.shardCount = second.shardCount
  shards : first.shards = second.shards
  tokenizerHash : first.tokenizerHash = second.tokenizerHash

def SameLength (first second : String) : Prop := (utf8 first).length = (utf8 second).length

-- The texts are as long in one as in the other, place by place, and the lists have as many
-- entries.
structure SameLengths (rfc3339 : DateTime → String) (first second : ModelManifest) : Prop where
  id : SameLength first.id.text second.id.text
  name : SameLength first.name second.name
  license : SameLength first.license second.license
  architecture : SameLength first.architecture.debug second.architecture.debug
  quantization : SameLength first.quantization.debug second.quantization.debug
  publishDate : SameLength (rfc3339 first.publishDate) (rfc3339 second.publishDate)
  shards : List.Forall₂ (fun part other =>
    List.Forall₂ (fun entry twin => SameLength entry.name twin.name) part.tensors other.tensors) first.shards second.shards

theorem number_splits_u32 {first second : UInt32} {rest others : Bytes}
    (same : leBytes 4 first.toNat ++ rest = leBytes 4 second.toNat ++ others) : first = second ∧ rest = others := by
  obtain ⟨bytes, ends⟩ := append_inj same (by rw [length_le_bytes, length_le_bytes])
  exact ⟨le_bytes_u32_inj bytes, ends⟩

theorem number_splits_u64 {first second : UInt64} {rest others : Bytes}
    (same : leBytes 8 first.toNat ++ rest = leBytes 8 second.toNat ++ others) : first = second ∧ rest = others := by
  obtain ⟨bytes, ends⟩ := append_inj same (by rw [length_le_bytes, length_le_bytes])
  exact ⟨le_bytes_u64_inj bytes, ends⟩

theorem text_splits {first second : String} {rest others : Bytes} (length : SameLength first second)
    (same : utf8 first ++ rest = utf8 second ++ others) : first = second ∧ rest = others := by
  obtain ⟨bytes, ends⟩ := append_inj same length
  exact ⟨utf8_inj bytes, ends⟩

theorem hash_splits {first second : Blake3Hash} {rest others : Bytes}
    (same : first.toList ++ rest = second.toList ++ others) : first = second ∧ rest = others := by
  obtain ⟨bytes, ends⟩ := append_inj same (by rw [Vector.length_toList, Vector.length_toList])
  exact ⟨Vector.toList_inj.mp bytes, ends⟩

theorem entry_splits (first second : ShardTensorEntry) (rest others : Bytes) (length : SameLength first.name second.name)
    (same : first.hashed ++ rest = second.hashed ++ others) : first = second ∧ rest = others := by
  simp only [ShardTensorEntry.hashed, append_assoc] at same
  obtain ⟨name, same⟩ := text_splits length same
  obtain ⟨ggufOffset, same⟩ := number_splits_u64 same
  obtain ⟨shardOffset, same⟩ := number_splits_u64 same
  obtain ⟨size, ends⟩ := number_splits_u64 same
  cases first
  cases second
  simp_all

theorem part_splits (first second : ShardInfo) (rest others : Bytes)
    (lengths : List.Forall₂ (fun entry twin => SameLength entry.name twin.name) first.tensors second.tensors)
    (same : first.hashed ++ rest = second.hashed ++ others) : first = second ∧ rest = others := by
  simp only [ShardInfo.hashed, append_assoc] at same
  obtain ⟨index, same⟩ := number_splits_u32 same
  obtain ⟨start, same⟩ := number_splits_u32 same
  obtain ⟨stop, same⟩ := number_splits_u32 same
  obtain ⟨size, same⟩ := number_splits_u64 same
  obtain ⟨hash, same⟩ := hash_splits same
  obtain ⟨tensors, ends⟩ := flat_map_splits entry_splits lengths same
  have layers : first.layerRange = second.layerRange := Prod.ext start stop
  cases first
  cases second
  simp_all

theorem hashed_splits {rfc3339 : DateTime → String} (dates : Function.Injective rfc3339) {first second : ModelManifest}
    (lengths : SameLengths rfc3339 first second) (same : first.hashed rfc3339 = second.hashed rfc3339) :
    SameContent first second := by
  simp only [ModelManifest.hashed] at same
  obtain ⟨id, same⟩ := text_splits lengths.id same
  obtain ⟨name, same⟩ := text_splits lengths.name same
  obtain ⟨publisher, same⟩ := hash_splits same
  obtain ⟨license, same⟩ := text_splits lengths.license same
  obtain ⟨architecture, same⟩ := text_splits lengths.architecture same
  obtain ⟨quantization, same⟩ := text_splits lengths.quantization same
  obtain ⟨numLayers, same⟩ := number_splits_u32 same
  obtain ⟨numParams, same⟩ := number_splits_u32 same
  obtain ⟨total, same⟩ := number_splits_u64 same
  obtain ⟨date, same⟩ := text_splits lengths.publishDate same
  obtain ⟨count, same⟩ := number_splits_u32 same
  obtain ⟨shards, tokenizer⟩ := flat_map_splits part_splits lengths.shards same
  have sameId : first.id = second.id := by
    cases firstId : first.id
    cases secondId : second.id
    simp_all
  have node : first.publisher = second.publisher := by
    cases firstNode : first.publisher
    cases secondNode : second.publisher
    simp_all
  exact ⟨sameId, name, node, license, architecture_debug_inj _ _ architecture, quantization_debug_inj _ _ quantization,
    numLayers, numParams, total, dates date, count, shards, Vector.toList_inj.mp tokenizer⟩

inductive SyncCall (Digest : Type) where
  | arrived (now : Instant) (manifest : ModelManifest)
  | digest (now : Instant) (versions : List (ManifestVersion Digest)) (peer : NodeId)
      (held : ModelId → Option (Digest × Option UInt32))

section Versions

variable {Digest : Type} [DecidableEq Digest] (hashing : Hashing Digest)

def SyncCall.perform (sync : ManifestSync Digest) : SyncCall Digest → ManifestSync Digest
  | .arrived now manifest => sync.noteSeen now manifest.id (computeHash hashing manifest) manifest.contextLength
  | .digest now versions peer held => (sync.versionsToPull now versions peer held).1

def versionOf (manifest : ModelManifest) : ManifestVersion Digest :=
  ⟨manifest.id, computeHash hashing manifest, manifest.contextLength⟩

def heldVersions (held : ModelId → Option ModelManifest) (model : ModelId) : Option (Digest × Option UInt32) :=
  (held model).map fun manifest => (computeHash hashing manifest, manifest.contextLength)

variable (sync : ManifestSync Digest) (now : Instant) (versions : List (ManifestVersion Digest)) (peer : NodeId)

theorem note_seen_keys {model : ModelId} {hash : Digest} (context : Option UInt32) (key : Version Digest)
    (found : ((sync.noteSeen now model hash context).seen.lookup key).isSome) :
    key = (model, hash) ∨ (sync.seen.lookup key).isSome := by
  by_cases same : key = (model, hash)
  · exact .inl same
  refine .inr ?_
  have kept : ∀ keep : Version Digest → Option UInt32 × Instant → Bool,
      ((sync.seen.retain keep).lookup key).isSome → (sync.seen.lookup key).isSome := by
    intro keep present
    rw [Table.lookup_retain] at present
    exact Option.isSome_of_isSome_filter _ _ present
  rw [noteSeen] at found
  split at found
  · exact found
  dsimp only at found
  split at found
  · rwa [Table.lookup_insert_if, if_neg same] at found
  split at found
  · split at found
    · exact kept _ found
    · rw [Table.lookup_insert_if, if_neg same] at found
      exact kept _ found
  · rwa [Table.lookup_insert_if, if_neg same] at found

variable (held : ModelId → Option (Digest × Option UInt32))

theorem pull_version_seen (loop : ManifestSync.PullLoop Digest)
    (version : ManifestVersion Digest) : (pullVersion now peer held loop version).sync.seen = loop.sync.seen := by
  rw [pullVersion]
  split
  · rfl
  dsimp only
  split
  · rfl
  · split
    · split <;> rfl
    · split <;> rfl

theorem pull_versions_seen (versions : List (ManifestVersion Digest))
    (loop : ManifestSync.PullLoop Digest) : (pullVersions now peer held loop versions).sync.seen = loop.sync.seen := by
  induction versions generalizing loop with
  | nil => rfl
  | cons version rest ih =>
    rw [pullVersions]
    split
    · rfl
    · rw [ih, pull_version_seen]

theorem versions_to_pull_seen : (sync.versionsToPull now versions peer held).1.seen = sync.seen := by
  rw [versionsToPull]
  dsimp only
  rw [pull_versions_seen]
  split <;> rfl

theorem seen_arrived {calls : List (SyncCall Digest)} (sync : ManifestSync Digest) {key : Version Digest}
    (found : ((run (SyncCall.perform hashing) sync calls).seen.lookup key).isSome) :
    (sync.seen.lookup key).isSome ∨
      ∃ now manifest, .arrived now manifest ∈ calls ∧ key = (manifest.id, computeHash hashing manifest) := by
  induction calls generalizing sync with
  | nil => exact .inl found
  | cons call rest ih =>
    rcases ih _ found with here | ⟨now, manifest, member, version⟩
    · cases call with
      | arrived now manifest =>
        rcases note_seen_keys sync now _ key here with same | before
        · exact .inr ⟨now, manifest, .head rest, same⟩
        · exact .inl before
      | digest now versions peer held =>
        rw [SyncCall.perform, versions_to_pull_seen] at here
        exact .inl here
    · exact .inr ⟨now, manifest, .tail call member, version⟩

end Versions

-- Dates written in strokes, one letter on each side of the epoch.
def strokes (date : Int) : String :=
  String.ofList (replicate date.toNat 'a' ++ replicate (-date).toNat 'b')

theorem strokes_inj : Function.Injective strokes := by
  intro first second same
  have text := String.ofList_injective same
  have after := congrArg (count 'a') text
  have before := congrArg (count 'b') text
  simp only [count_append, count_replicate] at after before
  simp at after before
  omega

-- Under one id; the publisher's key is thirty-two times the letter a.
def namedManifest (name license : String) : ModelManifest :=
  { id := ⟨"m"⟩, name := name, architecture := .llama, numLayers := 1, numParamsBillions := 0, quantization := .q4KM
    totalSizeBytes := 1, shardCount := 0, shards := [], tokenizerHash := zeroHash, manifestHash := zeroHash
    publisher := NodeId.ofByte 97, publishDate := 0, license := license, mmproj := none, contextLength := none }

end SwarmLlm.Model
