import SwarmLlm.Lib.Run
import SwarmLlm.Lib.Table
import SwarmLlm.Model.Manifest

namespace SwarmLlm.Model

open Lib

-- The maps a registration reads or writes. Of a holder's record only who holds the part
-- is read here.
structure Registry where
  localNodeId : Option NodeId
  manifests : Table ModelId ModelManifest
  shardHolders : Table ShardId (List NodeId)
  originVerified : Table ShardId Blake3Hash
  heardPartHashes : Table ShardId (List (Blake3Hash × UInt64))

structure HookCall where
  manifest : ModelManifest
  persist : Bool
  recheck : List UInt32

def describesADifferentBuild (ours theirs : ModelManifest) : Bool :=
  if ours.shardCount ≠ theirs.shardCount ∨ ours.totalSizeBytes ≠ theirs.totalSizeBytes then true
  else theirs.shards.any fun their =>
    (ours.shards.find? fun our => our.index == their.index).any fun our => our.sizeBytes != their.sizeBytes

def heardHashesPerPart : Nat := 8

namespace Registry

variable (registry : Registry) (shardId : ShardId)

def recordOriginVerifiedHash (hash : Blake3Hash) : Registry :=
  if hash ≠ zeroHash then { registry with originVerified := registry.originVerified.insert shardId hash } else registry

def originVerifiedHash : Option Blake3Hash :=
  registry.originVerified.lookup shardId

def hasOriginKnowledge (modelId : ModelId) : Bool :=
  registry.originVerified.keys.any fun shardId => shardId.modelId == modelId

def noteHeardPartHash (hash : Blake3Hash) (size : UInt64) : Registry :=
  if hash = zeroHash then registry
  else
    let heard := (registry.heardPartHashes.lookup shardId).getD []
    if (hash, size) ∈ heard then { registry with heardPartHashes := registry.heardPartHashes.insert shardId heard }
    else
      let room := if heard.length ≥ heardHashesPerPart then heard.drop 1 else heard
      { registry with heardPartHashes := registry.heardPartHashes.insert shardId (room ++ [(hash, size)]) }

def holdsLocally : Bool :=
  registry.localNodeId.any fun me => ((registry.shardHolders.lookup shardId).getD []).contains me

variable (manifest : ModelManifest)

def heldLocally : List UInt32 :=
  (manifest.shards.filter fun shard => registry.holdsLocally ⟨manifest.id, shard.index⟩).map (·.index)

-- The vision pin, the blanks, the context length and the contradictions, settled against
-- the manifest stored before; with how many hashes were recovered and contested.
def mergeStored : ModelManifest × Nat × Nat :=
  let encoderOrigin := registry.originVerifiedHash ⟨manifest.id, mmprojShardIndex⟩
  let heldHere := registry.heldLocally manifest
  match registry.manifests.lookup manifest.id with
  | some prev =>
    let pinned := (keepKnownVisionEncoder manifest (some prev) (describesADifferentBuild prev manifest) encoderOrigin).1
    let (merged, recovered) := mergeKnownShardHashes pinned prev
    let sized :=
      if merged.contextLength.isNone && !describesADifferentBuild prev merged then
        { merged with contextLength := prev.contextLength }
      else merged
    if describesADifferentBuild prev sized then (sized, recovered, 0)
    else
      let (kept, contested) := keepKnownHashesOverContradictingOnes sized prev heldHere
      (kept, recovered, contested)
  | none => ((keepKnownVisionEncoder manifest none false encoderOrigin).1, 0, 0)

def overrideByOrigin : ModelManifest × Nat :=
  amendHashes (fun shard =>
    (registry.originVerifiedHash ⟨manifest.id, shard.index⟩).filter fun known => shard.hash != known) manifest

def adopted (hashing : Hashing Blake3Hash) (registry : Registry) (manifest : ModelManifest) : ModelManifest × Nat :=
  let (merged, recovered, contested) := registry.mergeStored manifest
  let (corrected, overridden) := registry.overrideByOrigin merged
  if recovered > 0 ∨ contested > 0 ∨ overridden > 0 then
    ({ corrected with manifestHash := computeHash hashing corrected }, recovered)
  else (corrected, recovered)

def recheck : List UInt32 :=
  match registry.manifests.lookup manifest.id with
  | some prev =>
    (((manifest.shards.filter fun shard => shard.hash != zeroHash).filter fun shard =>
      (prev.shards.find? fun known => known.index == shard.index).all fun known => known.hash != shard.hash).filter
      fun shard => registry.holdsLocally ⟨manifest.id, shard.index⟩).map (·.index)
  | none => []

def refusesBuild : Bool :=
  (registry.manifests.lookup manifest.id).any fun ours =>
    describesADifferentBuild ours manifest && registry.hasOriginKnowledge manifest.id

def registerManifest (hashing : Hashing Blake3Hash) (registry : Registry) (manifest : ModelManifest) :
    Registry × Option HookCall :=
  if isBackupArtifactId manifest.id.text then (registry, none)
  else if declaresMoreLayersThanAnyModel manifest then (registry, none)
  else
    let registry := manifest.shards.foldl
      (fun registry shard => registry.noteHeardPartHash ⟨manifest.id, shard.index⟩ shard.hash shard.sizeBytes) registry
    if registry.refusesBuild manifest then (registry, none)
    else
      let (stored, recovered) := registry.adopted hashing manifest
      let changed := (registry.manifests.lookup stored.id).all fun prev => prev.manifestHash != stored.manifestHash
      let recheck := registry.recheck stored
      let persist := decide (recovered > 0) && changed && !(registry.heldLocally manifest).isEmpty
      ({ registry with manifests := registry.manifests.insert stored.id stored },
        if persist || !recheck.isEmpty then some ⟨stored, persist, recheck⟩ else none)

end Registry

end SwarmLlm.Model
