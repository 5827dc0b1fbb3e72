import SwarmLlm.Types
import SwarmLlm.Lib.Bytes
import SwarmLlm.Lib.Text

namespace SwarmLlm.Model

open Lib

abbrev Blake3Hash := Vector UInt8 32

def zeroHash : Blake3Hash := Vector.replicate 32 0

structure ModelId where
  text : String
  deriving DecidableEq

structure ShardId where
  modelId : ModelId
  index : UInt32
  deriving DecidableEq

def mmprojShardIndex : UInt32 := 4294967295

structure VisionConfig where
  imageSize : UInt32
  patchSize : UInt32
  visionHiddenSize : UInt32
  visionNumLayers : UInt32
  visionNumHeads : UInt32
  projectionDim : UInt32
  deriving DecidableEq

inductive ModelArchitecture where
  | llama
  | mistral
  | mixtral (numExperts expertsPerToken : UInt32)
  | qwen2
  | deepSeek (numExperts expertsPerToken : UInt32)
  | phi
  | llava (visionConfig : VisionConfig)
  | qwen2VL (visionConfig : VisionConfig)
  | glm4
  | llama4 (numExperts expertsPerToken : UInt32)
  | qwen35
  | qwen35Moe (numExperts expertsPerToken : UInt32)
  deriving DecidableEq

inductive Quantization where
  | q2K | q3KS | q3KM | q3KL | q4KS | q4KM | q5KS | q5KM | q6K
  | q4_0 | q4_1 | q5_0 | q5_1 | q8_0
  | iq1S | iq1M | iq2XXS | iq2XS | iq2S | iq2M | iq3XXS | iq3XS | iq3S | iq3M | iq4XS | iq4NL
  | fp16 | bf16 | fp32
  | unknown
  deriving DecidableEq

def debugFields : List (String × String) → String
  | [] => ""
  | [field] => field.1 ++ ": " ++ field.2
  | field :: rest => field.1 ++ ": " ++ field.2 ++ ", " ++ debugFields rest

def debugRecord (name : String) (fields : List (String × String)) : String :=
  name ++ " \x7b " ++ debugFields fields ++ " \x7d"

def debugNumber (number : UInt32) : String := toString number.toNat

def VisionConfig.debug (config : VisionConfig) : String :=
  debugRecord "VisionConfig" [("image_size", debugNumber config.imageSize), ("patch_size", debugNumber config.patchSize),
    ("vision_hidden_size", debugNumber config.visionHiddenSize), ("vision_num_layers", debugNumber config.visionNumLayers),
    ("vision_num_heads", debugNumber config.visionNumHeads), ("projection_dim", debugNumber config.projectionDim)]

def debugExperts (name : String) (numExperts expertsPerToken : UInt32) : String :=
  debugRecord name [("num_experts", debugNumber numExperts), ("experts_per_token", debugNumber expertsPerToken)]

def debugVision (name : String) (config : VisionConfig) : String := debugRecord name [("vision_config", config.debug)]

def ModelArchitecture.debug : ModelArchitecture → String
  | .llama => "Llama"
  | .mistral => "Mistral"
  | .mixtral experts perToken => debugExperts "Mixtral" experts perToken
  | .qwen2 => "Qwen2"
  | .deepSeek experts perToken => debugExperts "DeepSeek" experts perToken
  | .phi => "Phi"
  | .llava config => debugVision "LLaVA" config
  | .qwen2VL config => debugVision "Qwen2VL" config
  | .glm4 => "Glm4"
  | .llama4 experts perToken => debugExperts "Llama4" experts perToken
  | .qwen35 => "Qwen35"
  | .qwen35Moe experts perToken => debugExperts "Qwen35Moe" experts perToken

def Quantization.debug : Quantization → String
  | .q2K => "Q2K"
  | .q3KS => "Q3KS"
  | .q3KM => "Q3KM"
  | .q3KL => "Q3KL"
  | .q4KS => "Q4KS"
  | .q4KM => "Q4KM"
  | .q5KS => "Q5KS"
  | .q5KM => "Q5KM"
  | .q6K => "Q6K"
  | .q4_0 => "Q4_0"
  | .q4_1 => "Q4_1"
  | .q5_0 => "Q5_0"
  | .q5_1 => "Q5_1"
  | .q8_0 => "Q8_0"
  | .iq1S => "IQ1S"
  | .iq1M => "IQ1M"
  | .iq2XXS => "IQ2XXS"
  | .iq2XS => "IQ2XS"
  | .iq2S => "IQ2S"
  | .iq2M => "IQ2M"
  | .iq3XXS => "IQ3XXS"
  | .iq3XS => "IQ3XS"
  | .iq3S => "IQ3S"
  | .iq3M => "IQ3M"
  | .iq4XS => "IQ4XS"
  | .iq4NL => "IQ4NL"
  | .fp16 => "FP16"
  | .bf16 => "BF16"
  | .fp32 => "FP32"
  | .unknown => "Unknown"

structure MmprojInfo where
  sizeBytes : UInt64
  hash : Blake3Hash
  sha256 : Vector UInt8 32
  deriving DecidableEq

structure ShardTensorEntry where
  name : String
  ggufOffset : UInt64
  shardOffset : UInt64
  size : UInt64
  deriving DecidableEq

structure ShardInfo where
  index : UInt32
  layerRange : UInt32 × UInt32
  sizeBytes : UInt64
  hash : Blake3Hash
  tensors : List ShardTensorEntry
  deriving DecidableEq

-- The parameter count is a 32-bit float and kept as its bits.
structure ModelManifest where
  id : ModelId
  name : String
  architecture : ModelArchitecture
  numLayers : UInt32
  numParamsBillions : UInt32
  quantization : Quantization
  totalSizeBytes : UInt64
  shardCount : UInt32
  shards : List ShardInfo
  tokenizerHash : Blake3Hash
  manifestHash : Blake3Hash
  publisher : NodeId
  publishDate : DateTime
  license : String
  mmproj : Option MmprojInfo
  contextLength : Option UInt32
  deriving DecidableEq

-- The hash function, and the date format of the time library.
structure Hashing (Digest : Type) where
  blake3 : Bytes → Digest
  rfc3339 : DateTime → String

def ShardTensorEntry.hashed (entry : ShardTensorEntry) : Bytes :=
  utf8 entry.name ++ (leBytes 8 entry.ggufOffset.toNat ++ (leBytes 8 entry.shardOffset.toNat ++ leBytes 8 entry.size.toNat))

def ShardInfo.hashed (shard : ShardInfo) : Bytes :=
  leBytes 4 shard.index.toNat ++ (leBytes 4 shard.layerRange.1.toNat ++ (leBytes 4 shard.layerRange.2.toNat ++
    (leBytes 8 shard.sizeBytes.toNat ++ (shard.hash.toList ++ shard.tensors.flatMap ShardTensorEntry.hashed))))

-- Everything the hasher is fed, in its order; `mmproj` and `contextLength` lie outside.
def ModelManifest.hashed (rfc3339 : DateTime → String) (manifest : ModelManifest) : Bytes :=
  utf8 manifest.id.text ++ (utf8 manifest.name ++ (manifest.publisher.bytes.toList ++ (utf8 manifest.license ++
    (utf8 manifest.architecture.debug ++ (utf8 manifest.quantization.debug ++ (leBytes 4 manifest.numLayers.toNat ++
    (leBytes 4 manifest.numParamsBillions.toNat ++ (leBytes 8 manifest.totalSizeBytes.toNat ++
    (utf8 (rfc3339 manifest.publishDate) ++ (leBytes 4 manifest.shardCount.toNat ++
    (manifest.shards.flatMap ShardInfo.hashed ++ manifest.tokenizerHash.toList)))))))))))

def computeHash {Digest : Type} (hashing : Hashing Digest) (manifest : ModelManifest) : Digest :=
  hashing.blake3 (manifest.hashed hashing.rfc3339)

structure ShardIntegrity where
  expected : String
  actual : String
  deriving DecidableEq

def verifyHashStrict (hashing : Hashing Blake3Hash) (manifest : ModelManifest) : Except ShardIntegrity Unit :=
  if manifest.manifestHash = zeroHash then
    .error { expected := "non-zero manifest hash", actual := "zero hash (unsigned manifest)" }
  else
    let computed := computeHash hashing manifest
    if computed ≠ manifest.manifestHash then
      .error { expected := hexEncode manifest.manifestHash.toList, actual := hexEncode computed.toList }
    else .ok ()

def maxLayersPerManifest : UInt32 := 512

def declaresMoreLayersThanAnyModel (manifest : ModelManifest) : Bool :=
  manifest.numLayers > maxLayersPerManifest ||
    (manifest.shards.filter fun shard => shard.index != mmprojShardIndex).any fun shard =>
      shard.layerRange.2 > maxLayersPerManifest

def backupArtifactSegments : List String :=
  ["fullbackup", "backup", "bak", "old", "orig", "copy", "save", "tmp", "temp"]

def lastSegment (text : Text) : Text := (text.reverse.takeWhile fun symbol => symbol != '.').reverse

def isBackupArtifactId (id : String) : Bool :=
  let lower := (trim id.toList).map Char.toLower
  if lower.isEmpty then false
  else if ["~", " copy", "-copy", "(copy)"].any fun ending => ending.toList.isSuffixOf lower then true
  else backupArtifactSegments.any fun segment => segment.toList == lastSegment lower

def maxVisionEncoderBytes : UInt64 := 4294967296

def usablePin (pin : MmprojInfo) : Bool :=
  pin.sizeBytes > 0 && pin.sizeBytes ≤ maxVisionEncoderBytes && pin.hash != zeroHash

def keepKnownVisionEncoder (incoming : ModelManifest) (known : Option ModelManifest) (differentBuild : Bool)
    (origin : Option Blake3Hash) : ModelManifest × Bool :=
  let theirs := incoming.mmproj
  let ours := ((known.filter fun _ => !differentBuild).bind (·.mmproj)).filter usablePin
  let candidates := ours.toList ++ (theirs.filter usablePin).toList
  let kept := match origin with
    | some fetched => candidates.find? fun pin => pin.hash == fetched
    | none => candidates.head?
  ({ incoming with mmproj := kept }, theirs.any fun pin => kept != some pin)

def knownHash (known : ModelManifest) (index : UInt32) : Option Blake3Hash :=
  (known.shards.find? fun shard => shard.index == index && shard.hash != zeroHash).map (·.hash)

-- A pass over the parts that replaces the hash of each part the rule answers for, and
-- counts those parts.
def amendHashes (rule : ShardInfo → Option Blake3Hash) (manifest : ModelManifest) : ModelManifest × Nat :=
  ({ manifest with shards := manifest.shards.map fun shard => { shard with hash := (rule shard).getD shard.hash } },
    manifest.shards.countP fun shard => (rule shard).isSome)

def mergeKnownShardHashes (incoming known : ModelManifest) : ModelManifest × Nat :=
  amendHashes (fun shard => if shard.hash ≠ zeroHash then none else knownHash known shard.index) incoming

def keepKnownHashesOverContradictingOnes (incoming known : ModelManifest) (heldLocally : List UInt32) : ModelManifest × Nat :=
  amendHashes (fun shard =>
    if shard.hash = zeroHash ∨ shard.index ∈ heldLocally then none
    else (knownHash known shard.index).filter fun ours => ours != shard.hash) incoming

end SwarmLlm.Model
