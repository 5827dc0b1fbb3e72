import SwarmLlm.Lib.Run
import SwarmLlm.Lib.Table
import SwarmLlm.Model.Manifest

namespace SwarmLlm.Daemon

open Lib Model

abbrev Instant := Int

def sinceThen (now earlier : Instant) : Int := max 0 (now - earlier)

def pullPatience : Int := 20 * secondsNs

def seenFor : Int := 24 * hourNs

def retryWaitsAtMost : Int := 300 * secondsNs

def maxDigestVersions : Nat := 1024

def maxPullModels : Nat := 64

def maxModelIdBytes : Nat := 256

def maxPullsInFlight : Nat := 1024

def maxSeenVersions : Nat := 16384

def answersPerWindow : Nat := 128

abbrev Version (Digest : Type) := ModelId × Digest

structure ManifestVersion (Digest : Type) where
  modelId : ModelId
  manifestHash : Digest
  contextLength : Option UInt32

structure Pull where
  since : Instant
  askedOf : NodeId
  sent : Bool
  retried : Bool

def Pull.isFresh (pull : Pull) (now : Instant) : Bool := pull.sent && decide (sinceThen now pull.since < pullPatience)

-- The receiving half's memory: what has been seen, with the context length last declared
-- for it, and what is being pulled.
structure ManifestSync (Digest : Type) where
  seen : Table (Version Digest) (Option UInt32 × Instant)
  inFlight : Table (Version Digest) Pull

namespace ManifestSync

variable {Digest : Type} [DecidableEq Digest]

def noteSeen (sync : ManifestSync Digest) (now : Instant) (model : ModelId) (manifestHash : Digest)
    (contextLength : Option UInt32) : ManifestSync Digest :=
  if (utf8 model.text).length > maxModelIdBytes then sync
  else
    let key := (model, manifestHash)
    let inFlight := sync.inFlight.erase key
    match sync.seen.lookup key with
    | some (context, _) =>
      let declared := if contextLength.isSome then contextLength else context
      ⟨sync.seen.insert key (declared, now), inFlight⟩
    | none =>
      if sync.seen.entries.length ≥ maxSeenVersions then
        let recent := sync.seen.retain fun _ entry => decide (sinceThen now entry.2 < seenFor)
        if recent.entries.length ≥ maxSeenVersions then ⟨recent, inFlight⟩
        else ⟨recent.insert key (contextLength, now), inFlight⟩
      else ⟨sync.seen.insert key (contextLength, now), inFlight⟩

def forgetUnanswerable (sync : ManifestSync Digest) (now : Instant) : ManifestSync Digest :=
  { sync with inFlight := sync.inFlight.retain fun _ pull =>
      pull.isFresh now || (!pull.retried && decide (sinceThen now pull.since < retryWaitsAtMost)) }

def declaresMore (version : ManifestVersion Digest) (context : Option UInt32) : Bool :=
  version.contextLength.isSome && context != version.contextLength

def wanted (sync : ManifestSync Digest) (now : Instant) (held : ModelId → Option (Digest × Option UInt32))
    (version : ManifestVersion Digest) : Bool :=
  (match held version.modelId with
    | some (hash, context) => if hash = version.manifestHash then declaresMore version context else true
    | none => true) &&
  !(sync.seen.lookup (version.modelId, version.manifestHash)).any fun entry =>
    decide (sinceThen now entry.2 < seenFor) && !declaresMore version entry.1

structure PullLoop (Digest : Type) where
  sync : ManifestSync Digest
  room : Nat
  fromRoom : Nat
  asked : List ModelId
  pull : List (Version Digest)

def pullVersion (now : Instant) (peer : NodeId) (held : ModelId → Option (Digest × Option UInt32)) (loop : PullLoop Digest)
    (version : ManifestVersion Digest) : PullLoop Digest :=
  if (utf8 version.modelId.text).length > maxModelIdBytes || loop.asked.contains version.modelId then loop
  else
    let loop := { loop with asked := version.modelId :: loop.asked }
    if !loop.sync.wanted now held version then loop
    else
      let key := (version.modelId, version.manifestHash)
      let taken : PullLoop Digest := { loop with
        sync := { loop.sync with inFlight := loop.sync.inFlight.insert key ⟨now, peer, true, false⟩ }
        fromRoom := loop.fromRoom - 1, pull := loop.pull ++ [key] }
      match loop.sync.inFlight.lookup key with
      | some pulling => if pulling.retried && !pulling.isFresh now then taken else loop
      | none => if loop.room = 0 then loop else { taken with room := loop.room - 1 }

def pullVersions (now : Instant) (peer : NodeId) (held : ModelId → Option (Digest × Option UInt32)) :
    PullLoop Digest → List (ManifestVersion Digest) → PullLoop Digest
  | loop, [] => loop
  | loop, version :: rest =>
    if loop.pull.length ≥ maxPullModels ∨ loop.fromRoom = 0 then loop
    else pullVersions now peer held (pullVersion now peer held loop version) rest

def versionsToPull (sync : ManifestSync Digest) (now : Instant) (digest : List (ManifestVersion Digest)) (peer : NodeId)
    (held : ModelId → Option (Digest × Option UInt32)) : ManifestSync Digest × List (Version Digest) :=
  let sync := if sync.inFlight.entries.length ≥ maxPullsInFlight then sync.forgetUnanswerable now else sync
  let room := maxPullsInFlight - sync.inFlight.entries.length
  let fromRoom := answersPerWindow -
    sync.inFlight.values.countP fun pull => decide (pull.askedOf = peer) && !pull.retried && pull.isFresh now
  let done := pullVersions now peer held ⟨sync, room, fromRoom, [], []⟩ (digest.take maxDigestVersions)
  (done.sync, done.pull)

end ManifestSync

end SwarmLlm.Daemon
