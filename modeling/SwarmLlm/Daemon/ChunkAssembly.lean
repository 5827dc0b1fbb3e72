import SwarmLlm.Lib.Saturating
import SwarmLlm.Lib.Table
import SwarmLlm.Network.Trailers

namespace SwarmLlm.Daemon

open Lib Network

def chunkCount (total chunkSize : Nat) : Nat := min ((total + chunkSize - 1) / chunkSize) u32Max

def chunkFrame (forward : LayerForward) (chunkSize totalChunks idx : Nat) : LayerForward :=
  let start := idx * chunkSize
  let stop := min ((idx + 1) * chunkSize) forward.activations.length
  { forward with
    activations := (forward.activations.drop start).take (stop - start)
    chunkMeta := some ⟨.ofNat idx, .ofNat totalChunks⟩ }

def chunkLayerForward (forward : LayerForward) (chunkSizeBytes : Nat) : List LayerForward :=
  let total := forward.activations.length
  let chunkSize := max chunkSizeBytes 1
  if total ≤ chunkSize then [forward]
  else
    let totalChunks := chunkCount total chunkSize
    (List.range totalChunks).map (chunkFrame forward chunkSize totalChunks)

structure ChunkAssemblyState where
  received : List (Option Bytes)
  totalChunks : UInt32
  template : LayerForward
  senderPeerBytes : Bytes
  lastUpdateAt : Nat
  filled : Nat
  sized : received.length = totalChunks.toNat
  counted : filled = received.countP Option.isSome

namespace ChunkAssemblyState

def new (totalChunks : UInt32) (template : LayerForward) (senderPeerBytes : Bytes) (now : Nat) : ChunkAssemblyState where
  received := List.replicate totalChunks.toNat none
  totalChunks := totalChunks
  template := template
  senderPeerBytes := senderPeerBytes
  lastUpdateAt := now
  filled := 0
  sized := List.length_replicate
  counted := by simp [List.countP_replicate]

variable (state : ChunkAssemblyState)

def isComplete : Bool := state.filled == state.totalChunks.toNat

def assemble : Bytes := (state.received.filterMap id).flatten

def fill (idx now : Nat) (chunk : Bytes) (empty : state.received[idx]? = some none) :
    ChunkAssemblyState where
  received := state.received.set idx (some chunk)
  totalChunks := state.totalChunks
  template := state.template
  senderPeerBytes := state.senderPeerBytes
  lastUpdateAt := now
  filled := state.filled + 1
  sized := (List.length_set ..).trans state.sized
  counted := by
    obtain ⟨inside, slot⟩ := List.getElem?_eq_some_iff.mp empty
    simp [List.countP_set, inside, slot, state.counted]

def file (chunk : ChunkMeta) (forward : LayerForward) (sender : Bytes) (now : Nat) :
    Except SwarmError ChunkAssemblyState :=
  if state.totalChunks ≠ chunk.totalChunks then
    .error (.network s!"chunk total_chunks mismatch: stored={state.totalChunks}, got={chunk.totalChunks}")
  else if state.senderPeerBytes ≠ sender then .error (.network "chunk sender peer changed mid-transfer")
  else
    match empty : state.received[chunk.chunkIdx.toNat]? with
    | some none => .ok (state.fill chunk.chunkIdx.toNat now forward.activations empty)
    | _ => .error (.network
        ("duplicate chunk_idx=" ++ toString chunk.chunkIdx ++ " for request_id=" ++ forward.requestId.display))

def opened (chunk : ChunkMeta) (forward : LayerForward) (sender : Bytes) (now : Nat) (valid : ¬chunk.invalid = true) :
    ChunkAssemblyState :=
  (new chunk.totalChunks { forward with activations := [], chunkMeta := none } sender now).fill chunk.chunkIdx.toNat now
    forward.activations (by
      simp only [ChunkMeta.invalid, Bool.or_eq_true, beq_iff_eq, decide_eq_true_eq, not_or, UInt32.not_le] at valid
      rw [new, List.getElem?_replicate, if_pos (UInt32.lt_iff_toNat_lt.mp valid.2)])

def complete : LayerForward :=
  { state.template with activations := state.assemble, senderPeerBytes := some state.senderPeerBytes }

end ChunkAssemblyState

abbrev PendingChunks := Table Uuid ChunkAssemblyState

def maxTotalChunks : UInt32 := 4096

def fileChunk (pending : PendingChunks) (chunk : ChunkMeta) (forward : LayerForward) (sender : Bytes) (now : Nat)
    (valid : ¬chunk.invalid = true) : Except SwarmError ChunkAssemblyState :=
  match pending.lookup forward.requestId with
  | some state => state.file chunk forward sender now
  | none => .ok (.opened chunk forward sender now valid)

-- A chunk for a request whose assembly is complete is refused as a duplicate, so
-- nothing comes between filing a chunk and taking out what it completed.
def tryAssembleChunkedForward (pending : PendingChunks) (forward : LayerForward) (sender : Bytes) (now : Nat) :
    Except SwarmError (Option LayerForward) × PendingChunks :=
  match forward.chunkMeta with
  | none => (.error (.network "chunked assembly called without chunk_meta"), pending)
  | some chunk =>
    if valid : chunk.invalid = true then (.error chunk.refusal, pending)
    else if maxTotalChunks < chunk.totalChunks then
      (.error (.network s!"total_chunks={chunk.totalChunks} exceeds cap {maxTotalChunks}"), pending)
    else
      match fileChunk pending chunk forward sender now valid with
      | .error error => (.error error, pending)
      | .ok state =>
        let filed := pending.insert forward.requestId state
        if state.isComplete then (.ok (some state.complete), filed.erase forward.requestId) else (.ok none, filed)

def sweepStaleChunkAssemblies (pending : PendingChunks) (ttlSecs now : Nat) : PendingChunks :=
  let ttl := ttlSecs * 1000000000
  let cutoff := if ttl ≤ now then now - ttl else now
  pending.retain fun _ state => !decide (state.lastUpdateAt < cutoff)

end SwarmLlm.Daemon
