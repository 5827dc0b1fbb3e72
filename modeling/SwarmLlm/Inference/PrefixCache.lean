import Mathlib.Data.List.Sort
import SwarmLlm.Inference.KvSnapshot
import SwarmLlm.Lib.Bytes
import SwarmLlm.Lib.Table

namespace SwarmLlm.Inference

open Lib

abbrev BlockKey := Vector UInt8 32

structure PrefixBlockEntry where
  blockHash : BlockKey
  tokenCount : UInt32
  deriving DecidableEq

-- The settings of a cache, with the order its room is made in and the hash of
-- the blocks it announces.
structure PrefixConfig where
  enabled : Bool
  maxEntries : Nat
  maxBytes : Nat
  minTokens : Nat
  maxPromptTokens : Nat
  blockTokens : Nat
  roomAfterCopy : Bool
  blake3 : Bytes → BlockKey

def blockHashes (hash : Bytes → BlockKey) (tokens : List UInt32) (blockSize : Nat) :
    Nat → Nat → Option BlockKey → List PrefixBlockEntry
  | 0, _, _ => []
  | count + 1, i, previous =>
    let block := ((tokens.drop (i * blockSize)).take blockSize).flatMap fun token => leBytes 4 token.toNat
    let key := hash ((previous.map Vector.toList).getD [] ++ block)
    ⟨key, .ofNat ((i + 1) * blockSize)⟩ :: blockHashes hash tokens blockSize count (i + 1) (some key)

def computeBlockHashes (hash : Bytes → BlockKey) (tokens : List UInt32) (blockSize : Nat) : List PrefixBlockEntry :=
  if blockSize = 0 then [] else blockHashes hash tokens blockSize (tokens.length / blockSize) 0 none

structure SnapshotCost where
  perPosition : Nat
  slidAway : Nat
  deriving DecidableEq

variable {P : Type}

def satMul (left right : Nat) : Nat := min u64Max (left * right)

def SnapshotCost.add (cost : SnapshotCost) (layer : LayerKv P) : SnapshotCost :=
  let positions := layer.currentSeqLen - layer.heldFrom
  if positions = 0 then cost
  else
    let bytes := (([layer.k, layer.v].filterMap id).map fun tensor => tensor.bytes / positions).sum
    ⟨satAddU cost.perPosition bytes, satAddU cost.slidAway (satMul bytes layer.heldFrom)⟩

def SnapshotCost.of (layers : List (Option (LayerKv P))) : SnapshotCost := (layers.filterMap id).foldl SnapshotCost.add ⟨0, 0⟩

def SnapshotCost.bytesAt (cost : SnapshotCost) (pos : Nat) : Nat := satMul cost.perPosition pos - cost.slidAway

structure SnapshotRoom where
  home : SnapshotHome
  maxPositions : Nat
  evictBytes : Nat
  deriving DecidableEq

structure LetGo where
  besideLive : Nat
  hostRam : Nat

def LetGo.inHome (letGo : LetGo) : SnapshotHome → Nat
  | .besideLive => letGo.besideLive
  | .hostRam => letGo.hostRam

-- An entry is keyed by a prompt's tokens or, for a split's segment, by a chain
-- of block keys; the other key is empty.
structure Entry (P : Type) where
  tokens : List UInt32
  chain : List BlockKey
  chainBlock : UInt32
  snapshot : KvSnapshot P
  lastHit : Nat
  keptHere : Bool

open Entry

namespace Entry

def coversTokens (tokens : List UInt32) (len : Nat) (entry : Entry P) : Bool :=
  tokens.isPrefixOf entry.tokens && decide (entry.snapshot.servesFrom ≤ len)

def replacedByTokens (tokens : List UInt32) (serves : Nat) (entry : Entry P) : Bool :=
  entry.chain.isEmpty && entry.tokens.isPrefixOf tokens && decide (serves ≤ entry.tokens.length)

variable (chain : List BlockKey) (blockTokens : UInt32)

def coversChain (positions : Nat) (entry : Entry P) : Bool :=
  entry.chainBlock == blockTokens && chain.isPrefixOf entry.chain && decide (positions ≤ entry.snapshot.tokenCount) &&
    decide (entry.snapshot.servesFrom ≤ positions)

def replacedByChain (serves : Nat) (entry : Entry P) : Bool :=
  !entry.chain.isEmpty && entry.chainBlock == blockTokens && entry.chain.isPrefixOf chain &&
    decide (serves ≤ entry.snapshot.tokenCount)

def manifest (hash : Bytes → BlockKey) (blockSize : Nat) (entry : Entry P) : List PrefixBlockEntry :=
  if entry.keptHere || !entry.snapshot.holdsEveryPosition || entry.snapshot.carriesRecurrentState then []
  else computeBlockHashes hash entry.tokens blockSize

end Entry

def LetGo.of (entries : List (Entry P)) : LetGo :=
  entries.foldl (fun sum entry =>
    ⟨sum.besideLive + entry.snapshot.bytesIn .besideLive, sum.hostRam + entry.snapshot.bytesIn .hostRam⟩) ⟨0, 0⟩

def unseenBlocks (blocks : List PrefixBlockEntry) (out : List PrefixBlockEntry) : List PrefixBlockEntry :=
  blocks.foldl (fun out block => if out.any (·.blockHash == block.blockHash) then out else out ++ [block]) out

def enumerateManifest (cfg : PrefixConfig) (bucket : List (Entry P)) : List PrefixBlockEntry :=
  if cfg.blockTokens = 0 then []
  else bucket.foldl (fun out entry => unseenBlocks (entry.manifest cfg.blake3 cfg.blockTokens) out) []

structure PrefixCache (P : Type) where
  perModel : Table String (List (Entry P))
  clock : Nat

namespace PrefixCache

def new : PrefixCache P := ⟨∅, 0⟩

variable (cfg : PrefixConfig) (cache : PrefixCache P) (model : String)

def bucket : List (Entry P) := (cache.perModel.lookup model).getD []

def setBucket (entries : List (Entry P)) : PrefixCache P :=
  { cache with perModel := cache.perModel.insert model entries }

def hit (index : Nat) : PrefixCache P :=
  let tick := cache.clock + 1
  { cache.setBucket model ((cache.bucket model).modify index fun entry => { entry with lastHit := tick }) with clock := tick }

def sharedLen (left right : List UInt32) : Nat := ((left.zip right).takeWhile fun pair => pair.1 == pair.2).length

def better (index usable : Nat) : Option (Nat × Nat) → Option (Nat × Nat)
  | none => some (index, usable)
  | some (other, current) => if current < usable then some (index, usable) else some (other, current)

def best (cfg : PrefixConfig) (tokens : List UInt32) : List (Entry P) → Nat → Option (Nat × Nat) → Option (Nat × Nat)
  | [], _, found => found
  | entry :: rest, index, found =>
    let usable := min (sharedLen entry.tokens tokens) (tokens.length - 1)
    best cfg tokens rest (index + 1)
      (if usable < cfg.minTokens || usable < entry.snapshot.servesFrom then found else better index usable found)

def cut (full : KvSnapshot P) (count : Nat) (narrowFails : Bool) : Option (KvSnapshot P) :=
  if count = full.tokenCount then some full else if narrowFails then none else narrowSnapshot full count

-- Narrowing copies a tensor, which a device may refuse.
def lookup (tokens : List UInt32) (narrowFails : Bool) :
    Option (KvSnapshot P) × PrefixCache P :=
  if !cfg.enabled || tokens.length < cfg.minTokens then (none, cache)
  else
    match best cfg tokens (cache.bucket model) 0 none with
    | none => (none, cache)
    | some (index, usable) =>
      (((cache.bucket model)[index]?).bind fun winner => cut winner.snapshot usable narrowFails, cache.hit model index)

def lookupChain (blockTokens : UInt32) (keys : List BlockKey)
    (want : Nat) (narrowFails : Bool) : Option (KvSnapshot P) × PrefixCache P :=
  let bt := blockTokens.toNat
  if !cfg.enabled || bt = 0 || want = 0 || want % bt ≠ 0 then (none, cache)
  else if keys.length < want / bt then (none, cache)
  else
    let wanted := keys.take (want / bt)
    match (cache.bucket model).findIdx? (coversChain wanted blockTokens want) with
    | none => (none, cache)
    | some index =>
      (((cache.bucket model)[index]?).bind fun winner => cut winner.snapshot want narrowFails, cache.hit model index)

def byLastHit (entries : List (Entry P)) : List (Entry P) := entries.insertionSort fun left right => left.lastHit ≤ right.lastHit

def totalBytes (entries : List (Entry P)) : Nat := (entries.map fun entry => entry.snapshot.bytes).sum

-- The oldest entries that go so that a new one fits both caps, and the rest.
def dropOldest (cfg : PrefixConfig) (incoming : Nat) : Nat → List (Entry P) → List (Entry P) × List (Entry P)
  | _, [] => ([], [])
  | total, oldest :: rest =>
    if cfg.maxEntries ≤ rest.length + 1 || (0 < cfg.maxBytes && cfg.maxBytes < satAddU total incoming) then
      let dropped := dropOldest cfg incoming (total - oldest.snapshot.bytes) rest
      (oldest :: dropped.1, dropped.2)
    else ([], oldest :: rest)

variable (perModel : Table String (List (Entry P))) (needed : Nat) (home : SnapshotHome)

def leastRecentlyHit : Option (Nat × String × Nat) :=
  let kept := perModel.entries.flatMap fun bucket =>
    (bucket.2.zipIdx.filter fun entry => entry.1.snapshot.home = home).map fun entry => (entry.1.lastHit, bucket.1, entry.2)
  kept.foldl (fun oldest candidate =>
    match oldest with
    | none => some candidate
    | some (tick, _, _) => if candidate.1 < tick then some candidate else oldest) none

def withoutEntry (model : String) (index : Nat) : Table String (List (Entry P)) :=
  let rest := ((perModel.lookup model).getD []).eraseIdx index
  if rest.isEmpty then perModel.erase model else perModel.insert model rest

-- Every turn of the loop takes an entry out, so as many turns as there are entries are enough.
def takeOldest (needed : Nat) (home : SnapshotHome) :
    Nat → Nat → Table String (List (Entry P)) → List (Entry P) × Table String (List (Entry P))
  | 0, _, perModel => ([], perModel)
  | fuel + 1, freed, perModel =>
    if needed ≤ freed then ([], perModel)
    else
      match leastRecentlyHit perModel home with
      | none => ([], perModel)
      | some (_, model, index) =>
        match ((perModel.lookup model).getD [])[index]? with
        | none => ([], perModel)
        | some removed =>
          let taken := takeOldest needed home fuel (satAddU freed removed.snapshot.bytes) (withoutEntry perModel model index)
          (removed :: taken.1, taken.2)

def takeLeastRecentlyHit :
    List (Entry P) × Table String (List (Entry P)) :=
  takeOldest needed home (perModel.values.map List.length).sum 0 perModel

def release : Nat × PrefixCache P :=
  let taken := takeLeastRecentlyHit cache.perModel needed home
  (totalBytes taken.1, { cache with perModel := taken.2 })

-- What goes before a copy: what it replaces, what the caps drop, and whether
-- something replaced was to be kept here.
structure RoomMade (P : Type) where
  replaced : List (Entry P)
  dropped : List (Entry P)

def RoomMade.replacedKeptHere (made : RoomMade P) : Bool := made.replaced.any keptHere

def makeRoomIn (bucket : List (Entry P)) (superseded : Entry P → Bool) (incoming : Nat) :
    RoomMade P × List (Entry P) :=
  let left := byLastHit (bucket.filter fun entry => !superseded entry)
  let dropped := dropOldest cfg incoming (totalBytes left) left
  (⟨bucket.filter superseded, dropped.1⟩, dropped.2)

def makeRoomForModel (superseded : Entry P → Bool)
    (incoming : Nat) : RoomMade P × Table String (List (Entry P)) :=
  match if cfg.roomAfterCopy then none else cache.perModel.lookup model with
  | none => (⟨[], []⟩, cache.perModel)
  | some bucket =>
    let made := makeRoomIn cfg bucket superseded incoming
    (made.1, if made.2.isEmpty then cache.perModel.erase model else cache.perModel.insert model made.2)

def makeRoom (superseded : Entry P → Bool) (incoming : Nat)
    (room : SnapshotRoom) : RoomMade P × PrefixCache P :=
  let (made, perModel) := makeRoomForModel cfg cache model superseded incoming
  let freed := (made.dropped.map fun entry => entry.snapshot.bytesIn room.home).sum
  if freed < room.evictBytes then
    let taken := takeLeastRecentlyHit perModel (room.evictBytes - freed) room.home
    ({ made with dropped := made.dropped ++ taken.1 }, { cache with perModel := taken.2 })
  else (made, { cache with perModel := perModel })

def dropOverBytes (maxBytes : Nat) : Nat → List (Entry P) → List (Entry P)
  | _, [] => []
  | _, [last] => [last]
  | total, oldest :: next :: rest =>
    if maxBytes < total then dropOverBytes maxBytes (total - oldest.snapshot.bytes) (next :: rest) else oldest :: next :: rest

def evictOverCount (bucket : List (Entry P)) : List (Entry P) :=
  if cfg.maxEntries < bucket.length then (byLastHit bucket).drop (bucket.length - cfg.maxEntries) else bucket

def evictOverCaps (bucket : List (Entry P)) : List (Entry P) :=
  let counted := evictOverCount cfg bucket
  if 0 < cfg.maxBytes && cfg.maxBytes < totalBytes counted then dropOverBytes cfg.maxBytes (totalBytes counted) (byLastHit counted)
  else counted

def letGo (replaced : Entry P → Bool) : LetGo :=
  .of ((cache.bucket model).filter replaced)

def coveredByTokens (tokens : List UInt32) (len : Nat) :
    Option (List PrefixBlockEntry × PrefixCache P) := do
  let index ← (cache.bucket model).findIdx? (coversTokens tokens len)
  return (enumerateManifest cfg (cache.bucket model), cache.hit model index)

def coveredByChain (chain : List BlockKey) (blockTokens : UInt32) (positions : Nat) :
    Option (UInt32 × PrefixCache P) := do
  let index ← (cache.bucket model).findIdx? (coversChain chain blockTokens positions)
  return (.ofNat chain.length, cache.hit model index)

end PrefixCache

def positionsCeiling (cfg : PrefixConfig) (cost : SnapshotCost) : Nat :=
  let byTokens := if cfg.maxPromptTokens = 0 then u64Max else cfg.maxPromptTokens
  let byBytes :=
    if cfg.maxBytes = 0 || cost.perPosition = 0 then u64Max else satAddU cfg.maxBytes cost.slidAway / cost.perPosition
  min byTokens byBytes

structure HeldCache where
  dim : Nat
  maxSeqLen : Nat
  positions : Nat
  cost : SnapshotCost
  serves : Nat
  recurrentAt : List Nat

namespace HeldCache

def positionsOf (layers : List (Option (LayerKv P))) : Nat := ((layers.filterMap id).head?.map LayerKv.currentSeqLen).getD 0

def read (kv : KvCacheEntry P) : Option HeldCache := do
  let first ← (kv.layers.filterMap id).head?
  return {
    dim := first.dim
    maxSeqLen := first.maxSeqLen
    positions := first.currentSeqLen
    cost := .of kv.layers
    serves := servesFrom kv.layers
    recurrentAt := (kv.ssmStates.filterMap id).map SsmState.positions }

def servesOnceSaved (held : HeldCache) (len : Nat) : Nat := if held.recurrentAt.isEmpty then held.serves else len

end HeldCache

abbrev KvCacheStore (P : Type) := Table String (KvCacheEntry P)

variable (cfg : PrefixConfig) (cache : PrefixCache P) (model : String)

def cacheKey (request : String) : String := model ++ "\x00" ++ request

namespace PrefixCache

def fitTokens (held : HeldCache) (prompt : List UInt32) (whole : Nat)
    (planned : LetGo) (room : SnapshotRoom) : Except (List PrefixBlockEntry × PrefixCache P) (Nat × SnapshotRoom) :=
  let available := min whole room.maxPositions
  if room.maxPositions = 0 || available < cfg.minTokens then .error ([], cache)
  else if available < held.serves then .error ([], cache)
  else if held.recurrentAt.any fun position => position ≠ available then .error ([], cache)
  else if available < whole then
    match cache.coveredByTokens cfg model (prompt.take available) available with
    | some covered => .error covered
    | none =>
      let letGo := cache.letGo model (replacedByTokens (prompt.take available) (held.servesOnceSaved available))
      if letGo.inHome room.home < planned.inHome room.home then .error ([], cache) else .ok (available, room)
  else .ok (available, room)

def planTokens (held : HeldCache) (prompt : List UInt32)
    (room : LetGo → SnapshotRoom) : Except (List PrefixBlockEntry × PrefixCache P) (Nat × SnapshotRoom) :=
  let whole := min (min held.positions prompt.length) (positionsCeiling cfg held.cost)
  if whole < cfg.minTokens then .error ([], cache)
  else
    match cache.coveredByTokens cfg model (prompt.take whole) whole with
    | some covered => .error covered
    | none =>
      let planned := cache.letGo model (replacedByTokens (prompt.take whole) (held.servesOnceSaved whole))
      fitTokens cfg cache model held prompt whole planned (room planned)

def storeTokens (tokens : List UInt32) (snap : KvSnapshot P)
    (keep replacedKeptHere : Bool) : List PrefixBlockEntry × PrefixCache P :=
  let tick := cache.clock + 1
  let replaced := replacedByTokens tokens snap.servesFrom
  let bucket := cache.bucket model
  let keptHere := keep || replacedKeptHere || bucket.any fun entry => replaced entry && entry.keptHere
  let entry : Entry P := ⟨tokens, [], 0, snap, tick, keptHere⟩
  let stored := evictOverCaps cfg ((bucket.filter fun entry => !replaced entry) ++ [entry])
  (enumerateManifest cfg stored, { cache.setBucket model stored with clock := tick })

def saveTokens (kv : KvCacheEntry P) (held : HeldCache)
    (prompt : List UInt32) (available : Nat) (room : SnapshotRoom) (keep copyFails : Bool) :
    List PrefixBlockEntry × PrefixCache P :=
  if HeldCache.positionsOf kv.layers < available then ([], cache)
  else
    let tokens := prompt.take available
    let (made, roomy) := cache.makeRoom cfg model (replacedByTokens tokens (held.servesOnceSaved available))
      (held.cost.bytesAt available) room
    match if copyFails then none else snapshotAt kv.layers kv.ssmStates available held.dim held.maxSeqLen room.home with
    | none => ([], roomy)
    | some snap => roomy.storeTokens cfg model tokens snap keep made.replacedKeptHere

-- Copying takes memory, which a device may refuse.
def insertFromKv (request : String) (kvStore : KvCacheStore P)
    (prompt : List UInt32) (room : LetGo → SnapshotRoom) (keep copyFails : Bool) : List PrefixBlockEntry × PrefixCache P :=
  if !cfg.enabled || prompt.length < cfg.minTokens then ([], cache)
  else
    match kvStore.lookup (cacheKey model request) with
    | none => ([], cache)
    | some kv =>
      match HeldCache.read kv with
      | none => ([], cache)
      | some held =>
        match planTokens cfg cache model held prompt room with
        | .error answered => answered
        | .ok (available, room) => saveTokens cfg cache model kv held prompt available room keep copyFails

def fitChain (held : HeldCache) (blockTokens : UInt32)
    (keys : List BlockKey) (whole : Nat) (planned : LetGo) (room : SnapshotRoom) :
    Except (UInt32 × PrefixCache P) (Nat × SnapshotRoom) :=
  let bt := blockTokens.toNat
  let positions := min whole room.maxPositions / bt * bt
  let chain := keys.take (positions / bt)
  if positions / bt = 0 || positions < cfg.minTokens then .error (0, cache)
  else if positions < held.serves then .error (0, cache)
  else if positions < whole then
    match cache.coveredByChain model chain blockTokens positions with
    | some covered => .error covered
    | none =>
      let letGo := cache.letGo model (replacedByChain chain blockTokens held.serves)
      if letGo.inHome room.home < planned.inHome room.home then .error (0, cache) else .ok (positions, room)
  else .ok (positions, room)

def planChain (held : HeldCache) (blockTokens : UInt32)
    (keys : List BlockKey) (room : LetGo → SnapshotRoom) : Except (UInt32 × PrefixCache P) (Nat × SnapshotRoom) :=
  let bt := blockTokens.toNat
  let whole := min (min held.positions (keys.length * bt)) (positionsCeiling cfg held.cost) / bt * bt
  if whole = 0 || whole < cfg.minTokens then .error (0, cache)
  else
    match cache.coveredByChain model (keys.take (whole / bt)) blockTokens whole with
    | some covered => .error covered
    | none =>
      let planned := cache.letGo model (replacedByChain (keys.take (whole / bt)) blockTokens held.serves)
      fitChain cfg cache model held blockTokens keys whole planned (room planned)

def storeChain (chain : List BlockKey) (blockTokens : UInt32)
    (snap : KvSnapshot P) : UInt32 × PrefixCache P :=
  let tick := cache.clock + 1
  let left := (cache.bucket model).filter fun entry => !replacedByChain chain blockTokens snap.servesFrom entry
  let entry : Entry P := ⟨[], chain, blockTokens, snap, tick, false⟩
  let stored := evictOverCaps cfg (left ++ [entry])
  let kept := stored.any fun entry => entry.chainBlock == blockTokens && entry.chain == chain
  (if kept then .ofNat chain.length else 0, { cache.setBucket model stored with clock := tick })

def saveChain (kv : KvCacheEntry P) (held : HeldCache)
    (blockTokens : UInt32) (keys : List BlockKey) (positions : Nat) (room : SnapshotRoom) (copyFails : Bool) :
    UInt32 × PrefixCache P :=
  if HeldCache.positionsOf kv.layers < positions then (0, cache)
  else
    let chain := keys.take (positions / blockTokens.toNat)
    let (_, roomy) := cache.makeRoom cfg model (replacedByChain chain blockTokens held.serves)
      (held.cost.bytesAt positions) room
    match if copyFails then none else snapshotAt kv.layers [] positions held.dim held.maxSeqLen room.home with
    | none => (0, roomy)
    | some snap => roomy.storeChain cfg model chain blockTokens snap

def insertChainFromKv (request : String) (kvStore : KvCacheStore P)
    (blockTokens : UInt32) (keys : List BlockKey) (room : LetGo → SnapshotRoom) (copyFails : Bool) : UInt32 × PrefixCache P :=
  if !cfg.enabled || blockTokens.toNat = 0 || keys.isEmpty then (0, cache)
  else
    match kvStore.lookup (cacheKey model request) with
    | none => (0, cache)
    | some kv =>
      match HeldCache.read kv with
      | none => (0, cache)
      | some held =>
        if !held.recurrentAt.isEmpty then (0, cache)
        else
          match planChain cfg cache model held blockTokens keys room with
          | .error answered => answered
          | .ok (positions, room) => saveChain cfg cache model kv held blockTokens keys positions room copyFails

end PrefixCache

-- The calls on a cache, with what the worker's planner answers and which copies its devices refuse.
inductive PrefixCall (P : Type) where
  | insertFromKv (model request : String) (kvStore : KvCacheStore P) (prompt : List UInt32) (room : LetGo → SnapshotRoom)
      (keep copyFails : Bool)
  | insertChainFromKv (model request : String) (kvStore : KvCacheStore P) (blockTokens : UInt32) (keys : List BlockKey)
      (room : LetGo → SnapshotRoom) (copyFails : Bool)
  | lookup (model : String) (tokens : List UInt32) (narrowFails : Bool)
  | lookupChain (model : String) (blockTokens : UInt32) (keys : List BlockKey) (want : Nat) (narrowFails : Bool)
  | release (needed : Nat) (home : SnapshotHome)

def PrefixCache.step : PrefixCall P → PrefixCache P
  | .insertFromKv model request kvStore prompt room keep copyFails =>
    (cache.insertFromKv cfg model request kvStore prompt room keep copyFails).2
  | .insertChainFromKv model request kvStore blockTokens keys room copyFails =>
    (cache.insertChainFromKv cfg model request kvStore blockTokens keys room copyFails).2
  | .lookup model tokens narrowFails => (cache.lookup cfg model tokens narrowFails).2
  | .lookupChain model blockTokens keys want narrowFails => (cache.lookupChain cfg model blockTokens keys want narrowFails).2
  | .release needed home => (cache.release needed home).2

end SwarmLlm.Inference
