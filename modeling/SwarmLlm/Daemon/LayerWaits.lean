import SwarmLlm.Types
import SwarmLlm.Lib.Rely
import SwarmLlm.Lib.Table

namespace SwarmLlm.Daemon

open Lib

structure WaiterKey where
  requestId : Uuid
  streamSeq : Option Nat
  deriving DecidableEq

def WaiterKey.request (requestId : Uuid) : WaiterKey := ⟨requestId, none⟩

def WaiterKey.streamed (requestId : Uuid) (seq : Nat) : WaiterKey := ⟨requestId, some seq⟩

structure ResultStep where
  indexPos : Nat
  layerRange : Nat × Nat
  streamSeq : Option Nat
  deriving DecidableEq

inductive Answer (P : Type) where
  | carries (payload : P)
  | error (reason : String)
  deriving DecidableEq

structure LayerResult (P : Type) where
  requestId : Uuid
  answersStep : Option ResultStep
  locallyConstructed : Bool
  answer : Answer P
  deriving DecidableEq

variable {P : Type}

def LayerResult.error (requestId : Uuid) (reason : String) : LayerResult P := ⟨requestId, none, true, .error reason⟩

def WaiterKey.ofResult (result : LayerResult P) : WaiterKey :=
  ⟨result.requestId, result.answersStep.bind ResultStep.streamSeq⟩

structure ExpectedStep where
  indexPos : Nat
  layerRanges : List (Nat × Nat)
  deriving DecidableEq

def ExpectedStep.admits (expected : ExpectedStep) (step : ResultStep) : Bool :=
  step.indexPos == expected.indexPos && expected.layerRanges.contains step.layerRange

-- The sending half of a wait's channel is named by a number of its own.
structure PendingLayerResult where
  tx : Nat
  awaiting : Option NodeId
  chainMembers : List NodeId
  expectsStep : Option ExpectedStep
  deriving DecidableEq

namespace PendingLayerResult

variable (pending : PendingLayerResult)

def admitsStep (answers : Option ResultStep) : Bool :=
  match pending.expectsStep, answers with
  | some expected, some answered => expected.admits answered
  | _, _ => true

def admitsSender (sender : Option NodeId) : Bool :=
  match pending.awaiting, sender with
  | none, _ => true
  | some expected, some actual => expected == actual || pending.chainMembers.contains actual
  | some _, none => false

def accepts (sender : Option NodeId) (answers : Option ResultStep) : Bool :=
  pending.admitsStep answers && pending.admitsSender sender

end PendingLayerResult

-- Whom a wait is pinned to; the other nodes of its run may fail it.
structure Pin where
  node : NodeId
  chain : List NodeId
  deriving DecidableEq

structure Waits where
  table : Table WaiterKey PendingLayerResult
  issued : Nat

def Waits.none : Waits := ⟨∅, 0⟩

-- The map keeps its locks by shard; an iteration reads one shard at a time.
structure Sharding where
  shards : List Nat
  shardOf : WaiterKey → Nat
  covers : ∀ key, shardOf key ∈ shards

-- The accesses that are one section each. An insert drops the wait it replaces.
inductive WaitOp (P : Type) where
  | len
  | insert (key : WaiterKey) (pin : Option Pin) (expects : Option ExpectedStep)
  | containsKey (key : WaiterKey)
  | streamedIn (shard : Nat) (requestId : Uuid) (sender : Option NodeId)
  | removeIf (key : WaiterKey) (sender : Option NodeId) (result : LayerResult P)
  | remove (key : WaiterKey)
  | awaitingIn (shard : Nat) (node : NodeId)

abbrev WaitOp.Reply : WaitOp P → Type
  | .len => Nat
  | .insert _ _ _ => Nat
  | .containsKey _ => Bool
  | .streamedIn _ _ _ => List WaiterKey
  | .removeIf _ _ _ => Option PendingLayerResult
  | .remove _ => Unit
  | .awaitingIn _ _ => List (WaiterKey × Option ResultStep)

abbrev WaitThread (P R : Type) := Routine (fun op : WaitOp P => op.Reply) R

def WaitOp.perform (op : WaitOp P) : WaitThread P op.Reply := Routine.perform op

def Pin.wait (pin : Option Pin) (expects : Option ExpectedStep) (tx : Nat) : PendingLayerResult :=
  ⟨tx, pin.map Pin.node, (pin.map Pin.chain).getD [], expects⟩

-- A streamed wait is found by its number, so its failure names the step it is on.
def failureStep (key : WaiterKey) (pending : PendingLayerResult) : Option ResultStep :=
  key.streamSeq.bind fun seq => pending.expectsStep.bind fun expected =>
    expected.layerRanges.head?.map fun range => ⟨expected.indexPos, range, some seq⟩

variable (sharding : Sharding)

def streamedWaits (shard : Nat) (requestId : Uuid) (sender : Option NodeId)
    (table : Table WaiterKey PendingLayerResult) : List WaiterKey :=
  (table.retain fun key pending => decide (sharding.shardOf key = shard) && decide (key.requestId = requestId) &&
    key.streamSeq.isSome && pending.accepts sender .none).keys

def awaitingNode (shard : Nat) (node : NodeId) (table : Table WaiterKey PendingLayerResult) :
    List (WaiterKey × Option ResultStep) :=
  (table.retain fun key pending => decide (sharding.shardOf key = shard) && pending.awaiting.isSome &&
    pending.accepts (some node) .none).entries.map fun entry => (entry.1, failureStep entry.1 entry.2)

def WaitOp.handler : (op : WaitOp P) → Prog Waits op.Reply
  | .len => fun machine => (.done machine.store.table.keys.length, machine)
  | .insert key pin expects => fun machine => (.done machine.store.issued,
      ⟨⟨machine.store.table.insert key (Pin.wait pin expects machine.store.issued), machine.store.issued + 1⟩, machine.fates⟩)
  | .containsKey key => fun machine => (.done (machine.store.table.lookup key).isSome, machine)
  | .streamedIn shard requestId sender => fun machine =>
    (.done (streamedWaits sharding shard requestId sender machine.store.table), machine)
  | .removeIf key sender result => fun machine =>
    match machine.store.table.lookup key with
    | none => (.done .none, machine)
    | some pending =>
      if pending.accepts sender result.answersStep then
        (.done (some pending), ⟨⟨machine.store.table.erase key, machine.store.issued⟩, machine.fates⟩)
      else (.done .none, machine)
  | .remove key => fun machine =>
    (.done (), ⟨⟨machine.store.table.erase key, machine.store.issued⟩, machine.fates⟩)
  | .awaitingIn shard node => fun machine => (.done (awaitingNode sharding shard node machine.store.table), machine)

def seqOf (key : WaiterKey) : Nat := key.streamSeq.getD 0

def oldestOf : List WaiterKey → Option WaiterKey
  | [] => none
  | key :: rest =>
    match oldestOf rest with
    | none => some key
    | some other => if seqOf other < seqOf key then some other else some key

section Code

variable (sharding : Sharding)

def oldestStreamedWait (requestId : Uuid) (sender : Option NodeId) : WaitThread P (Option WaiterKey) := do
  let keys ← gather (fun shard => (WaitOp.streamedIn shard requestId sender).perform) sharding.shards
  pure (oldestOf keys)

def takeAccepted (key : WaiterKey) (sender : Option NodeId) (result : LayerResult P) : WaitThread P Bool := do
  let taken ← (WaitOp.removeIf key sender result).perform
  pure taken.isSome

def resolvePendingLayerResult (sender : Option NodeId) (result : LayerResult P) : WaitThread P Bool :=
  if result.answersStep = none ∧ result.locallyConstructed = true then do
    let present ← (WaitOp.containsKey (WaiterKey.ofResult result)).perform
    if present then takeAccepted (WaiterKey.ofResult result) sender result
    else do
      let oldest ← oldestStreamedWait sharding result.requestId sender
      takeAccepted (oldest.getD (WaiterKey.ofResult result)) sender result
  else takeAccepted (WaiterKey.ofResult result) sender result

def failEach (node : NodeId) (reason : String) :
    List (WaiterKey × Option ResultStep) → List Uuid → WaitThread P (List Uuid)
  | [], failed => pure failed
  | (key, step) :: rest, failed => do
    let resolved ← resolvePendingLayerResult sharding (some node)
      { LayerResult.error key.requestId reason with answersStep := step }
    failEach node reason rest (if resolved && !failed.contains key.requestId then failed ++ [key.requestId] else failed)

def failLayerResultsAwaiting (node : NodeId) (reason : String) : WaitThread P (List Uuid) := do
  let waiting ← gather (fun shard => (WaitOp.awaitingIn shard node).perform) sharding.shards
  failEach sharding node reason waiting []

end Code

def maxPendingLayerResults : Nat := 1024

def pendingCount (capped : Bool) : WaitThread P Nat := if capped then WaitOp.len.perform else pure 0

def register (capped : Bool) (key : WaiterKey) (pin : Option Pin) (expects : Option ExpectedStep) :
    WaitThread P (Option Nat) := do
  let count ← pendingCount capped
  if maxPendingLayerResults ≤ count then pure none
  else do
    let tx ← (WaitOp.insert key pin expects).perform
    pure (some tx)

-- What runs beside each other. A streamed wait is always pinned to its run's tail and
-- names the step it is for: its position and the ranges of the run, the first one first.
inductive WaitCall (P : Type) where
  | register (capped : Bool) (requestId : Uuid) (pin : Option Pin) (expects : Option ExpectedStep)
  | registerStreamed (capped : Bool) (requestId : Uuid) (seq : Nat) (pin : Pin) (indexPos : Nat) (range : Nat × Nat)
      (hops : List (Nat × Nat))
  | withdraw (key : WaiterKey)
  | resolve (sender : Option NodeId) (result : LayerResult P)
  | failAwaiting (node : NodeId) (reason : String)

inductive WaitOutcome where
  | registered (tx : Option Nat)
  | withdrawn
  | resolved (taken : Bool)
  | failed (requests : List Uuid)
  deriving DecidableEq

def WaitCall.code : WaitCall P → WaitThread P WaitOutcome
  | .register capped requestId pin expects => do
    let tx ← Daemon.register capped (.request requestId) pin expects
    pure (.registered tx)
  | .registerStreamed capped requestId seq pin indexPos range hops => do
    let tx ← Daemon.register capped (.streamed requestId seq) (some pin) (some ⟨indexPos, range :: hops⟩)
    pure (.registered tx)
  | .withdraw key => do
    (WaitOp.remove key).perform
    pure .withdrawn
  | .resolve sender result => do
    let taken ← resolvePendingLayerResult sharding sender result
    pure (.resolved taken)
  | .failAwaiting node reason => do
    let requests ← failLayerResultsAwaiting sharding node reason
    pure (.failed requests)

end SwarmLlm.Daemon
