import Mathlib.Algebra.Order.Ring.Nat
import Mathlib.Data.List.Forall2
import SwarmLlm.Lib.Saturating

namespace SwarmLlm.Inference

open Lib

inductive Device where
  | cpu
  | card (index : Nat)
  deriving DecidableEq

-- A tensor along its positions: each cell is what it holds for one of them.
structure Tensor (P : Type) where
  cells : List P
  width : Nat
  elemBytes : Nat
  device : Device
  deriving DecidableEq

variable {P : Type}

def Tensor.bytes (tensor : Tensor P) : Nat := tensor.cells.length * tensor.width * tensor.elemBytes

def Tensor.narrow (tensor : Tensor P) (count : Nat) : Option (Tensor P) :=
  if count ≤ tensor.cells.length then some { tensor with cells := tensor.cells.take count } else none

structure LayerKv (P : Type) where
  k : Option (Tensor P)
  v : Option (Tensor P)
  heldFrom : Nat
  currentSeqLen : Nat
  window : Option Nat
  dim : Nat
  maxSeqLen : Nat

def LayerKv.servesFrom (layer : LayerKv P) : Nat :=
  match layer.heldFrom, layer.window with
  | 0, _ => 0
  | start, some window => start + window - 1
  | start, none => start

structure SsmState (P : Type) where
  positions : Nat
  convState : Tensor P
  recurrentState : Tensor P

structure KvCacheEntry (P : Type) where
  layers : List (Option (LayerKv P))
  ssmStates : List (Option (SsmState P))

-- Where a copy is kept: on the device its layers run on, or off the card.
inductive SnapshotHome where
  | besideLive
  | hostRam
  deriving DecidableEq

structure KvSnapshot (P : Type) where
  tokenCount : Nat
  layers : List (Option (Tensor P × Tensor P))
  dim : Nat
  maxSeqLen : Nat
  restoreTo : List (Option Device)
  heldFrom : List Nat
  servesFrom : Nat
  ssm : List (Option (Tensor P × Tensor P))
  deriving DecidableEq

namespace KvSnapshot

variable (snap : KvSnapshot P)

def carriesRecurrentState : Bool := snap.ssm.any Option.isSome

def layerHeldFrom (i : Nat) : Nat := snap.heldFrom.getD i 0

def holdsEveryPosition : Bool := snap.heldFrom.all (· == 0)

def bytes (snap : KvSnapshot P) : Nat :=
  ((snap.layers ++ snap.ssm).filterMap id |>.map fun pair => pair.1.bytes + pair.2.bytes).sum

def home : SnapshotHome := if snap.restoreTo.any Option.isSome then .hostRam else .besideLive

def bytesIn (home : SnapshotHome) : Nat := if snap.home = home then snap.bytes else 0

end KvSnapshot

def servesFrom (layers : List (Option (LayerKv P))) : Nat := ((layers.filterMap id).map LayerKv.servesFrom).foldl max 0

-- Copies in host RAM note the card they go back to.
def keepIn (home : SnapshotHome) (device : Device) : Device × Option Device :=
  if home = .hostRam ∧ device ≠ .cpu then (.cpu, some device) else (device, none)

def copyRecurrent (pos : Nat) (home : SnapshotHome) (i : Nat) (state : SsmState P) (copy : KvSnapshot P) :
    Option (KvSnapshot P) :=
  if state.positions ≠ pos then none
  else
    let conv := keepIn home state.convState.device
    let recurrent := keepIn home state.recurrentState.device
    let kept := ({ state.convState with device := conv.1 }, { state.recurrentState with device := recurrent.1 })
    some { copy with
      layers := copy.layers ++ [none]
      restoreTo := copy.restoreTo ++ [conv.2]
      heldFrom := copy.heldFrom ++ [0]
      servesFrom := pos
      ssm := copy.ssm ++ List.replicate (i - copy.ssm.length) none ++ [some kept] }

def copyAttention (pos : Nat) (home : SnapshotHome) (layer : LayerKv P) (copy : KvSnapshot P) : Option (KvSnapshot P) :=
  if layer.currentSeqLen < pos then none
  else do
    let k ← (← layer.k).narrow (pos - layer.heldFrom)
    let v ← (← layer.v).narrow (pos - layer.heldFrom)
    let kept := keepIn home k.device
    let pair := match kept.2 with
      | some _ => ({ k with device := .cpu }, { v with device := .cpu })
      | none => (k, v)
    return { copy with
      layers := copy.layers ++ [some pair]
      restoreTo := copy.restoreTo ++ [kept.2]
      heldFrom := copy.heldFrom ++ [layer.heldFrom] }

-- `ssm.resize_with(i, ..)` never shortens: layer `i` comes after every layer before it.
def copyLayer (ssmStates : List (Option (SsmState P))) (pos : Nat) (home : SnapshotHome) (i : Nat)
    (layer : Option (LayerKv P)) (copy : KvSnapshot P) : Option (KvSnapshot P) :=
  match layer with
  | some layer => copyAttention pos home layer copy
  | none =>
    match (ssmStates[i]?).join with
    | some state => copyRecurrent pos home i state copy
    | none =>
      some { copy with
        layers := copy.layers ++ [none], restoreTo := copy.restoreTo ++ [none], heldFrom := copy.heldFrom ++ [0] }

def copyLayers (ssmStates : List (Option (SsmState P))) (pos : Nat) (home : SnapshotHome) :
    Nat → List (Option (LayerKv P)) → KvSnapshot P → Option (KvSnapshot P)
  | _, [], copy => some copy
  | i, layer :: rest, copy => do copyLayers ssmStates pos home (i + 1) rest (← copyLayer ssmStates pos home i layer copy)

-- A refused copy is only logged, so that it was refused is all that is kept of it.
def snapshotAt (layers : List (Option (LayerKv P))) (ssmStates : List (Option (SsmState P))) (pos dim maxSeqLen : Nat)
    (home : SnapshotHome) : Option (KvSnapshot P) :=
  if pos < servesFrom layers then none
  else copyLayers ssmStates pos home 0 layers ⟨pos, [], dim, maxSeqLen, [], [], servesFrom layers, []⟩

def narrowLayers (target : Nat) : List (Option (Tensor P × Tensor P)) → List Nat → Option (List (Option (Tensor P × Tensor P)))
  | [], _ => some []
  | none :: rest, held => do return none :: (← narrowLayers target rest held.tail)
  | some (k, v) :: rest, held => do
    let count := target - held.headD 0
    let pair := (← k.narrow count, ← v.narrow count)
    return some pair :: (← narrowLayers target rest held.tail)

def narrowSnapshot (snap : KvSnapshot P) (target : Nat) : Option (KvSnapshot P) :=
  if snap.tokenCount < target then none
  else if target < snap.servesFrom then none
  else if target = snap.tokenCount then some snap
  else if snap.carriesRecurrentState then none
  else do
    let layers ← narrowLayers target snap.layers snap.heldFrom
    return { snap with tokenCount := target, layers := layers, ssm := [] }

end SwarmLlm.Inference
