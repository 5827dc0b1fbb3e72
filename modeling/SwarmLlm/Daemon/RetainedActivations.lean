import SwarmLlm.Daemon.ManifestSync
import SwarmLlm.Lib.Floats

namespace SwarmLlm.Daemon

open Lib

def maxRetainedRequests : Nat := 32

def maxRetainedBytesPerRequest : Nat := 128 * 1024 * 1024

def maxRetainedBytesTotal : Nat := 512 * 1024 * 1024

def u32Range : Nat := 4294967296

def activationPositions (bytes : Bytes) : Option Nat :=
  let ndim := fromLe (bytes.take 4)
  if bytes.length < 4 ∨ ndim < 2 ∨ bytes.length < 4 + ndim * 4 then none
  else some (fromLe ((bytes.drop (4 + (ndim - 2) * 4)).take 4))

structure SegmentHistory where
  steps : List Bytes
  nextIndexPos : Nat
  contiguous : Bool
  bytes : Nat

abbrev SegmentRange := Nat × Nat

structure RequestActivations where
  segments : Table SegmentRange SegmentHistory
  bytes : Nat
  lastActivity : Option Instant

structure RetainedActivations where
  inner : Table Uuid RequestActivations
  totalBytes : Nat

namespace RetainedActivations

variable (store : RetainedActivations) (now : Instant) (requestId : Uuid) (range : SegmentRange)

def new : RetainedActivations := ⟨∅, 0⟩

def entry : RequestActivations := (store.inner.lookup requestId).getD ⟨∅, 0, none⟩

def segmentAt (key : Uuid × SegmentRange) : Option SegmentHistory :=
  (store.inner.lookup key.1).bind fun entry => entry.segments.lookup key.2

def put (seg : SegmentHistory) (bytes totalBytes : Nat) : RetainedActivations :=
  ⟨store.inner.insert requestId ⟨(store.entry requestId).segments.insert range seg, bytes, some now⟩, totalBytes⟩

def giveUp (seg : SegmentHistory) : RetainedActivations :=
  store.put now requestId range ⟨[], seg.nextIndexPos, false, 0⟩ ((store.entry requestId).bytes - seg.bytes)
    (store.totalBytes - seg.bytes)

def markUnrestorable : RetainedActivations :=
  store.giveUp now requestId range (((store.entry requestId).segments.lookup range).getD ⟨[], 0, false, 0⟩)

def release : RetainedActivations :=
  match store.inner.lookup requestId with
  | none => store
  | some entry => ⟨store.inner.erase requestId, store.totalBytes - entry.bytes⟩

def sweepStale (ttl : Int) : RetainedActivations :=
  let stale := store.inner.entries.filter fun item =>
    match item.2.lastActivity with
    | none => true
    | some time => decide (ttl < sinceThen now time)
  (stale.map Sigma.fst).foldl release store

def activeBefore (first second : RequestActivations) : Bool :=
  match first.lastActivity, second.lastActivity with
  | none, some _ => true
  | some one, some other => decide (one < other)
  | _, none => false

def evictIfOverRequestCap : RetainedActivations :=
  if store.inner.keys.length < maxRetainedRequests ∨ (store.inner.lookup requestId).isSome then store
  else match minBy (fun first second => activeBefore first.2 second.2) store.inner.entries with
    | none => store
    | some oldest => store.release oldest.1

def keep (indexPos span : Nat) (activations : Bytes) : RetainedActivations :=
  let entry := store.entry requestId
  let seg := (entry.segments.lookup range).getD ⟨[], 0, true, 0⟩
  if !seg.contiguous then store.put now requestId range seg entry.bytes store.totalBytes
  else if maxRetainedBytesPerRequest < entry.bytes + activations.length ∨ indexPos ≠ seg.nextIndexPos then
    store.giveUp now requestId range seg
  else
    store.put now requestId range
      ⟨seg.steps ++ [activations], (indexPos + span) % u32Range, true, seg.bytes + activations.length⟩
      (entry.bytes + activations.length) (store.totalBytes + activations.length)

def record (indexPos : Nat) (activations : Bytes) (protect : Bool) : RetainedActivations :=
  match activationPositions activations with
  | none => store.markUnrestorable now requestId range
  | some span =>
    if !protect then store
    else if maxRetainedBytesTotal < store.totalBytes + activations.length then
      store.markUnrestorable now requestId range
    else (store.evictIfOverRequestCap requestId).keep now requestId range indexPos span activations

def restorableHistory (upToIndexPos : Nat) : Option (List Bytes) :=
  match store.segmentAt (requestId, range) with
  | none => none
  | some seg =>
    if !seg.contiguous || seg.steps.isEmpty || seg.nextIndexPos != upToIndexPos then none else some seg.steps

end RetainedActivations

end SwarmLlm.Daemon
