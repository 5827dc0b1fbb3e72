import SwarmLlm.Daemon.ReplayedHistory

namespace SwarmLlm.Daemon

open Lib RetainedActivations List Table

def SegmentHistory.kept (seg : SegmentHistory) : Int := (seg.steps.map length).sum

namespace RequestActivations

def kept (entry : RequestActivations) : Int := total SegmentHistory.kept entry.segments

structure Counted (entry : RequestActivations) : Prop where
  segments : ∀ range seg, entry.segments.lookup range = some seg → (seg.bytes : Int) = seg.kept
  bytes : (entry.bytes : Int) = entry.kept
  within : entry.bytes ≤ maxRetainedBytesPerRequest

end RequestActivations

open RequestActivations

def RetainedActivations.held (store : RetainedActivations) : Nat := store.inner.keys.length

structure RetainedActivations.Bounded (store : RetainedActivations) : Prop where
  requests : ∀ id entry, store.inner.lookup id = some entry → entry.Counted
  bytes : (store.totalBytes : Int) = total kept store.inner
  within : store.totalBytes ≤ maxRetainedBytesTotal
  capped : store.held ≤ maxRetainedRequests

open RetainedActivations

def RetainedActivations.HasRoom (store : RetainedActivations) (id : Uuid) : Prop :=
  id ∈ store.inner ∨ store.held < maxRetainedRequests

-- The request a call marks, and may make an entry for, without evicting another.
def RetainOp.marks (store : RetainedActivations) : RetainOp → Option Uuid
  | .record _ key _ activations protect =>
    if activationPositions activations = none ∨ protect = true ∧ maxRetainedBytesTotal < store.totalBytes + activations.length
    then some key.1 else none
  | .markUnrestorable _ key => some key.1
  | _ => none

variable {store : RetainedActivations} {now : Instant} {requestId : Uuid} {part : SegmentRange} {seg : SegmentHistory}

section
variable {K V : Type} [DecidableEq K] {weight : V → Int} (nonneg : ∀ value, 0 ≤ weight value) (table : Table K V) (key : K)
include nonneg

theorem weight_nonneg : 0 ≤ weightAt weight table key := by
  unfold weightAt
  cases table.lookup key with
  | none => simp
  | some value => simpa using nonneg value

theorem weight_le_total : weightAt weight table key ≤ total weight table := by
  have rest := total_nonneg (table.erase key) (weight_nonneg nonneg _)
  rw [total_erase] at rest
  omega

end

theorem segment_nonneg (seg : SegmentHistory) : 0 ≤ seg.kept := Int.natCast_nonneg _

theorem request_nonneg (entry : RequestActivations) : 0 ≤ entry.kept := total_nonneg _ (weight_nonneg segment_nonneg _)

theorem entry_weight : weightAt kept store.inner requestId = (store.entry requestId).kept := by
  unfold weightAt entry
  cases store.inner.lookup requestId <;> rfl

theorem entry_counted (requestId : Uuid) (bounded : store.Bounded) : (store.entry requestId).Counted := by
  unfold entry
  cases found : store.inner.lookup requestId with
  | none => exact ⟨nofun, rfl, by decide⟩
  | some entry => exact bounded.requests requestId entry found

theorem held_put {bytes totalBytes : Nat} : (store.put now requestId part seg bytes totalBytes).held ≤ maxRetainedRequests ↔
    (requestId ∈ store.inner → store.held ≤ maxRetainedRequests) ∧ store.HasRoom requestId := by
  unfold HasRoom held put
  rw [AList.keys_insert, length_cons]
  by_cases present : requestId ∈ store.inner
  · have some := length_pos_of_mem present
    rw [length_erase_of_mem present]
    simp [present]
    omega
  · simp only [erase_of_not_mem (show requestId ∉ store.inner.keys from present), present, false_implies, false_or, true_and]
    omega

section

variable (bounded : store.Bounded)

include bounded

theorem bounded_put {bytes totalBytes : Nat} (room : store.HasRoom requestId)
    (same : (seg.bytes : Int) = seg.kept)
    (own : (bytes : Int) =
      (store.entry requestId).kept + seg.kept - weightAt SegmentHistory.kept (store.entry requestId).segments part)
    (all : (totalBytes : Int) = store.totalBytes + bytes - (store.entry requestId).kept)
    (fits : bytes ≤ maxRetainedBytesPerRequest) (within : totalBytes ≤ maxRetainedBytesTotal) :
    (store.put now requestId part seg bytes totalBytes).Bounded := by
  have grown : (bytes : Int) = kept ⟨(store.entry requestId).segments.insert part seg, bytes, some now⟩ :=
    own.trans (total_insert (store.entry requestId).segments SegmentHistory.kept part seg).symm
  refine ⟨?_, ?_, within, held_put.mpr ⟨fun _ => bounded.capped, room⟩⟩
  · exact forall_insert bounded.requests ⟨forall_insert (entry_counted requestId bounded).segments same, grown, fits⟩
  · simp only [put, total_insert, entry_weight, ← grown]
    rw [all, bounded.bytes]

theorem segment_weight (requestId : Uuid) (part : SegmentRange) (contiguous : Bool) :
    ∃ seg, ((store.entry requestId).segments.lookup part).getD ⟨[], 0, contiguous, 0⟩ = seg ∧ (seg.bytes : Int) = seg.kept ∧
      seg.kept = weightAt SegmentHistory.kept (store.entry requestId).segments part := by
  unfold weightAt
  cases found : (store.entry requestId).segments.lookup part with
  | none => exact ⟨_, rfl, rfl, rfl⟩
  | some seg => exact ⟨seg, rfl, (entry_counted requestId bounded).segments part seg found, rfl⟩

theorem bounded_give_up (room : store.HasRoom requestId) (same : (seg.bytes : Int) = seg.kept)
    (weight : seg.kept = weightAt SegmentHistory.kept (store.entry requestId).segments part) :
    (store.giveUp now requestId part seg).Bounded := by
  have own := entry_counted requestId bounded
  have bytes := own.bytes
  have all := bounded.bytes
  have inEntry : weightAt _ _ _ ≤ (store.entry requestId).kept := weight_le_total segment_nonneg _ part
  have inStore := weight_le_total request_nonneg store.inner requestId
  rw [← weight] at inEntry
  rw [entry_weight] at inStore
  refine bounded_put bounded room rfl ?_ ?_ (le_trans (Nat.sub_le _ _) own.within) (le_trans (Nat.sub_le _ _) bounded.within)
  · have none : SegmentHistory.kept ⟨[], seg.nextIndexPos, false, 0⟩ = 0 := rfl
    omega
  · omega

theorem bounded_mark :
    (store.markUnrestorable now requestId part).Bounded ↔ store.HasRoom requestId := by
  refine ⟨fun after => (held_put.mp after.capped).2, fun room => ?_⟩
  obtain ⟨seg, read, same, weight⟩ := segment_weight bounded requestId part false
  rw [markUnrestorable, read]
  exact bounded_give_up bounded room same weight

theorem bounded_keep {indexPos span : Nat} {activations : Bytes} (room : store.HasRoom requestId)
    (fits : store.totalBytes + activations.length ≤ maxRetainedBytesTotal) :
    (store.keep now requestId part indexPos span activations).Bounded := by
  have own := entry_counted requestId bounded
  have bytes := own.bytes
  obtain ⟨seg, read, same, weight⟩ := segment_weight bounded requestId part true
  simp only [keep, read]
  split
  · exact bounded_put bounded room same (by omega) (by omega) own.within bounded.within
  split
  · exact bounded_give_up bounded room same weight
  rename_i affordable
  have grown : SegmentHistory.kept ⟨seg.steps ++ [activations], (indexPos + span) % u32Range, true,
      seg.bytes + activations.length⟩ = seg.kept + activations.length := by simp [SegmentHistory.kept]
  refine bounded_put bounded room ?_ ?_ ?_ (le_of_not_gt (not_or.mp affordable).1) fits
  all_goals
    push_cast
    omega

theorem bounded_release : (store.release requestId).Bounded ∧
    (store.release requestId).totalBytes ≤ store.totalBytes ∧
    (requestId ∈ store.inner → (store.release requestId).held < maxRetainedRequests) := by
  unfold release
  split
  · rename_i absent
    exact ⟨bounded, le_refl _, fun present => absurd present (AList.lookup_eq_none.mp absent)⟩
  rename_i entry found
  have present : requestId ∈ store.inner.keys := AList.lookup_isSome.mp (by rw [found]; rfl)
  have inStore := weight_le_total request_nonneg store.inner requestId
  have weight := weight_at_found store.inner kept requestId entry found
  have bytes := (bounded.requests requestId entry found).bytes
  have all := bounded.bytes
  have fewer : held ⟨store.inner.erase requestId, store.totalBytes - entry.bytes⟩ + 1 = store.held := by
    rw [held, AList.keys_erase, length_erase_of_mem present]
    exact Nat.sub_add_cancel (length_pos_of_mem present)
  have capped := bounded.capped
  refine ⟨⟨?_, ?_, le_trans (Nat.sub_le _ _) bounded.within, by omega⟩, Nat.sub_le _ _, fun _ => by omega⟩
  · exact fun id other left => bounded.requests id other (lookup_erase_some left).2
  · simp only [total_erase]
    omega

theorem bounded_evict : (store.evictIfOverRequestCap requestId).Bounded ∧
    (store.evictIfOverRequestCap requestId).totalBytes ≤ store.totalBytes ∧
    (store.evictIfOverRequestCap requestId).HasRoom requestId := by
  unfold evictIfOverRequestCap
  split
  · rename_i room
    exact ⟨bounded, le_refl _, room.symm.imp_left AList.lookup_isSome.mp⟩
  rename_i full
  cases entries : store.inner.entries with
  | nil => simp [AList.keys, entries, maxRetainedRequests] at full
  | cons first rest =>
    obtain ⟨released, less, room⟩ := bounded_release bounded
    refine ⟨released, less, .inr (room (mem_map_of_mem ?_))⟩
    rw [entries]
    exact least_mem _ first

end

theorem bounded_step {op : RetainOp} (bounded : store.Bounded) :
    (op.apply store).Bounded ↔ ∀ id ∈ op.marks store, store.HasRoom id := by
  cases op with
  | record now key indexPos activations protect =>
    simp only [RetainOp.apply, record, RetainOp.marks]
    cases readable : activationPositions activations with
    | none => simpa using bounded_mark bounded
    | some span =>
      cases protect with
      | false => simpa using bounded
      | true =>
        by_cases full : maxRetainedBytesTotal < store.totalBytes + activations.length
        · simpa [full] using bounded_mark bounded
        obtain ⟨evicted, less, room⟩ := bounded_evict bounded
        simpa [full] using bounded_keep evicted room (by omega)
  | markUnrestorable now key => simpa [RetainOp.apply, RetainOp.marks] using bounded_mark bounded
  | release requestId => exact iff_of_true (bounded_release bounded).1 nofun
  | sweepStale now ttl =>
    exact iff_of_true (run_keeps Bounded (fun _ _ inside => (bounded_release inside).1) store _ bounded) nofun

theorem retained_bounds_iff (ops : List RetainOp) :
    new.Bounded ∧ (RunMeets RetainOp.apply (fun store op => (op.apply store).Bounded) new ops ↔
      RunMeets RetainOp.apply (fun store op => ∀ id ∈ op.marks store, store.HasRoom id) new ops) := by
  have start : new.Bounded := ⟨nofun, rfl, by decide, by decide⟩
  exact ⟨start, run_stays_iff (fun _ _ => bounded_step) new start⟩

theorem marks_overfill :
    (run RetainOp.apply new ((range 33).map fun n => .markUnrestorable 0 (Uuid.ofByte (.ofNat n), (0, 1)))).held = 33 := by
  decide +kernel

end SwarmLlm.Daemon
