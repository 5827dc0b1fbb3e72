import SwarmLlm.Daemon.RetainedActivations

namespace SwarmLlm.Daemon

open Lib RetainedActivations List

abbrev SegmentKey := Uuid × SegmentRange

-- What went to a segment: a forward the recorder was shown, or one that bypassed it.
inductive Sent where
  | forward (indexPos : Nat) (activations : Bytes)
  | unseen
  deriving DecidableEq

-- A forward whose span nobody can read counts as covering everything.
def Sent.Covers (position : Nat) : Sent → Prop
  | .unseen => True
  | .forward indexPos activations =>
    match activationPositions activations with
    | none => True
    | some span => indexPos ≤ position ∧ position < indexPos + span

inductive RetainOp where
  | record (now : Instant) (key : SegmentKey) (indexPos : Nat) (activations : Bytes) (protect : Bool)
  | markUnrestorable (now : Instant) (key : SegmentKey)
  | release (requestId : Uuid)
  | sweepStale (now : Instant) (ttl : Int)

def RetainOp.apply (store : RetainedActivations) : RetainOp → RetainedActivations
  | .record now key indexPos activations protect => store.record now key.1 key.2 indexPos activations protect
  | .markUnrestorable now key => store.markUnrestorable now key.1 key.2
  | .release requestId => store.release requestId
  | .sweepStale now ttl => store.sweepStale now ttl

def RetainOp.sends (key : SegmentKey) : RetainOp → List Sent
  | .record _ own indexPos activations _ => if key = own then [.forward indexPos activations] else []
  | .markUnrestorable _ own => if key = own then [.unseen] else []
  | _ => []

structure RetainWorld where
  store : RetainedActivations
  sent : SegmentKey → List Sent

def RetainWorld.start : RetainWorld := ⟨new, fun _ => []⟩

variable (world : RetainWorld)

def retainStep (op : RetainOp) : RetainWorld :=
  ⟨op.apply world.store, fun key => world.sent key ++ op.sends key⟩

def spanOf (activations : Bytes) : Nat := (activationPositions activations).getD 0

def laid : Nat → List Bytes → List Sent
  | _, [] => []
  | start, step :: rest => .forward start step :: laid (start + spanOf step) rest

def laidEnd (start : Nat) (steps : List Bytes) : Nat := start + (steps.map spanOf).sum

-- The steps, laid end to end from position 0, are forwards that were sent, in order, and each
-- position below the end is covered by the last forward that covered it.
structure Replays (sent : List Sent) (steps : List Bytes) (upTo : Nat) : Prop where
  whole : laidEnd 0 steps = upTo
  ordered : (laid 0 steps).Sublist sent
  latest : ∀ position < upTo, ∃ step ∈ laid 0 steps, step.Covers position ∧ Since step (fun later => ¬ later.Covers position) sent

def RetainWorld.Safe : Prop :=
  ∀ (key : SegmentKey) steps upTo, world.store.restorableHistory key.1 key.2 upTo = some steps → Replays (world.sent key) steps upTo

-- A forward that is kept ends below 2^32, and one that is sent unprotected covers no position of the
-- history held, unless it repeats a step of it.
def Recorded : RetainOp → Prop
  | .record now key indexPos activations protect =>
    ∀ seg, (world.store.record now key.1 key.2 indexPos activations protect).segmentAt key = some seg → seg.contiguous = true →
      if protect then indexPos + spanOf activations < u32Range
      else ∀ position < seg.nextIndexPos, (Sent.forward indexPos activations).Covers position →
        .forward indexPos activations ∈ laid 0 seg.steps
  | _ => True

variable {sent : List Sent} {steps : List Bytes} {upTo span start : Nat} {activations : Bytes} {added : Sent}

theorem laid_append : laid start (steps ++ [activations]) = laid start steps ++ [.forward (laidEnd start steps) activations] := by
  induction steps generalizing start with
  | nil => rfl
  | cons step rest ih => simp only [cons_append, laid, ih, laidEnd, map_cons, sum_cons, Nat.add_assoc]

theorem laid_end_append : laidEnd start (steps ++ [activations]) = laidEnd start steps + spanOf activations := by
  simp only [laidEnd, map_append, map_cons, map_nil, sum_append, sum_singleton, Nat.add_assoc]

theorem replays_nil : Replays sent [] 0 := ⟨rfl, nil_sublist _, nofun⟩

theorem replays_append (replays : Replays sent steps upTo) (readable : activationPositions activations = some span) :
    Replays (sent ++ [.forward upTo activations]) (steps ++ [activations]) (upTo + span) := by
  have width : spanOf activations = span := by rw [spanOf, readable, Option.getD_some]
  have covers : ∀ position, (Sent.forward upTo activations).Covers position ↔ upTo ≤ position ∧ position < upTo + span := by
    intro position
    rw [Sent.Covers, readable]
  have placed : laid 0 (steps ++ [activations]) = laid 0 steps ++ [.forward upTo activations] := by
    rw [laid_append, replays.whole]
  refine ⟨by rw [laid_end_append, replays.whole, width], ?_, ?_⟩
  · rw [placed]
    exact replays.ordered.append (List.Sublist.refl _)
  intro position below
  rw [placed]
  by_cases new : upTo ≤ position
  · exact ⟨_, mem_append_right _ (.head _), (covers position).mpr ⟨new, below⟩, since_last⟩
  · obtain ⟨step, listed, covered, since⟩ := replays.latest position (Nat.lt_of_not_le new)
    exact ⟨step, mem_append_left _ listed, covered, since_append since fun here => new ((covers position).mp here).1⟩

theorem replays_beside (replays : Replays sent steps upTo) :
    Replays (sent ++ [added]) steps upTo ↔ ∀ position < upTo, added.Covers position → added ∈ laid 0 steps := by
  constructor
  · intro again position below covered
    obtain ⟨step, listed, _, before, after, split, quiet⟩ := again.latest position below
    rcases eq_nil_or_concat after with rfl | ⟨init, final, rfl⟩
    · rwa [singleton_inj.mp (append_inj_right' split rfl)]
    · rw [concat_eq_append, ← cons_append, ← append_assoc] at split
      have last := singleton_inj.mp (append_inj_right' split rfl)
      exact absurd (last ▸ covered) (quiet final (by simp))
  intro repeats
  refine ⟨replays.whole, replays.ordered.trans (sublist_append_left _ _), fun position below => ?_⟩
  by_cases covered : added.Covers position
  · exact ⟨added, repeats position below covered, covered, since_last⟩
  · obtain ⟨step, listed, here, since⟩ := replays.latest position below
    exact ⟨step, listed, here, since_append since covered⟩

variable {store : RetainedActivations} {now : Instant} {requestId : Uuid} {range : SegmentRange}

theorem entry_segment : (store.entry requestId).segments.lookup range = store.segmentAt (requestId, range) := by
  unfold entry segmentAt
  cases store.inner.lookup requestId <;> rfl

theorem segment_put {seg : SegmentHistory} {bytes total : Nat} {key : SegmentKey} :
    (store.put now requestId range seg bytes total).segmentAt key =
      if key = (requestId, range) then some seg else store.segmentAt key := by
  obtain ⟨request, part⟩ := key
  by_cases same : request = requestId
  · subst same
    simp only [segmentAt, put, Table.lookup_insert_if, if_true, Option.bind_some, entry_segment, Prod.mk.injEq, true_and]
  · simp [segmentAt, put, same]

def Forgets (before after : RetainedActivations) : Prop :=
  ∀ key, after.segmentAt key = none ∨ after.segmentAt key = before.segmentAt key

theorem forgets_release : Forgets store (store.release requestId) := by
  rintro ⟨request, part⟩
  unfold release
  split
  · exact .inr rfl
  · simp only [segmentAt, Table.lookup_erase_if]
    split
    · exact .inl rfl
    · exact .inr rfl

theorem forgets_all {requests : List Uuid} : Forgets store (requests.foldl release store) := by
  induction requests generalizing store with
  | nil => exact fun _ => .inr rfl
  | cons request rest ih =>
    intro key
    rcases ih key with gone | same
    · exact .inl gone
    · rw [foldl_cons, same]
      exact forgets_release key

theorem forgets_evict : Forgets store (store.evictIfOverRequestCap requestId) := by
  unfold evictIfOverRequestCap
  split
  · exact fun _ => .inr rfl
  · split
    · exact fun _ => .inr rfl
    · exact forgets_release

def HeldTo (store : RetainedActivations) (key : SegmentKey) (steps : List Bytes) (indexPos : Nat) : Prop :=
  (∃ seg, store.segmentAt key = some seg ∧ seg.contiguous = true ∧ seg.steps = steps ∧ seg.nextIndexPos = indexPos) ∨
    steps = [] ∧ indexPos = 0

-- What a call leaves of a segment that can be replayed: what it was, or one step more.
def Continues (before : RetainedActivations) (key : SegmentKey) (op : RetainOp) (seg : SegmentHistory) : Prop :=
  before.segmentAt key = some seg ∧
      (op.sends key = [] ∨ ∃ now indexPos activations, op = .record now key indexPos activations false) ∨
    ∃ now indexPos activations span steps, op = .record now key indexPos activations true ∧
      activationPositions activations = some span ∧ seg.steps = steps ++ [activations] ∧
      seg.nextIndexPos = (indexPos + span) % u32Range ∧ HeldTo before key steps indexPos

variable {key own : SegmentKey} {seg : SegmentHistory}

theorem given_up_elsewhere {old : SegmentHistory} (found : (store.giveUp now requestId range old).segmentAt key = some seg)
    (contiguous : seg.contiguous = true) : key ≠ (requestId, range) ∧ store.segmentAt key = some seg := by
  rw [giveUp, segment_put] at found
  split at found
  · cases found
    cases contiguous
  · rename_i apart
    exact ⟨apart, found⟩

variable {after : RetainedActivations}

theorem forgets_found (forgets : Forgets store after) (found : after.segmentAt key = some seg) :
    store.segmentAt key = some seg := by
  rcases forgets key with gone | same
  · rw [gone] at found
    cases found
  · rwa [← same]

variable {indexPos : Nat}

theorem held_to_forgets (forgets : Forgets store after)
    (held : HeldTo after key steps indexPos) : HeldTo store key steps indexPos :=
  held.imp_left fun ⟨seg, found, rest⟩ => ⟨seg, forgets_found forgets found, rest⟩

theorem keep_continues (found : (store.keep now requestId range indexPos span activations).segmentAt key = some seg)
    (contiguous : seg.contiguous = true) :
    (key ≠ (requestId, range) ∧ store.segmentAt key = some seg) ∨
      key = (requestId, range) ∧ ∃ steps, seg.steps = steps ++ [activations] ∧
        seg.nextIndexPos = (indexPos + span) % u32Range ∧ HeldTo store key steps indexPos := by
  simp only [keep, entry_segment] at found
  split at found
  · rename_i broken
    rw [segment_put] at found
    split at found
    · cases found
      rw [contiguous] at broken
      cases broken
    · rename_i apart
      exact .inl ⟨apart, found⟩
  rename_i unbroken
  split at found
  · exact .inl (given_up_elsewhere found contiguous)
  rename_i fits
  have next := not_not.mp (not_or.mp fits).2
  rw [segment_put] at found
  split at found
  · rename_i same
    cases found
    refine .inr ⟨same, _, rfl, rfl, ?_⟩
    rw [HeldTo, same]
    cases held : store.segmentAt (requestId, range) with
    | none =>
      rw [held] at next
      exact .inr ⟨rfl, next⟩
    | some old =>
      rw [held] at next unbroken
      exact .inl ⟨old, rfl, by simpa using unbroken, rfl, next.symm⟩
  · rename_i apart
    exact .inl ⟨apart, found⟩

theorem record_continues {protect : Bool}
    (found : (store.record now own.1 own.2 indexPos activations protect).segmentAt key = some seg)
    (contiguous : seg.contiguous = true) : Continues store key (.record now own indexPos activations protect) seg := by
  have elsewhere : key ≠ own ∧ store.segmentAt key = some seg →
      Continues store key (.record now own indexPos activations protect) seg :=
    fun held => .inl ⟨held.2, .inl (if_neg held.1)⟩
  unfold record at found
  split at found
  · exact elsewhere (given_up_elsewhere found contiguous)
  rename_i span readable
  cases protect with
  | false =>
    by_cases same : key = own
    · subst same
      exact .inl ⟨found, .inr ⟨_, _, _, rfl⟩⟩
    · exact elsewhere ⟨same, found⟩
  | true =>
    simp only [Bool.not_true, Bool.false_eq_true, if_false] at found
    split at found
    · exact elsewhere (given_up_elsewhere found contiguous)
    · rcases keep_continues found contiguous with ⟨apart, held⟩ | ⟨same, steps, added, next, held⟩
      · exact elsewhere ⟨apart, forgets_found forgets_evict held⟩
      · subst same
        exact .inr ⟨_, _, _, span, steps, rfl, readable, added, next, held_to_forgets forgets_evict held⟩

variable {op : RetainOp}

theorem op_continues (found : (op.apply store).segmentAt key = some seg) (contiguous : seg.contiguous = true) :
    Continues store key op seg := by
  cases op with
  | record now own indexPos activations protect => exact record_continues found contiguous
  | markUnrestorable now own =>
    obtain ⟨apart, held⟩ := given_up_elsewhere found contiguous
    exact .inl ⟨held, .inl (if_neg apart)⟩
  | release requestId => exact .inl ⟨forgets_found forgets_release found, .inl rfl⟩
  | sweepStale now ttl => exact .inl ⟨forgets_found forgets_all found, .inl rfl⟩

-- The invariant: `Safe` read at the segments, none of which is restorable without a step.
def RetainWorld.Holds : Prop :=
  ∀ key seg, world.store.segmentAt key = some seg → seg.contiguous = true →
    seg.steps ≠ [] ∧ Replays (world.sent key) seg.steps seg.nextIndexPos

variable {world : RetainWorld}

theorem safe_segment (safe : world.Safe) (found : world.store.segmentAt key = some seg) (contiguous : seg.contiguous = true)
    (some : seg.steps ≠ []) : Replays (world.sent key) seg.steps seg.nextIndexPos := by
  refine safe key seg.steps seg.nextIndexPos ?_
  have present : seg.steps.isEmpty = false := isEmpty_eq_false_iff.mpr some
  simp only [restorableHistory, found, contiguous, present, bne_self_eq_false, Bool.not_true, Bool.or_false,
    Bool.false_eq_true, if_false]

section

variable (holds : world.Holds)

include holds

theorem holds_safe : world.Safe := by
  intro key steps upTo restorable
  unfold restorableHistory at restorable
  split at restorable
  · cases restorable
  rename_i seg found
  split at restorable
  · cases restorable
  · rename_i passes
    simp only [Bool.or_eq_true, Bool.not_eq_true', bne_iff_ne, not_or, Bool.not_eq_false, not_not] at passes
    cases restorable
    rw [← passes.2]
    exact (holds key seg found passes.1.1).2

theorem held_to_replays
    (held : HeldTo world.store key steps indexPos) : Replays (world.sent key) steps indexPos := by
  rcases held with ⟨seg, found, contiguous, rfl, rfl⟩ | ⟨rfl, rfl⟩
  · exact (holds key seg found contiguous).2
  · exact replays_nil

theorem recorded_holds (recorded : Recorded world op) : (retainStep world op).Holds := by
  intro key seg found contiguous
  change seg.steps ≠ [] ∧ Replays (world.sent key ++ op.sends key) seg.steps seg.nextIndexPos
  rcases op_continues found contiguous with
    ⟨held, none | ⟨now, indexPos, activations, rfl⟩⟩ | ⟨now, indexPos, activations, span, steps, rfl, readable, added, next, before⟩
  · rw [none, append_nil]
    exact holds key seg held contiguous
  · obtain ⟨some, replays⟩ := holds key seg held contiguous
    rw [RetainOp.sends, if_pos rfl]
    exact ⟨some, (replays_beside replays).mpr (recorded seg found contiguous)⟩
  · have fits : indexPos + spanOf activations < u32Range := recorded seg found contiguous
    have replays := replays_append (held_to_replays holds before) readable
    rw [spanOf, readable, Option.getD_some] at fits
    rw [added, next, Nat.mod_eq_of_lt fits, RetainOp.sends, if_pos rfl]
    exact ⟨by simp, replays⟩

theorem safe_recorded (safe : (retainStep world op).Safe) : Recorded world op := by
  cases op with
  | markUnrestorable | release | sweepStale => trivial
  | record now key indexPos activations protect =>
    intro seg found contiguous
    rcases record_continues found contiguous with
      ⟨held, none | ⟨_, _, _, same⟩⟩ | ⟨_, _, _, span, steps, same, readable, added, next, before⟩
    · rw [RetainOp.sends, if_pos rfl] at none
      cases none
    · cases same
      obtain ⟨some, replays⟩ := holds key seg held contiguous
      have again : Replays (world.sent key ++ RetainOp.sends key _) _ _ := safe_segment safe found contiguous some
      rw [RetainOp.sends, if_pos rfl] at again
      exact (replays_beside replays).mp again
    · cases same
      have whole := (safe_segment safe found contiguous (by rw [added]; simp)).whole
      rw [added, laid_end_append, (held_to_replays holds before).whole, next, spanOf, readable, Option.getD_some] at whole
      rw [if_pos rfl, spanOf, readable, Option.getD_some, whole]
      exact Nat.mod_lt _ (by decide)

end

-- Over every run, a replay is whole at every moment exactly when each forward is recorded so.
theorem replays_whole_iff (ops : List RetainOp) :
    RunMeets retainStep (fun world op => (retainStep world op).Safe) .start ops ↔ RunMeets retainStep Recorded .start ops := by
  have start : RetainWorld.start.Holds := fun key seg found => by
    simp [RetainWorld.start, new, segmentAt] at found
  generalize RetainWorld.start = world at start
  induction ops generalizing world with
  | nil => exact Iff.rfl
  | cons op rest ih =>
    constructor
    · rintro ⟨safe, later⟩
      have recorded := safe_recorded start safe
      exact ⟨recorded, (ih _ (recorded_holds start recorded)).mp later⟩
    · rintro ⟨recorded, later⟩
      have holds := recorded_holds start recorded
      exact ⟨holds_safe holds, (ih _ holds).mpr later⟩

def twoPositions (fill : UInt8) : Bytes := [2, 0, 0, 0, 2, 0, 0, 0, 1, 0, 0, 0, fill]

-- The pass is sent again while nothing protects the segment, and the first one is what is replayed.
theorem older_pass_replayed :
    ∃ world, world = run retainStep .start
        [.record 0 (Uuid.nil, (0, 4)) 0 (twoPositions 1) true, .record 1 (Uuid.nil, (0, 4)) 0 (twoPositions 2) false] ∧
      world.store.restorableHistory Uuid.nil (0, 4) 2 = some [twoPositions 1] ∧
      world.sent (Uuid.nil, (0, 4)) = [.forward 0 (twoPositions 1), .forward 0 (twoPositions 2)] ∧
      activationPositions (twoPositions 2) = some 2 := by
  refine ⟨_, rfl, ?_, ?_, ?_⟩ <;> decide +kernel

end SwarmLlm.Daemon
