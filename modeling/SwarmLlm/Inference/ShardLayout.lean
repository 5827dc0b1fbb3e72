import SwarmLlm.Lib.Run
import Mathlib.Algebra.Order.Ring.Nat

namespace SwarmLlm.Inference

open Lib List

structure LayoutTensor where
  name : List Char
  ggufOffset : Nat
  size : Nat

structure LayerShardLayout where
  index : Nat
  layerStart : Nat
  layerEnd : Nat
  tensors : List LayoutTensor
  sizeBytes : Nat

-- A header's tensors sorted out by name: what goes with the first part, each
-- layer's own in the order of the layers, what goes with the last part; and the
-- number of parts asked for.
structure CutAsk where
  before : List LayoutTensor
  layers : List (List LayoutTensor)
  after : List LayoutTensor
  shardCount : Nat

def bytesOf (tensors : List LayoutTensor) : Nat := (tensors.map (·.size)).sum

def byOffset (tensors : List LayoutTensor) : List LayoutTensor :=
  tensors.mergeSort fun first second => first.ggufOffset ≤ second.ggufOffset

-- The loop's variables; `current` holds the tensors of the part being filled. The
-- layers are numbered from 0, so `layerEnd` also counts the layers read.
structure Cutting where
  layouts : List LayerShardLayout
  current : List LayoutTensor
  layerStart : Option Nat
  layerEnd : Nat
  emittedBytes : Nat

variable (ask : CutAsk) (cut : Cutting) (layer : List LayoutTensor)

def CutAsk.totalBytes : Nat :=
  (ask.layers.map bytesOf).sum + bytesOf ask.before + bytesOf ask.after

def Cutting.add : Cutting :=
  { cut with
    current := cut.current ++ layer, layerStart := some (cut.layerStart.getD cut.layerEnd), layerEnd := cut.layerEnd + 1 }

def Cutting.layout (unstarted : Nat) (tensors : List LayoutTensor) : LayerShardLayout :=
  ⟨cut.layouts.length, cut.layerStart.getD unstarted, cut.layerEnd, byOffset tensors, bytesOf tensors⟩

def Cutting.emit : Cutting :=
  { cut with
    layouts := cut.layouts ++ [cut.layout 0 cut.current], current := [], layerStart := none
    emittedBytes := cut.emittedBytes + bytesOf cut.current }

def Cutting.remainingShards : Nat := ask.shardCount - cut.layouts.length - 1

def Cutting.remainingLayers : Nat := ask.layers.length - cut.layerEnd

def Cutting.reachesTarget : Bool :=
  (ask.totalBytes - cut.emittedBytes) / max (ask.shardCount - cut.layouts.length) 1 ≤ bytesOf cut.current

def Cutting.shouldEmit : Bool :=
  if cut.remainingLayers ask = 0 ∨ cut.remainingShards ask = 0 then false
  else if cut.remainingShards ask > cut.remainingLayers ask then true
  else cut.reachesTarget ask

def Cutting.step : Cutting :=
  if (cut.add layer).shouldEmit ask then (cut.add layer).emit else cut.add layer

def Cutting.finish : List LayerShardLayout := cut.layouts ++ [cut.layout cut.layerEnd (cut.current ++ ask.after)]

def Cutting.start : Cutting := ⟨[], ask.before, none, 0, 0⟩

def computeLayerShardLayouts : List LayerShardLayout :=
  if ask.shardCount = 0 then []
  else if ask.shardCount = 1 then
    let all := ask.before ++ ask.layers.flatten ++ ask.after
    [⟨0, 0, ask.layers.length, byOffset all, ask.totalBytes⟩]
  else (run (Cutting.step ask) (.start ask) ask.layers).finish ask

-- Where as many layers as further parts are left, the part being filled is full.
def FullInTime : Prop :=
  (cut.add layer).remainingLayers ask ≠ 0 →
    (cut.add layer).remainingLayers ask = (cut.add layer).remainingShards ask →
      (cut.add layer).reachesTarget ask = true

-- The parts there will be if every further part is full in time.
def Cutting.best : Nat :=
  if cut.remainingLayers ask = 0 then cut.layouts.length + 1
  else min ask.shardCount (cut.layouts.length + cut.remainingLayers ask)

structure WellCut : Prop where
  unfilled : cut.layouts.length < ask.shardCount
  held : ∀ part ∈ cut.layouts, part.layerStart < part.layerEnd
  begun : ∀ first ∈ cut.layerStart, first < cut.layerEnd
  ends : cut.layerEnd = ask.layers.length → cut.layerStart.isSome = true

open Cutting

variable {ask cut layer}

theorem should_emit_iff : cut.shouldEmit ask = true ↔ cut.remainingLayers ask ≠ 0 ∧ cut.remainingShards ask ≠ 0 ∧
      (cut.remainingLayers ask < cut.remainingShards ask ∨ cut.reachesTarget ask = true) := by
  rw [shouldEmit]
  split_ifs with past more
  · simp only [false_iff]
    exact fun free => past.elim free.1 free.2.1
  · simp_all
  · simp_all

theorem step_best (inside : cut.layerEnd < ask.layers.length) (well : WellCut ask cut) :
    WellCut ask (cut.step ask layer) ∧ (cut.step ask layer).layerEnd = cut.layerEnd + 1 ∧
      (cut.step ask layer).best ask ≤ cut.best ask ∧
      ((cut.step ask layer).best ask = cut.best ask ↔ FullInTime ask cut layer) := by
  have unfilled := well.unfilled
  have first : cut.layerStart.getD cut.layerEnd < cut.layerEnd + 1 := by
    cases start : cut.layerStart with
    | none => exact Nat.lt_succ_self _
    | some first => exact Nat.lt_succ_of_lt (well.begun first start)
  obtain ⟨left, more⟩ : ∃ left, ask.layers.length = cut.layerEnd + 1 + left := Nat.exists_eq_add_of_le inside
  have layers : (cut.add layer).remainingLayers ask = left := by
    rw [remainingLayers, more]
    exact Nat.add_sub_cancel_left _ _
  have before : cut.best ask = min ask.shardCount (cut.layouts.length + (left + 1)) := by
    rw [best, remainingLayers, if_neg (by omega), more, Nat.add_assoc, Nat.add_sub_cancel_left, Nat.add_comm 1]
  have parts : (cut.add layer).remainingShards ask = ask.shardCount - cut.layouts.length - 1 := rfl
  rw [FullInTime, step, before, layers, parts]
  split_ifs with emits
  · rw [should_emit_iff, layers, parts] at emits
    have same : (cut.add layer).emit.best ask = min ask.shardCount (cut.layouts.length + (left + 1)) := by
      rw [best, show (cut.add layer).emit.remainingLayers ask = left from layers, if_neg emits.1, emit,
        length_append, length_singleton, Nat.add_assoc, Nat.add_comm 1]
      rfl
    refine ⟨⟨?_, forall_concat well.held first, nofun, fun ends => ?_⟩, rfl, same.le,
      iff_of_true same fun _ even => emits.2.2.resolve_left even.not_lt⟩
    · rw [emit, length_append, length_singleton]
      exact Nat.add_lt_of_lt_sub (Nat.lt_of_sub_pos (Nat.sub_right_comm .. ▸ Nat.pos_of_ne_zero emits.2.1))
    · exact absurd (more.symm.trans ends.symm) (by have := emits.1; simp only [emit, add]; omega)
  · rw [should_emit_iff, layers, parts] at emits
    have whole : WellCut ask (cut.add layer) :=
      ⟨unfilled, well.held, fun start same => by cases same; exact first, fun _ => rfl⟩
    rw [best, layers, show (cut.add layer).layouts = cut.layouts from rfl]
    by_cases last : left = 0
    · rw [if_pos last, last, Nat.min_eq_right unfilled]
      exact ⟨whole, rfl, le_rfl, iff_of_true rfl fun more => absurd rfl more⟩
    · rw [if_neg last]
      refine ⟨whole, rfl, by omega, ?_⟩
      by_cases full : (cut.add layer).reachesTarget ask = true
      · have none : ask.shardCount - cut.layouts.length - 1 = 0 := by
          by_contra room
          exact emits ⟨last, room, .inr full⟩
        refine iff_of_true ?_ fun _ _ => full
        omega
      · have fewer : ¬ (ask.shardCount - cut.layouts.length - 1 ≠ 0 ∧ left < ask.shardCount - cut.layouts.length - 1) :=
          fun more => emits ⟨last, more.1, .inl more.2⟩
        simp only [full, Bool.false_eq_true, imp_false, last, ne_eq, not_false_eq_true, forall_const]
        omega

theorem run_best {layers : List (List LayoutTensor)} (here : cut.layerEnd + layers.length = ask.layers.length)
    (well : WellCut ask cut) :
    let after := run (step ask) cut layers
    WellCut ask after ∧ after.layerEnd = ask.layers.length ∧ after.best ask ≤ cut.best ask ∧
      (after.best ask = cut.best ask ↔ RunMeets (step ask) (FullInTime ask) cut layers) := by
  induction layers generalizing cut with
  | nil => exact ⟨well, here, le_rfl, iff_of_true rfl trivial⟩
  | cons layer rest ih =>
    rw [length_cons] at here
    obtain ⟨kept, counts, less, full⟩ := @step_best ask cut layer (by omega) well
    obtain ⟨ends, all, fewer, meets⟩ := ih (by omega) kept
    rw [run_cons, RunMeets, ← full, ← meets]
    exact ⟨ends, all, fewer.trans less, by omega⟩

theorem cut_count_iff (ask : CutAsk) (some : ask.layers ≠ []) (asked : 1 ≤ ask.shardCount) :
    (∀ part ∈ computeLayerShardLayouts ask, part.layerStart < part.layerEnd) ∧
      ((computeLayerShardLayouts ask).length = min ask.shardCount ask.layers.length ↔
        RunMeets (step ask) (FullInTime ask) (start ask) ask.layers) := by
  have layers := length_pos_of_ne_nil some
  obtain ⟨well, ends, less, meets⟩ := @run_best ask (.start ask) ask.layers (Nat.zero_add _)
    ⟨asked, nofun, nofun, fun none => absurd none layers.ne⟩
  have begins : (start ask).best ask = min ask.shardCount ask.layers.length := by
    simp only [start, best, remainingLayers, length_nil, Nat.sub_zero, layers.ne', if_false, Nat.zero_add]
  have last : (run (step ask) (start ask) ask.layers).best ask =
      (run (step ask) (start ask) ask.layers).layouts.length + 1 := by
    rw [best, remainingLayers, ends, Nat.sub_self, if_pos rfl]
  rw [← meets, begins, last, computeLayerShardLayouts, if_neg (by omega)]
  by_cases single : ask.shardCount = 1
  · have unfilled := well.unfilled
    rw [if_pos single]
    refine ⟨fun part listed => by cases mem_singleton.mp listed; exact layers, ?_⟩
    rw [length_singleton]
    omega
  · rw [if_neg single]
    refine ⟨fun part listed => (mem_append.mp listed).elim (well.held part) fun new => ?_, by rw [finish, length_append]; rfl⟩
    cases mem_singleton.mp new
    obtain ⟨first, begun⟩ := Option.isSome_iff_exists.mp (well.ends ends)
    rw [layout, begun]
    exact well.begun first begun

-- Two layers of 1 and 100 bytes in two parts: the first is left with the second.
theorem uneven_layers_merge :
    (computeLayerShardLayouts ⟨[], [[⟨[], 0, 1⟩], [⟨[], 1, 100⟩]], [], 2⟩).length = 1 := by
  decide

theorem cut_count_even : (computeLayerShardLayouts ⟨[], [[⟨[], 0, 4⟩], [⟨[], 4, 4⟩]], [], 2⟩).length = 2 :=
  (cut_count_iff ⟨[], [[⟨[], 0, 4⟩], [⟨[], 4, 4⟩]], [], 2⟩ (by simp) (by decide)).2.mpr
    ⟨fun _ _ => rfl, fun _ _ => rfl, trivial⟩

-- The parts are numbered and their layers meet end to end.
structure Laid (parts : List LayerShardLayout) (stop : Nat) : Prop where
  numbered : parts.map (·.index) = List.range parts.length
  meet : parts.map (·.layerStart) ++ [stop] = 0 :: parts.map (·.layerEnd)

def CutAsk.share (ask : CutAsk) (index first stop : Nat) : List LayoutTensor :=
  (if index = 0 then ask.before else []) ++ ((ask.layers.take stop).drop first).flatten

def CutAsk.Holds (ask : CutAsk) (more : List LayoutTensor) (part : LayerShardLayout) : Prop :=
  ∃ tensors, tensors = ask.share part.index part.layerStart part.layerEnd ++ more ∧ part.tensors = byOffset tensors ∧
    part.sizeBytes = bytesOf tensors

structure Cutting.Kept (ask : CutAsk) (cut : Cutting) : Prop where
  first : cut.layerStart.getD cut.layerEnd ≤ cut.layerEnd
  laid : Laid cut.layouts (cut.layerStart.getD cut.layerEnd)
  held : ∀ part ∈ cut.layouts, ask.Holds [] part
  current : cut.current = ask.share cut.layouts.length (cut.layerStart.getD cut.layerEnd) cut.layerEnd

theorem laid_concat {parts : List LayerShardLayout} {part : LayerShardLayout} (laid : Laid parts part.layerStart)
    (next : part.index = parts.length) : Laid (parts ++ [part]) part.layerEnd := by
  refine ⟨by simp [laid.numbered, next, range_succ], ?_⟩
  rw [map_append, map_append, ← cons_append, ← laid.meet]
  rfl

theorem step_kept (kept : cut.Kept ask) (next : ask.layers[cut.layerEnd]? = some layer) : (cut.step ask layer).Kept ask := by
  have added : (cut.add layer).Kept ask := by
    refine { kept with first := Nat.le_succ_of_le kept.first, current := ?_ }
    have inside := (List.getElem?_eq_some_iff.mp next).1
    have read : (ask.layers.take (cut.layerEnd + 1)).drop (cut.layerStart.getD cut.layerEnd) =
        (ask.layers.take cut.layerEnd).drop (cut.layerStart.getD cut.layerEnd) ++ [layer] := by
      rw [take_add_one, next, drop_append_of_le_length]
      · rfl
      · rw [length_take]
        exact le_min kept.first (kept.first.trans inside.le)
    simp [add, kept.current, CutAsk.share, read]
  rw [step]
  split
  · refine ⟨le_rfl, laid_concat added.laid rfl, forall_concat added.held ⟨_, ?_, rfl, rfl⟩, by simp [emit, CutAsk.share, add]⟩
    rw [append_nil]
    exact added.current
  · exact added

theorem run_kept {layers : List (List LayoutTensor)} (kept : cut.Kept ask) (left : ask.layers.drop cut.layerEnd = layers)
    (within : cut.layerEnd ≤ ask.layers.length) :
    (run (step ask) cut layers).Kept ask ∧ (run (step ask) cut layers).layerEnd = ask.layers.length := by
  induction layers generalizing cut with
  | nil => exact ⟨kept, within.antisymm (drop_eq_nil_iff.mp left)⟩
  | cons layer rest ih =>
    have next : ask.layers[cut.layerEnd]? = some layer := by rw [← head?_drop, left, head?_cons]
    have read : (cut.step ask layer).layerEnd = cut.layerEnd + 1 := by
      rw [step]
      split <;> rfl
    refine ih (step_kept kept next) ?_ (read ▸ (List.getElem?_eq_some_iff.mp next).1)
    rw [read, ← drop_drop, left, drop_one, tail_cons]

-- No layer is cut, and nothing is left out or held twice.
theorem cut_whole (ask : CutAsk) : ask.shardCount = 0 ∧ computeLayerShardLayouts ask = [] ∨
    ∃ parts last, computeLayerShardLayouts ask = parts ++ [last] ∧ Laid (parts ++ [last]) ask.layers.length ∧
      (∀ part ∈ parts, ask.Holds [] part) ∧ ask.Holds ask.after last := by
  rw [computeLayerShardLayouts]
  split_ifs with none one
  · exact .inl ⟨none, rfl⟩
  · refine .inr ⟨[], _, rfl, laid_concat ⟨rfl, rfl⟩ rfl, nofun, _, ?_, rfl, ?_⟩
    · simp [CutAsk.share]
    · simp only [CutAsk.totalBytes, bytesOf, map_append, sum_append, map_flatten, sum_flatten, map_map]
      rw [Nat.add_comm (sum _)]
      rfl
  · obtain ⟨kept, ends⟩ := @run_kept ask (.start ask) ask.layers
      ⟨le_rfl, ⟨rfl, rfl⟩, nofun, by simp [start, CutAsk.share]⟩ rfl (Nat.zero_le _)
    refine .inr ⟨_, _, rfl, ends ▸ laid_concat kept.laid rfl, kept.held, _, ?_, rfl, rfl⟩
    exact congrArg (· ++ ask.after) kept.current

end SwarmLlm.Inference
