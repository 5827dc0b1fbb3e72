import SwarmLlm.Lib.Run
import SwarmLlm.Scheduler.OfferedRanges
import SwarmLlm.Scheduler.Route

namespace SwarmLlm.Scheduler.Search

open Lib FloatArith List

variable {S D : Type}

def startOf (vertices : List (Vertex S D)) (i : Nat) : Nat :=
  match vertices[i]? with
  | none => 0
  | some v => v.range.1

def Rising (vertices : List (Vertex S D)) : Prop := ∀ v ∈ vertices, v.range.1 < v.range.2

variable {vertices : List (Vertex S D)} {i : Nat} {v : Vertex S D}

theorem order_listed (atI : vertices[i]? = some v) : i ∈ order vertices := by
  rw [order]
  exact mem_map.mpr ⟨(v, i), (mem_insertionSort _).mpr (mem_zipIdx_iff_getElem?.mpr atI), rfl⟩

def verticesAt (vertices : List (Vertex S D)) (path : List Nat) : List (Vertex S D) := path.filterMap fun i => vertices[i]?

theorem last_vertex {path : List Nat}
    (last : path.getLast? = some i) (atI : vertices[i]? = some v) : (verticesAt vertices path).getLast? = some v := by
  obtain ⟨before, rfl⟩ := getLast?_eq_some_iff.mp last
  rw [verticesAt, filterMap_append, filterMap_cons, atI]
  exact getLast?_concat

theorem noted_nodup {places seen : List Nat} (distinct : seen.Nodup) : (places.foldl noteFirst seen).Nodup := by
  induction places generalizing seen with
  | nil => exact distinct
  | cons idx rest ih =>
    apply ih
    unfold noteFirst
    by_cases known : seen.contains idx = true
    · rw [if_pos known]
      exact distinct
    rw [if_neg known]
    rw [contains_iff_mem] at known
    exact nodup_last distinct known

theorem noted_iff {places seen : List Nat} {idx : Nat} : idx ∈ places.foldl noteFirst seen ↔ idx ∈ seen ∨ idx ∈ places := by
  induction places generalizing seen with
  | nil => simp
  | cons first rest ih =>
    rw [foldl_cons, ih, noteFirst]
    by_cases known : seen.contains first = true
    · rw [if_pos known]
      rw [contains_iff_mem] at known
      constructor
      · rintro (here | later)
        · exact .inl here
        · exact .inr (mem_cons_of_mem _ later)
      · rintro (here | listed)
        · exact .inl here
        · rcases mem_cons.mp listed with same | later
          · exact .inl (same ▸ known)
          · exact .inr later
    · rw [if_neg known, mem_append, mem_singleton, mem_cons, or_assoc]

theorem bit_nonzero {capped : List Nat} (listed : v.candIdx ∈ capped) (short : capped.length ≤ 64) : bitOf capped v ≠ 0#64 := by
  unfold bitOf
  cases place : capped.idxOf? v.candIdx with
  | none => exact absurd listed (idxOf?_eq_none_iff.mp place)
  | some k =>
    have bound : k < capped.length := by
      obtain ⟨there, -⟩ := findIdx?_eq_some_iff_getElem.mp place
      exact there
    intro zero
    have bit := congrArg (fun bits : BitVec 64 => bits.getLsbD k) zero
    simp [show k < 64 by omega] at bit

theorem order_sorted : (order vertices).Pairwise fun a b => startOf vertices a ≤ startOf vertices b := by
  have total : Std.Total fun a b : Vertex S D × Nat => startsBefore a.1 b.1 := by
    constructor
    intro a b
    unfold startsBefore
    omega
  have trans : IsTrans (Vertex S D × Nat) fun a b => startsBefore a.1 b.1 := by
    constructor
    intro a b c
    unfold startsBefore
    omega
  rw [order, pairwise_map]
  refine List.Pairwise.imp_of_mem ?_ (pairwise_insertionSort (fun a b => startsBefore a.1 b.1) vertices.zipIdx)
  rintro ⟨v, i⟩ ⟨w, j⟩ first second before
  have atI := mem_zipIdx_iff_getElem?.mp ((mem_insertionSort _).mp first)
  have atJ := mem_zipIdx_iff_getElem?.mp ((mem_insertionSort _).mp second)
  unfold startsBefore at before
  rw [startOf, startOf, atI, atJ]
  dsimp only at before ⊢
  omega

variable [FloatArith S] {applyTrust : Bool} {ledBy : Option Nat} {applyTrust : Bool}

section Seeds

variable (s : Search S D) {vertices : List (Vertex S D)} (capped : List Nat)

def seeded (seed : S) (v : Vertex S D) : Mark S :=
  ⟨seed, none, bitOf capped v, 0, if s.isLocal v then some v.range.1 else none, if s.isLocal v then 1 else 0, 0,
    v.range.2 - v.range.1⟩

variable {capped}

theorem seed_cases : s.seedMark vertices capped applyTrust ledBy i = unreached ∨
      ∃ v seed, vertices[i]? = some v ∧ s.sourceOk v applyTrust = true ∧ seedCost ledBy i v = some seed ∧
        s.seedMark vertices capped applyTrust ledBy i = s.seeded capped seed v := by
  unfold seedMark
  cases atI : vertices[i]? with
  | none => exact .inl rfl
  | some v =>
    dsimp only
    by_cases source : s.sourceOk v applyTrust = true
    · rw [if_pos source]
      cases priced : seedCost ledBy i v with
      | none => exact .inl rfl
      | some seed =>
        dsimp only
        by_cases fits : s.localFits ⟨0, if s.isLocal v = true then some v.range.1 else none,
            if s.isLocal v = true then 1 else 0, 0⟩ v.range.2 = true
        · rw [if_pos fits]
          exact .inr ⟨v, seed, rfl, source, priced, rfl⟩
        · rw [if_neg fits]
          exact .inl rfl
    · rw [if_neg source]
      exact .inl rfl

theorem seed_parent (i : Nat) : (s.seedMark vertices capped applyTrust ledBy i).parent = none := by
  rcases seed_cases s with same | ⟨_, _, _, _, _, same⟩
  · rw [same]
    rfl
  · rw [same]
    rfl

end Seeds

variable [FloatArith D] [Narrows D S] {led : Bool} {mark : Mark S} {found : Found S}

section Pass

variable (s : Search S D) (vertices : List (Vertex S D)) (capped : List Nat) {reached : Mark S}

theorem extend_cases {vertices : List (Vertex S D)} {j : Nat}
    (reaches : s.extendMark vertices capped led i mark j = some reached) :
    ∃ v w, vertices[i]? = some v ∧ vertices[j]? = some w ∧ s.goOn capped led i mark v w = some reached := by
  unfold extendMark at reaches
  obtain ⟨v, atI, reaches⟩ := Option.bind_eq_some_iff.mp reaches
  obtain ⟨w, atJ, reaches⟩ := Option.bind_eq_some_iff.mp reaches
  exact ⟨v, w, atI, atJ, reaches⟩

def aheadOf (mark : Mark S) (v w : Vertex S D) : Nat := layersAheadInRun (decide (w.candIdx = v.candIdx)) mark.runWidth

def arrived (i : Nat) (mark : Mark S) (v w : Vertex S D) (step : S) : Mark S :=
  let share := s.shareAt mark v w
  ⟨mark.cost + step, some i, mark.usedCapped ||| bitOf capped w, share.base, share.run, share.runs, share.width,
    aheadOf mark v w + (w.range.2 - w.range.1)⟩

structure GoesOn (led : Bool) (i : Nat) (mark : Mark S) (v w : Vertex S D) (reached : Mark S) : Prop where
  reachable : isFinite mark.cost = true
  short : v.range.2 < s.numLayers
  meets : w.range.1 = v.range.2
  unused : mark.usedCapped &&& bitOf capped w = 0#64
  fits : s.localFits (s.shareAt mark v w) w.range.2 = true
  parent : reached.parent = some i
  used : reached.usedCapped = mark.usedCapped ||| bitOf capped w
  priced : ∃ step, s.stepCost v w (aheadOf mark v w) led = some step ∧ reached = s.arrived capped i mark v w step

theorem go_on_spec {w : Vertex S D}
    (goes : s.goOn capped led i mark v w = some reached) : GoesOn s capped led i mark v w reached := by
  unfold goOn at goes
  by_cases stuck : isFinite mark.cost = false ∨ s.numLayers ≤ v.range.2 ∨ w.range.1 ≠ v.range.2
  · rw [if_pos stuck] at goes
    cases goes
  rw [if_neg stuck] at goes
  simp only [not_or, Bool.not_eq_false, Nat.not_le, not_not] at stuck
  by_cases clash : bitOf capped w ≠ 0#64 ∧ mark.usedCapped &&& bitOf capped w ≠ 0#64
  · rw [if_pos clash] at goes
    cases goes
  rw [if_neg clash] at goes
  by_cases past : s.localFits (s.shareAt mark v w) w.range.2 = false
  · rw [if_pos past] at goes
    cases goes
  rw [if_neg past] at goes
  obtain ⟨step, priced, rfl⟩ := Option.map_eq_some_iff.mp goes
  have unused : mark.usedCapped &&& bitOf capped w = 0#64 := by
    by_cases empty : bitOf capped w = 0#64
    · rw [empty, BitVec.and_zero]
    · by_contra taken
      exact clash ⟨empty, taken⟩
  exact {
    reachable := stuck.1
    short := stuck.2.1
    meets := stuck.2.2
    unused := unused
    fits := Bool.not_eq_false _ ▸ past
    parent := rfl
    used := rfl
    priced := ⟨step, priced, rfl⟩ }

theorem extend_rising (rising : Rising vertices) (i : Nat) (mark : Mark S) (j : Nat) (reached : Mark S)
    (reaches : s.extendMark vertices capped led i mark j = some reached) : startOf vertices i < startOf vertices j := by
  obtain ⟨v, w, atI, atJ, goes⟩ := extend_cases s capped reaches
  have spec := go_on_spec s capped goes
  have wide := rising v (mem_of_getElem? atI)
  rw [startOf, startOf, atI, atJ]
  dsimp only
  rw [spec.meets]
  exact wide

variable {vertices}

theorem extend_parent (i : Nat) (mark : Mark S) (j : Nat) (reached : Mark S)
    (reaches : s.extendMark vertices capped led i mark j = some reached) : reached.parent = some i := by
  obtain ⟨v, w, -, -, goes⟩ := extend_cases s capped reaches
  exact (go_on_spec s capped goes).parent

theorem board_rests (rising : Rising vertices) :
    Rests (s.extendMark vertices capped ledBy.isSome) (s.seedMark vertices capped applyTrust ledBy)
      (s.board vertices capped applyTrust ledBy) (order vertices) := by
  have settled := rests_all (s.extendMark vertices capped ledBy.isSome) cheaper (startOf vertices)
    (extend_rising s vertices capped rising)
    (s.seedMark vertices capped applyTrust ledBy) [] (order vertices) (order vertices) (fun _ => .inl rfl)
    order_sorted
  exact settled

-- The vertices of a path that was reached: they start at a source, and no peer the
-- path keeps track of is on it twice.
structure Reached (applyTrust : Bool) (chain : List (Vertex S D)) (mark : Mark S) : Prop where
  source : ∃ v rest, chain = v :: rest ∧ s.sourceOk v applyTrust = true
  tracked : ∀ v ∈ chain, bitOf capped v &&& mark.usedCapped = bitOf capped v
  once : chain.Pairwise fun v w => bitOf capped v &&& bitOf capped w = 0#64

theorem bits_disjoint {left used right : BitVec 64} (inside : left &&& used = left) (apart : used &&& right = 0#64) :
    left &&& right = 0#64 := by
  rw [← inside, BitVec.and_assoc, apart, BitVec.and_zero]

theorem bits_inside {left used more : BitVec 64} (inside : left &&& used = left) : left &&& (used ||| more) = left := by
  rw [BitVec.and_or_distrib_left, inside]
  ext place bound
  simp only [BitVec.getElem_or, BitVec.getElem_and]
  exact Bool.or_eq_left_iff_imp.mpr fun both => (Bool.and_eq_true_iff.mp both).1

variable {capped}

theorem path_reached [LawfulFloat S] {path : List Nat}
    (along : Path (s.extendMark vertices capped ledBy.isSome) (s.seedMark vertices capped applyTrust ledBy) path i mark)
    (finite : isFinite mark.cost = true) : Reached s capped applyTrust (verticesAt vertices path) mark := by
  induction along with
  | seed i =>
    rcases seed_cases s with none | ⟨v, seed, atI, source, -, made⟩
    · rw [none] at finite
      exact absurd finite (by rw [unreached, LawfulFloat.infinity_infinite]; exact Bool.false_ne_true)
    have single : verticesAt vertices [i] = [v] := by
      rw [verticesAt, filterMap_cons, atI]
      rfl
    rw [single]
    refine ⟨⟨v, [], rfl, source⟩, ?_, pairwise_singleton _ _⟩
    intro w listed
    rw [mem_singleton.mp listed, made]
    exact BitVec.and_self
  | step before i mark j reached path reaches ih =>
    obtain ⟨v, w, atI, atJ, goes⟩ := extend_cases s capped reaches
    have spec := go_on_spec s capped goes
    obtain ⟨source, tracked, once⟩ := ih spec.reachable
    have longer : verticesAt vertices (before ++ [j]) = verticesAt vertices before ++ [w] := by
      rw [verticesAt, filterMap_append, filterMap_cons, atJ]
      rfl
    rw [longer]
    refine ⟨?_, ?_, ?_⟩
    · obtain ⟨first, rest, same, allowed⟩ := source
      exact ⟨first, rest ++ [w], by rw [same]; rfl, allowed⟩
    · rw [spec.used]
      refine forall_concat (fun u early => bits_inside (tracked u early)) ?_
      rw [BitVec.and_or_distrib_left, BitVec.and_self, BitVec.and_comm, spec.unused, BitVec.zero_or]
    · rw [pairwise_append]
      refine ⟨once, pairwise_singleton _ _, ?_⟩
      intro u early x last
      rw [mem_singleton.mp last]
      exact bits_disjoint (tracked u early) spec.unused

theorem pass_found [LawfulFloat S] (ran : s.runPass vertices capped applyTrust ledBy = some found) :
    ∃ v, vertices[found.sink]? = some v ∧ s.isSink v = true ∧
      isFinite (s.board vertices capped applyTrust ledBy found.sink).cost = true ∧
      found.parent = fun i => (s.board vertices capped applyTrust ledBy i).parent := by
  unfold runPass at ran
  dsimp only at ran
  cases least : minBy (fun a b => lt a.2 b.2) (s.sinks vertices ledBy (s.board vertices capped applyTrust ledBy)) with
  | none =>
    rw [least] at ran
    cases ran
  | some entry =>
    rw [least] at ran
    obtain ⟨sink, cost⟩ := entry
    dsimp only at ran
    by_cases finite : isFinite cost = true
    · rw [if_pos finite] at ran
      cases ran
      obtain ⟨⟨v, i⟩, kept, priced⟩ := mem_filterMap.mp (min_by_mem _ _ _ least)
      obtain ⟨known, sinks⟩ := mem_filter.mp kept
      obtain ⟨price, priced, same⟩ := Option.map_eq_some_iff.mp priced
      cases same
      refine ⟨v, mem_zipIdx_iff_getElem?.mp known, sinks, ?_, rfl⟩
      cases ledBy with
      | none =>
        cases priced
        exact finite
      | some head =>
        rw [sinkCost] at priced
        by_cases here : i = head
        · rw [if_pos here] at priced
          cases priced
        · rw [if_neg here] at priced
          obtain ⟨_, -, priced⟩ := Option.bind_eq_some_iff.mp priced
          obtain ⟨_, -, priced⟩ := Option.bind_eq_some_iff.mp priced
          obtain ⟨closing, -, rfl⟩ := Option.map_eq_some_iff.mp priced
          exact LawfulFloat.finite_left _ _ finite
    · rw [if_neg finite] at ran
      cases ran

theorem better_of_cases (best led : Option (Found S)) (found : Found S) (chosen : betterOf best led = some found) :
    best = some found ∨ led = some found := by
  unfold betterOf at chosen
  split at chosen
  · exact .inl chosen
  · exact .inr chosen
  · split at chosen
    · exact .inr chosen
    · exact .inl chosen

theorem heads_found (leads : List Nat) (best : Option (Found S))
    (chosen : leads.foldl (fun best head => betterOf best (s.runPass vertices capped applyTrust (some head))) best = some found) :
    best = some found ∨ ∃ head, s.runPass vertices capped applyTrust (some head) = some found := by
  induction leads generalizing best with
  | nil => exact .inl chosen
  | cons head rest ih =>
    rcases ih _ chosen with here | later
    · rcases better_of_cases _ _ _ here with before | led
      · exact .inl before
      · exact .inr ⟨head, led⟩
    · exact .inr later

theorem search_found (searched : s.searchWith vertices capped applyTrust = some found) :
    ∃ ledBy, s.runPass vertices capped applyTrust ledBy = some found := by
  rcases heads_found s _ _ searched with driven | ⟨head, led⟩
  · exact ⟨none, driven⟩
  · exact ⟨some head, led⟩

theorem found_reached [LawfulFloat S] (rising : Rising vertices) (applyTrust : Bool)
    (searched : s.searchWith vertices capped applyTrust = some found) :
    ∃ mark v, Reached s capped applyTrust (verticesAt vertices (s.pathTo found)) mark ∧
      (verticesAt vertices (s.pathTo found)).getLast? = some v ∧ s.isSink v = true := by
  obtain ⟨ledBy, ran⟩ := search_found s searched
  obtain ⟨v, atSink, sinks, finite, parents⟩ := pass_found s ran
  have ends : v.range.2 = s.numLayers := by
    rw [isSink, Bool.and_eq_true, Bool.and_eq_true] at sinks
    exact of_decide_eq_true sinks.1.1
  have enough : startOf vertices found.sink < s.numLayers := by
    rw [startOf, atSink, ← ends]
    exact rising v (mem_of_getElem? atSink)
  have along := trace_path (startOf vertices) (extend_rising s vertices capped rising)
    (s.board vertices capped applyTrust ledBy) (order vertices) (board_rests s capped rising)
    (seed_parent s) (extend_parent s capped) s.numLayers found.sink enough
  rw [← parents] at along
  refine ⟨_, v, path_reached s along finite, ?_, sinks⟩
  exact last_vertex (path_last _ along) atSink

end Pass

section Caps

variable (s : Search S D)

variable (few : (s.candidates.filter s.isCapped).length ≤ 64)

include few

theorem capped_seen :
    (((s.vertices.filter fun v => s.isCapped v.candidate).map Vertex.candIdx).foldl noteFirst []).length ≤ 64 := by
  refine Nat.le_trans ?_ few
  have places : ((s.candidates.zipIdx.filter fun entry => s.isCapped entry.1).map Prod.snd).length =
      (s.candidates.filter s.isCapped).length := by
    have firsts : (s.candidates.zipIdx.map Prod.fst).filter s.isCapped =
        (s.candidates.zipIdx.filter fun entry => s.isCapped entry.1).map Prod.fst := filter_map
    rw [zipIdx_map_fst] at firsts
    rw [firsts, length_map, length_map]
  rw [← places]
  apply List.Subperm.length_le
  apply subperm_of_subset (noted_nodup nodup_nil)
  intro idx listed
  rcases noted_iff.mp listed with none | there
  · cases none
  · obtain ⟨v, kept, rfl⟩ := mem_map.mp there
    obtain ⟨offered, capped⟩ := mem_filter.mp kept
    have known := (vertex_holds offered).1.known
    exact mem_map.mpr ⟨(v.candidate, v.candIdx), mem_filter.mpr ⟨mem_zipIdx_iff_getElem?.mpr known, capped⟩, rfl⟩

theorem capped_tracked (v : Vertex S D) (offered : v ∈ s.vertices)
    (capped : s.isCapped v.candidate = true) : bitOf (s.cappedPeers s.vertices) v ≠ 0#64 := by
  have short := capped_seen s few
  have all : s.cappedPeers s.vertices =
      ((s.vertices.filter fun v => s.isCapped v.candidate).map Vertex.candIdx).foldl noteFirst [] := by
    unfold cappedPeers
    exact if_neg (Nat.not_lt.mpr short)
  rw [all]
  have listed : v.candIdx ∈ ((s.vertices.filter fun v => s.isCapped v.candidate).map Vertex.candIdx).foldl noteFirst [] :=
    noted_iff.mpr (.inr (mem_map_of_mem (mem_filter.mpr ⟨offered, capped⟩)))
  exact bit_nonzero listed short

end Caps

end SwarmLlm.Scheduler.Search
