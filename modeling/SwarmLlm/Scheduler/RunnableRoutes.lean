import SwarmLlm.Scheduler.SearchPaths

namespace SwarmLlm.Scheduler

variable {segments : List PipelineSegment}

namespace Search

open Lib FloatArith List NodeCandidate

variable {S D : Type}

def Covers : Nat → Nat → List PipelineSegment → Prop
  | start, stop, [] => start = stop
  | start, stop, segment :: rest =>
    segment.layerRange.1 = start ∧ segment.layerRange.1 < segment.layerRange.2 ∧ Covers segment.layerRange.2 stop rest

theorem reach_covers (start : Nat) {stop : Nat}
    (rising : ∀ segment ∈ segments, segment.layerRange.1 < segment.layerRange.2) (reaches : reach start segments = .ok stop) :
    Covers start stop segments := by
  induction segments generalizing start with
  | nil =>
    cases reaches
    rfl
  | cons segment rest ih =>
    rw [reach] at reaches
    split at reaches
    · cases reaches
    · rename_i meets
      refine ⟨not_not.mp meets, rising segment mem_cons_self, ?_⟩
      exact ih _ (fun later listed => rising later (mem_cons_of_mem _ listed)) reaches

theorem checked (s : Search S D) (segments routed : List PipelineSegment) (passed : s.checkRoute segments = .ok routed) :
    routed = segments ∧ s.overLimit segments = none ∧ reach 0 segments = .ok s.numLayers := by
  unfold checkRoute at passed
  cases past : s.overLimit segments with
  | some excess =>
    rw [past] at passed
    cases passed
  | none =>
    rw [past] at passed
    cases reaches : reach 0 segments with
    | error expect =>
      rw [reaches] at passed
      cases passed
    | ok expect =>
      rw [reaches] at passed
      dsimp only at passed
      split at passed
      · cases passed
      · rename_i whole
        cases passed
        rw [not_not.mp whole]
        exact ⟨rfl, rfl, rfl⟩

-- What this node is given: within its limit in added layers, or one run no wider
-- than a fresh worker takes.
def WithinLimit (c : NodeCandidate S D) (runs : List LayerRange) (limit : Nat) : Prop :=
  (runs.map c.layersCharged).sum ≤ max limit 1 ∨
    ∃ start stop width, runs = [(start, stop)] ∧ c.freshRunLayers = some width ∧ stop - start ≤ width

variable {s : Search S D}

theorem local_within {c : NodeCandidate S D} {limit : Nat}
    (binds : s.capacity.bindsLocal = true) (here : s.localCandidate = some c) (known : c.maxHostableLayers = some limit)
    (under : s.overLimit segments = none) : WithinLimit c (s.localRunsOf segments) limit := by
  have added : s.localAdded = c.layersCharged := by
    funext range
    rw [localAdded, here]
  have fresh : s.localFreshRun = c.freshRunLayers := by
    rw [localFreshRun, if_pos binds, here]
    rfl
  unfold overLimit at under
  rw [if_pos binds, here, Option.bind_some, known] at under
  dsimp only at under
  rw [added] at under
  generalize s.localRunsOf segments = runs at under ⊢
  by_cases sums : (runs.map c.layersCharged).sum ≤ max limit 1
  · exact .inl sums
  by_cases one : s.oneFreshRun runs = true
  · right
    unfold oneFreshRun at one
    rw [fresh] at one
    split at one
    · rename_i start stop width allowance
      exact ⟨start, stop, width, rfl, allowance, of_decide_eq_true one⟩
    · cases one
  · rw [if_pos ⟨Nat.not_le.mp sums, Bool.not_eq_true _ ▸ one⟩] at under
    cases under

theorem same_place (distinct : (s.candidates.map nodeId).Nodup) {i j : Nat} {c d : NodeCandidate S D}
    (atI : s.candidates[i]? = some c) (atJ : s.candidates[j]? = some d) (same : c.nodeId = d.nodeId) : i = j := by
  have bound : i < (s.candidates.map nodeId).length := by
    rw [List.length_map]
    exact (List.getElem?_eq_some_iff.mp atI).1
  apply (List.getElem?_inj bound distinct).mp
  rw [List.getElem?_map, List.getElem?_map, atI, atJ, Option.map_some, Option.map_some, same]

theorem same_candidate (distinct : (s.candidates.map nodeId).Nodup) {c d : NodeCandidate S D}
    (listed : c ∈ s.candidates) (other : d ∈ s.candidates) (same : c.nodeId = d.nodeId) : c = d :=
  inj_on_of_nodup_map distinct listed other same

theorem at_most_one {A : Type} (test : A → Bool) (values : List A)
    (apart : values.Pairwise fun a b => ¬ (test a = true ∧ test b = true)) : (values.filter test).length ≤ 1 := by
  have kept := List.Pairwise.filter test apart
  have passing : ∀ value ∈ values.filter test, test value = true := fun value listed => (mem_filter.mp listed).2
  match shape : values.filter test with
  | [] => exact Nat.zero_le 1
  | [_] => exact Nat.le_refl 1
  | first :: second :: rest =>
    rw [shape] at kept passing
    have both := (pairwise_cons.mp kept).1 second mem_cons_self
    exact absurd ⟨passing first mem_cons_self, passing second (mem_cons_of_mem _ mem_cons_self)⟩ both

variable [FloatArith S] [FloatArith D] [Narrows D S]

structure Runnable (numLayers : Nat) (candidates : List (NodeCandidate S D)) (localNode : NodeId) (encryptedPipeline : Bool)
    (capacity : CapacityBound) (segments : List PipelineSegment) : Prop where
  nonempty : segments ≠ []
  covers : Covers 0 numLayers segments
  held : ∀ segment ∈ segments, ∃ c ∈ candidates, c.nodeId = segment.nodeId ∧
    ∃ available ∈ c.availableRanges, available.1 ≤ segment.layerRange.1 ∧ segment.layerRange.2 ≤ available.2
  first : ∃ segment, segments.head? = some segment ∧ (∃ c ∈ candidates, c.nodeId = segment.nodeId ∧ c.canBeFirst = true) ∧
    (encryptedPipeline = true → segment.nodeId = localNode)
  last : ∃ segment, segments.getLast? = some segment ∧ (∃ c ∈ candidates, c.nodeId = segment.nodeId ∧ c.canBeLast = true) ∧
    (encryptedPipeline = true → segment.nodeId = localNode)
  capped : (candidates.filter fun c => decide (c.nodeId ≠ localNode) && (capacity.peerCap c).isSome).length ≤ 64 →
    ∀ c ∈ candidates, c.nodeId ≠ localNode → ∀ cap, capacity.peerCap c = some cap →
      (segments.filter fun segment => segment.nodeId = c.nodeId).length ≤ 1 ∧
      ∀ segment ∈ segments, segment.nodeId = c.nodeId → le (c.capacityCharge segment.layerRange) cap = true
  within : capacity ≠ .localUnbounded → ∀ c ∈ candidates, c.nodeId = localNode → ∀ limit, c.maxHostableLayers = some limit →
    WithinLimit c (mergeRuns [] ((segments.filter fun segment => segment.nodeId = localNode).map PipelineSegment.layerRange)) limit

section Routed

variable (s : Search S D)

theorem vertices_rising : Rising s.vertices := fun v listed => (vertex_holds listed).1.rising

structure Behind (chain : List (Vertex S D)) (segments : List PipelineSegment) : Prop where
  made : segments = chain.map segmentOf
  offered : ∀ v ∈ chain, v ∈ s.vertices
  reached : ∃ mark, Reached s (s.cappedPeers s.vertices)
    (s.searchWith s.vertices (s.cappedPeers s.vertices) true).isSome chain mark
  sink : ∃ v, chain.getLast? = some v ∧ s.isSink v = true
  under : s.overLimit segments = none
  whole : reach 0 segments = .ok s.numLayers

variable {s}

theorem route_behind [LawfulFloat S] (routed : s.routeOver = .ok segments) : ∃ chain, Behind s chain segments := by
  unfold routeOver at routed
  dsimp only at routed
  split at routed
  · cases routed
  split at routed
  · cases routed
  split at routed
  · cases routed
  split at routed
  · cases routed
  cases sought : s.found? s.vertices (s.cappedPeers s.vertices) with
  | none =>
    rw [sought] at routed
    cases routed
  | some found =>
    rw [sought] at routed
    obtain ⟨made, under, whole⟩ := checked s _ segments routed
    have searched : s.searchWith s.vertices (s.cappedPeers s.vertices)
        (s.searchWith s.vertices (s.cappedPeers s.vertices) true).isSome = some found := by
      unfold found? at sought
      rcases Option.or_eq_some_iff.mp sought with trusted | ⟨stoodDown, any⟩
      · rw [trusted]
        exact trusted
      · rw [stoodDown]
        exact any
    obtain ⟨mark, v, reached, last, sinks⟩ :=
      found_reached s (vertices_rising s) _ searched
    refine ⟨verticesAt s.vertices (s.pathTo found), ?_⟩
    exact {
      made := by
        rw [made, segmentsOf, verticesAt, map_filterMap]
      offered := by
        intro u listed
        obtain ⟨i, -, atI⟩ := mem_filterMap.mp listed
        exact mem_of_getElem? atI
      reached := ⟨mark, reached⟩
      sink := ⟨v, last, sinks⟩
      under := by
        rw [made]
        exact under
      whole := by
        rw [made]
        exact whole }

variable {chain : List (Vertex S D)} {segments : List PipelineSegment} (behind : Behind s chain segments)
include behind

theorem behind_segment {segment : PipelineSegment} (listed : segment ∈ segments) : ∃ v ∈ s.vertices, segment = segmentOf v := by
  rw [behind.made] at listed
  obtain ⟨v, there, rfl⟩ := mem_map.mp listed
  exact ⟨v, behind.offered v there, rfl⟩

theorem behind_held (segment : PipelineSegment) (listed : segment ∈ segments) : ∃ c ∈ s.candidates, c.nodeId = segment.nodeId ∧
    ∃ available ∈ c.availableRanges, available.1 ≤ segment.layerRange.1 ∧ segment.layerRange.2 ≤ available.2 := by
  obtain ⟨v, offered, rfl⟩ := behind_segment behind listed
  have holds := (vertex_holds offered).1
  exact ⟨v.candidate, mem_of_getElem? holds.known, rfl, holds.held⟩

theorem behind_covers : Covers 0 s.numLayers segments := by
  apply reach_covers 0 _ behind.whole
  intro segment listed
  obtain ⟨v, offered, rfl⟩ := behind_segment behind listed
  exact (vertex_holds offered).1.rising

theorem behind_first : ∃ segment, segments.head? = some segment ∧
    (∃ c ∈ s.candidates, c.nodeId = segment.nodeId ∧ c.canBeFirst = true) ∧
    (s.encryptedPipeline = true → segment.nodeId = s.localNode) := by
  obtain ⟨mark, reached⟩ := behind.reached
  obtain ⟨v, rest, shape, source⟩ := reached.source
  have known := (vertex_holds (behind.offered v (by rw [shape]; exact mem_cons_self))).1.known
  refine ⟨segmentOf v, ?_, ⟨v.candidate, mem_of_getElem? known, rfl, ?_⟩, ?_⟩
  · rw [behind.made, shape]
    rfl
  · simp only [sourceOk, Bool.and_eq_true] at source
    exact source.1.1.2
  · intro encrypted
    simp only [sourceOk, encrypted, Bool.and_eq_true, Bool.true_and, Bool.not_eq_true', decide_eq_false_iff_not, not_not] at source
    exact source.1.2

theorem behind_last : ∃ segment, segments.getLast? = some segment ∧
    (∃ c ∈ s.candidates, c.nodeId = segment.nodeId ∧ c.canBeLast = true) ∧
    (s.encryptedPipeline = true → segment.nodeId = s.localNode) := by
  obtain ⟨v, last, sinks⟩ := behind.sink
  have known := (vertex_holds (behind.offered v (mem_of_getLast? last))).1.known
  refine ⟨segmentOf v, ?_, ⟨v.candidate, mem_of_getElem? known, rfl, ?_⟩, ?_⟩
  · rw [behind.made, getLast?_map, last]
    rfl
  · simp only [isSink, Bool.and_eq_true] at sinks
    exact sinks.1.2
  · intro encrypted
    simp only [isSink, encrypted, Bool.and_eq_true, Bool.true_and, Bool.not_eq_true', decide_eq_false_iff_not, not_not] at sinks
    exact sinks.2

variable {c : NodeCandidate S D}

variable (distinct : (s.candidates.map nodeId).Nodup)

include distinct

theorem behind_once
    (few : (s.candidates.filter s.isCapped).length ≤ 64) (listed : c ∈ s.candidates)
    (capped : s.isCapped c = true) : (segments.filter fun segment => segment.nodeId = c.nodeId).length ≤ 1 := by
  obtain ⟨mark, reached⟩ := behind.reached
  rw [behind.made, filter_map, length_map]
  apply at_most_one
  refine List.Pairwise.imp_of_mem ?_ reached.once
  rintro v w first second disjoint ⟨mine, again⟩
  have same : v.candidate.nodeId = w.candidate.nodeId := (of_decide_eq_true mine).trans (of_decide_eq_true again).symm
  have holdsV := (vertex_holds (behind.offered v first)).1
  have holdsW := (vertex_holds (behind.offered w second)).1
  have place := same_place distinct holdsV.known holdsW.known same
  have it := same_candidate distinct (mem_of_getElem? holdsV.known) listed (of_decide_eq_true mine)
  have bits : bitOf (s.cappedPeers s.vertices) w = bitOf (s.cappedPeers s.vertices) v := by rw [bitOf, bitOf, place]
  rw [bits, BitVec.and_self] at disjoint
  exact capped_tracked s few v (behind.offered v first) (by rw [it]; exact capped) disjoint

theorem behind_within (listed : c ∈ s.candidates)
    (here : c.nodeId = s.localNode) {limit : Nat} (known : c.maxHostableLayers = some limit) (binds : s.capacity.bindsLocal = true)
    : WithinLimit c (s.localRunsOf segments) limit := by
  have found : s.localCandidate = some c := by
    unfold localCandidate
    cases sought : s.candidates.find? fun c => decide (c.nodeId = s.localNode) with
    | none => exact absurd here (of_decide_eq_false (Bool.not_eq_true _ ▸ find?_eq_none.mp sought c listed))
    | some d =>
      have same := find?_some sought
      rw [same_candidate distinct (mem_of_find?_eq_some sought) listed ((of_decide_eq_true same).trans here.symm)]
  exact local_within binds found known behind.under

theorem behind_runnable :
    Runnable s.numLayers s.candidates s.localNode s.encryptedPipeline s.capacity segments where
  nonempty := by
    obtain ⟨segment, head, -⟩ := behind_first behind
    rintro rfl
    cases head
  covers := behind_covers behind
  held := behind_held behind
  first := behind_first behind
  last := behind_last behind
  capped := by
    intro few c listed peer cap figure
    have capped : s.isCapped c = true := by
      rw [isCapped, figure, decide_eq_true peer]
      rfl
    refine ⟨behind_once behind distinct few listed capped, ?_⟩
    intro segment there mine
    obtain ⟨v, offered, rfl⟩ := behind_segment behind there
    obtain ⟨holds, fits⟩ := vertex_holds offered
    have it := same_candidate distinct (mem_of_getElem? holds.known) listed mine
    rw [it] at fits
    exact fits_cap peer figure fits
  within := by
    intro bound c listed here limit known
    apply behind_within behind distinct listed here known
    cases held : s.capacity with
    | localUnbounded => exact absurd held bound
    | everyone | peersAtFaceValue | peersAtCeiling => rfl

end Routed

end Search

open Search Lib

variable {S D : Type} [FloatArith S] [FloatArith D] [Narrows D S]

theorem routed_over {numLayers : Nat} {candidates : List (NodeCandidate S D)} {localNode : NodeId}
    {encryptedPipeline partialRanges : Bool} {capacity : CapacityBound} {promptTokens : Option Nat}
    (routed : routeShortestPath numLayers candidates localNode encryptedPipeline partialRanges capacity promptTokens = .ok segments) :
    ∃ meetHeld, (Search.mk numLayers candidates localNode encryptedPipeline partialRanges capacity promptTokens meetHeld).routeOver =
      .ok segments := by
  unfold routeShortestPath at routed
  dsimp only at routed
  split at routed
  · rename_i first found
    cases routed
    exact ⟨false, found⟩
  split at routed
  · split at routed
    · rename_i second found
      cases routed
      exact ⟨true, found⟩
    · cases routed
  · cases routed

theorem route_runnable [LawfulFloat S] (numLayers : Nat) (candidates : List (NodeCandidate S D)) (localNode : NodeId)
    (encryptedPipeline partialRanges : Bool) (capacity : CapacityBound) (promptTokens : Option Nat)
    (segments : List PipelineSegment) (distinct : (candidates.map NodeCandidate.nodeId).Nodup)
    (routed : routeShortestPath numLayers candidates localNode encryptedPipeline partialRanges capacity promptTokens = .ok segments) :
    Runnable numLayers candidates localNode encryptedPipeline capacity segments := by
  obtain ⟨meetHeld, call⟩ := routed_over routed
  obtain ⟨chain, behind⟩ := route_behind call
  exact behind_runnable behind distinct

def bareCandidate (nodeId : NodeId) (ranges : List LayerRange) (latencyMs : Nat) (msPerLayer : Rat) :
    NodeCandidate Exact Exact where
  nodeId := nodeId
  shardId := ⟨⟨"model"⟩, 0⟩
  availableRanges := ranges
  latencyMs := latencyMs
  load := .value 0
  trustScore := .value 1
  canBeFirst := true
  canBeLast := true
  estTokensPerSec := .value 0
  layerWork := .value 1
  statedMsPerLayer := none
  observedLatencyMsPerLayer := some (.value msPerLayer)
  observedDelegatedMsPerLayer := none
  observedFixedMsPerVisit := none
  expectedAttempts := .value 1
  goodputBytesPerSec := none
  maxHostableLayers := none
  maxHostableLayersAtFaceValue := none
  maxHostableLayersAtCeiling := none
  observedPrefillMsPerLayerByte := none
  hasGpu := false
  heldRanges := []
  publishedRoom := none
  cachedPrefixTokens := 0
  splitOpenings := []
  coldLoadMsPerLayer := .value 0
  replyTokensAtMost := none
  replyTokensExpected := none
  splitTokensPerRound := none
  freshRunLayers := none
  cardLayers := none
  processorTokensPerSec := .value 0
  promptMemoryRefused := false
  promptFitCountsCaches := false
  ring := ⟨false, none, false, false⟩
  rangeWeights := none

theorem route_runnable_alone :
    Runnable 2 [bareCandidate (NodeId.ofByte 1) [(0, 2)] 10 1] (NodeId.ofByte 1) true .everyone
      [⟨NodeId.ofByte 1, ⟨⟨"model"⟩, 0⟩, (0, 2)⟩] :=
  route_runnable 2 [bareCandidate (NodeId.ofByte 1) [(0, 2)] 10 1] (NodeId.ofByte 1) true false .everyone none _
    (by decide) (by rfl)

end SwarmLlm.Scheduler
