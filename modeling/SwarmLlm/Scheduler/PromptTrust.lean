import SwarmLlm.Scheduler.LocalShare

namespace SwarmLlm.Scheduler

variable {v : Vertex S D} {chain : List (Vertex S D)}

namespace Search

open Lib FloatArith List LawfulFloat

variable {S D : Type} {capped : List Nat} {v : Vertex S D} {chain : List (Vertex S D)}

theorem place_at {idx place : Nat} (found : capped.idxOf? idx = some place) : capped[place]? = some idx := by
  obtain ⟨bound, same, -⟩ := findIdx?_eq_some_iff_getElem.mp found
  rw [getElem?_eq_getElem bound, beq_iff_eq.mp same]

theorem shifted_apart {first second : Nat} (differ : first ≠ second) : (1#64 <<< first) &&& (1#64 <<< second) = 0#64 := by
  ext place bound
  simp only [BitVec.getElem_and, BitVec.getElem_shiftLeft, BitVec.getElem_zero]
  by_cases here : place = first
  · simp only [here, Nat.sub_self, Bool.and_eq_false_imp]
    intro _
    simp
    omega
  · simp
    omega

theorem bits_meet {w : Vertex S D} (meet : bitOf capped v &&& bitOf capped w ≠ 0#64) :
    v.candIdx = w.candIdx ∧ v.candIdx ∈ capped := by
  unfold bitOf at meet
  cases placeV : capped.idxOf? v.candIdx with
  | none =>
    rw [placeV] at meet
    exact absurd BitVec.zero_and meet
  | some k =>
    cases placeW : capped.idxOf? w.candIdx with
    | none =>
      rw [placeW] at meet
      exact absurd BitVec.and_zero meet
    | some l =>
      rw [placeV, placeW] at meet
      have same : k = l := by
        by_contra differ
        exact meet (shifted_apart differ)
      have atV := place_at placeV
      have atW := place_at placeW
      rw [← same, atV] at atW
      exact ⟨Option.some.inj atW, mem_of_getElem? atV⟩

variable [FloatArith S] [FloatArith D] [Narrows D S]

-- Offered sub-ranges that meet end to end, from a first one that may be shown the prompt.
inductive TrustedChain (s : Search S D) : List (Vertex S D) → Vertex S D → Prop where
  | first (v : Vertex S D) (offered : v ∈ s.vertices) (source : s.sourceOk v true = true) : TrustedChain s [v] v
  | next (chain : List (Vertex S D)) (v w : Vertex S D) (before : TrustedChain s chain v) (offered : w ∈ s.vertices)
      (meets : w.range.1 = v.range.2) : TrustedChain s (chain ++ [w]) w

-- The price of a chain driven from here, as the search adds it up.
structure Driven (S D : Type) where
  cost : S
  runWidth : Nat
  last : Vertex S D

def driveOn (s : Search S D) (so : Driven S D) (w : Vertex S D) : Driven S D :=
  let ahead := layersAheadInRun (decide (w.candIdx = so.last.candIdx)) so.runWidth
  ⟨so.cost + (s.costInRun w ahead false).getD infinity, ahead + (w.range.2 - w.range.1), w⟩

def driven (s : Search S D) : List (Vertex S D) → Option (Driven S D)
  | [] => none
  | v :: rest => some (rest.foldl s.driveOn ⟨v.costMs, v.range.2 - v.range.1, v⟩)

variable {s : Search S D}

theorem driven_concat {w : Vertex S D} {so : Driven S D} (before : s.driven chain = some so) :
    s.driven (chain ++ [w]) = some (s.driveOn so w) := by
  cases chain with
  | nil => cases before
  | cons v rest =>
    rw [driven, Option.some.injEq] at before
    rw [cons_append, driven, foldl_append, before]
    rfl

-- No trusted chain of what was offered is short of memory or out of price.
structure Ample (s : Search S D) : Prop where
  peers : ∀ chain v, s.TrustedChain chain v → chain.Pairwise fun u w => u.candIdx = w.candIdx → s.isCapped u.candidate = false
  own : ∀ chain v c limit, s.TrustedChain chain v → s.capacity.bindsLocal = true → s.localCandidate = some c →
    c.maxHostableLayers = some limit → WithinLimit c (s.runsOf chain) limit
  priced : ∀ chain v so, s.TrustedChain chain v → s.driven chain = some so → isFinite so.cost = true

-- A chain the request could have taken: over all the layers, within every bound.
structure Feasible (s : Search S D) (chain : List (Vertex S D)) (v : Vertex S D) : Prop where
  trusted : s.TrustedChain chain v
  whole : v.range.2 = s.numLayers
  last : v.candidate.canBeLast = true
  once : chain.Pairwise fun u w => u.candIdx = w.candIdx → s.isCapped u.candidate = false
  capped : ∀ u ∈ chain, ∀ cap, u.candidate.nodeId ≠ s.localNode → s.capacity.peerCap u.candidate = some cap →
    le (u.candidate.capacityCharge u.range) cap = true
  own : ∀ c limit, s.capacity.bindsLocal = true → s.localCandidate = some c → c.maxHostableLayers = some limit →
    WithinLimit c (s.runsOf chain) limit

theorem chain_offered (trusted : s.TrustedChain chain v) {u : Vertex S D} (listed : u ∈ chain) : u ∈ s.vertices := by
  induction trusted with
  | first v offered source =>
    rw [mem_singleton.mp listed]
    exact offered
  | next chain v w before offered meets ih =>
    rcases mem_append.mp listed with early | last
    · exact ih early
    · rw [mem_singleton.mp last]
      exact offered

theorem capped_noted {idx : Nat} (listed : idx ∈ s.cappedPeers s.vertices) :
    ∃ v ∈ s.vertices, v.candIdx = idx ∧ s.isCapped v.candidate = true := by
  unfold cappedPeers at listed
  dsimp only at listed
  split at listed
  · cases listed
  · rcases noted_iff.mp listed with none | there
    · cases none
    · obtain ⟨v, kept, same⟩ := mem_map.mp there
      obtain ⟨offered, capped⟩ := mem_filter.mp kept
      exact ⟨v, offered, same, capped⟩

structure Follows (s : Search S D) (chain : List (Vertex S D)) (v : Vertex S D) (mark : Mark S) : Prop where
  trusted : s.TrustedChain chain v
  used : ∀ bits, mark.usedCapped &&& bits ≠ 0#64 → ∃ u ∈ chain, bitOf (s.cappedPeers s.vertices) u &&& bits ≠ 0#64
  shared : s.Shares chain v.range.2 (shareOf mark)
  priced : s.driven chain = some ⟨mark.cost, mark.runWidth, v⟩

theorem seeded_follows (offered : v ∈ s.vertices) (source : s.sourceOk v true = true) :
    s.Follows [v] v (s.seeded (s.cappedPeers s.vertices) v.costMs v) where
  trusted := .first v offered source
  used := fun _ meet => ⟨v, mem_singleton_self v, meet⟩
  shared := shares_first
  priced := rfl

theorem step_priced (v w : Vertex S D) {ahead : Nat} : ∃ step, s.stepCost v w ahead false = some step := by
  unfold stepCost costInRun
  rw [if_neg Bool.false_ne_true]
  dsimp only
  rw [if_neg Bool.false_ne_true]
  split
  · exact ⟨_, rfl⟩
  · exact ⟨_, rfl⟩

theorem arrived_follows (i : Nat) {w : Vertex S D} {mark : Mark S} {step : S}
    (follows : s.Follows chain v mark) (offered : w ∈ s.vertices) (meets : w.range.1 = v.range.2)
    (stepped : s.stepCost v w (aheadOf mark v w) false = some step) :
    s.Follows (chain ++ [w]) w (s.arrived (s.cappedPeers s.vertices) i mark v w step) where
  trusted := .next chain v w follows.trusted offered meets
  used := by
    intro bits meet
    have either : mark.usedCapped &&& bits ≠ 0#64 ∨ bitOf (s.cappedPeers s.vertices) w &&& bits ≠ 0#64 := by
      by_contra neither
      simp only [not_or, not_not] at neither
      apply meet
      dsimp only [arrived]
      rw [BitVec.and_comm, BitVec.and_or_distrib_left, BitVec.and_comm bits, neither.1, BitVec.and_comm bits, neither.2,
        BitVec.zero_or]
    rcases either with before | here
    · obtain ⟨u, listed, met⟩ := follows.used bits before
      exact ⟨u, mem_append_left _ listed, met⟩
    · exact ⟨w, mem_append_right _ (mem_singleton_self w), here⟩
  shared := shares_next follows.shared meets (vertex_holds offered).1.rising
  priced := by
    rw [driven_concat follows.priced, Option.some.injEq, driveOn]
    dsimp only [arrived]
    have same : s.costInRun w (aheadOf mark v w) false = some step := stepped
    unfold aheadOf at same
    rw [same]
    rfl

section Passes

variable (s : Search S D) (ample : s.Ample)
include ample

variable (i : Nat) {mark : Mark S} {w v : Vertex S D} {chain : List (Vertex S D)}

section

variable (follows : s.Follows chain v mark)

include follows

theorem follows_finite :
    isFinite mark.cost = true := ample.priced chain v _ follows.trusted follows.priced

theorem unused_next (offered : w ∈ s.vertices) (meets : w.range.1 = v.range.2) :
    mark.usedCapped &&& bitOf (s.cappedPeers s.vertices) w = 0#64 := by
  by_contra clash
  obtain ⟨u, listed, met⟩ := follows.used _ clash
  obtain ⟨same, tracked⟩ := bits_meet met
  obtain ⟨x, known, place, capped⟩ := capped_noted tracked
  have longer := ample.peers _ w (.next chain v w follows.trusted offered meets)
  have free := (pairwise_append.mp longer).2.2 u listed w (mem_singleton_self w) same
  have ofU := (vertex_holds (chain_offered follows.trusted listed)).1.known
  have ofX := (vertex_holds known).1.known
  rw [place, ofU] at ofX
  rw [← Option.some.inj ofX, free] at capped
  cases capped

theorem follows_next {i j : Nat} (atI : s.vertices[i]? = some v)
    (atJ : s.vertices[j]? = some w) (meets : w.range.1 = v.range.2) :
    ∃ reached, s.extendMark s.vertices (s.cappedPeers s.vertices) false i mark j = some reached ∧
      s.Follows (chain ++ [w]) w reached := by
  have offered : w ∈ s.vertices := mem_of_getElem? atJ
  have holds := (vertex_holds offered).1
  obtain ⟨step, stepped⟩ := step_priced v w
  have next := arrived_follows i follows offered meets stepped
  refine ⟨_, ?_, next⟩
  have going : ¬ (isFinite mark.cost = false ∨ s.numLayers ≤ v.range.2 ∨ w.range.1 ≠ v.range.2) := by
    have finite := follows_finite s ample follows
    have rising := holds.rising
    have ends := holds.ends
    rintro (infinite | long | apart)
    · rw [finite] at infinite
      cases infinite
    · omega
    · exact apart meets
  have free : ¬ (bitOf (s.cappedPeers s.vertices) w ≠ 0#64 ∧
      mark.usedCapped &&& bitOf (s.cappedPeers s.vertices) w ≠ 0#64) := fun clash =>
    clash.2 (unused_next s ample follows offered meets)
  have fits : s.localFits (s.shareAt mark v w) w.range.2 = true :=
    shares_fits (shares_next follows.shared meets holds.rising)
      (fun c limit binds here known => ample.own _ w c limit next.trusted binds here known)
  rw [extendMark, atI, Option.bind_some, atJ, Option.bind_some, goOn, if_neg going, if_neg free]
  dsimp only
  rw [fits, if_neg (fun past => Bool.false_ne_true past.symm)]
  have priced : s.stepCost v w (layersAheadInRun (decide (w.candIdx = v.candIdx)) mark.runWidth) false = some step := stepped
  rw [priced]
  rfl

end

theorem chain_path (trusted : s.TrustedChain chain v) :
    ∃ path i mark, Path (s.extendMark s.vertices (s.cappedPeers s.vertices) false)
      (s.seedMark s.vertices (s.cappedPeers s.vertices) true none) path i mark ∧ s.vertices[i]? = some v ∧
      s.Follows chain v mark := by
  induction trusted with
  | first v offered source =>
    obtain ⟨i, bound, here⟩ := getElem_of_mem offered
    have atI : s.vertices[i]? = some v := by rw [getElem?_eq_getElem bound, here]
    have follows := seeded_follows offered source
    have fits := shares_fits shares_first
      (fun c limit binds here known => ample.own [v] v c limit (.first v offered source) binds here known)
    have made : s.seedMark s.vertices (s.cappedPeers s.vertices) true none i = s.seeded (s.cappedPeers s.vertices) v.costMs v := by
      rw [seedMark, atI]
      dsimp only
      rw [if_pos source]
      dsimp only [seedCost]
      rw [if_pos fits]
      rfl
    refine ⟨[i], i, _, Path.seed i, atI, ?_⟩
    rw [made]
    exact follows
  | next chain v w before offered meets ih =>
    obtain ⟨path, i, mark, along, atI, follows⟩ := ih
    obtain ⟨j, bound, here⟩ := getElem_of_mem offered
    have atJ : s.vertices[j]? = some w := by rw [getElem?_eq_getElem bound, here]
    obtain ⟨reached, goesOn, next⟩ := follows_next s ample follows atI atJ meets
    exact ⟨path ++ [j], j, reached, Path.step path i mark j reached along goesOn, atJ, next⟩

variable [LawfulFloat S]

theorem left_cases {i : Nat}
    (left : LeftBy (s.extendMark s.vertices (s.cappedPeers s.vertices) false) (s.seedMark s.vertices (s.cappedPeers s.vertices) true none) i mark) :
    mark.cost = infinity ∨ ∃ chain v, s.vertices[i]? = some v ∧ s.Follows chain v mark := by
  obtain ⟨path, along⟩ := left
  induction along with
  | seed i =>
    rcases seed_cases s with none | ⟨v, seed, atI, source, priced, made⟩
    · left
      rw [none]
      rfl
    · right
      cases priced
      rw [made]
      exact ⟨[v], v, atI, seeded_follows (mem_of_getElem? atI) source⟩
  | step before i mark j reached path reaches ih =>
    obtain ⟨v, w, atI, atJ, goes⟩ := extend_cases s _ reaches
    have spec := go_on_spec s _ goes
    rcases ih with infinite | ⟨chain, u, atU, follows⟩
    · have finite := spec.reachable
      rw [infinite, infinity_infinite] at finite
      cases finite
    rw [atI] at atU
    cases atU
    obtain ⟨next, goesOn, follows⟩ := follows_next s ample follows atI atJ spec.meets
    rw [reaches] at goesOn
    cases goesOn
    exact .inr ⟨_, w, atJ, follows⟩

-- Nothing the bounds or the prices ask keeps the trusted pass from the end of a
-- trusted chain, whichever path it found first.
theorem board_finite (trusted : s.TrustedChain chain v) :
    ∃ i, s.vertices[i]? = some v ∧ isFinite (s.board s.vertices (s.cappedPeers s.vertices) true none i).cost = true := by
  obtain ⟨path, i, mark, along, atI, follows⟩ := chain_path s ample trusted
  refine ⟨i, atI, ?_⟩
  have finite := follows_finite s ample follows
  refine path_matched (s.extendMark s.vertices (s.cappedPeers s.vertices) false) cheaper (startOf s.vertices)
    (extend_rising s s.vertices _ (vertices_rising s)) (fun mark => lt_irrefl mark.cost)
    (fun value old new => lt_lower value.cost old.cost new.cost)
    (s.seedMark s.vertices (s.cappedPeers s.vertices) true none) (order s.vertices)
    (fun _ mine other => isFinite other.cost = true → isFinite mine.cost = true) order_sorted
    ?_ (fun _ known => known) ?_ ?_ ?_ path i mark along finite
  · intro source label target reached goes
    obtain ⟨u, w, atU, atW, -⟩ := extend_cases s _ goes
    exact ⟨order_listed atU, order_listed atW⟩
  · intro vertex old new label improves left _ _
    rcases left_cases s ample left with infinite | ⟨_, _, _, follows⟩
    · rw [cheaper, infinite, infinity_top] at improves
      cases improves
    · exact follows_finite s ample follows
  · intro vertex old new label idle leftOld _ holds known
    rcases left_cases s ample leftOld with infinite | ⟨_, _, _, follows⟩
    · rw [cheaper, infinite, below_infinity _ (holds known)] at idle
      cases idle
    · exact follows_finite s ample follows
  intro source label other target reached left _ holds goes
  obtain ⟨u, w, atU, atW, gone⟩ := extend_cases s _ goes
  have spec := go_on_spec s _ gone
  rcases left_cases s ample left with infinite | ⟨chain, x, atX, follows⟩
  · have finite := holds spec.reachable
    rw [infinite, infinity_infinite] at finite
    cases finite
  · rw [atU] at atX
    cases atX
    obtain ⟨next, goesOn, follows⟩ := follows_next s ample follows atU atW spec.meets
    exact ⟨next, goesOn, fun _ => follows_finite s ample follows⟩

theorem board_cases : (s.board s.vertices (s.cappedPeers s.vertices) true none i).cost = infinity ∨
      isFinite (s.board s.vertices (s.cappedPeers s.vertices) true none i).cost = true := by
  have left := keeps_all (s.extendMark s.vertices (s.cappedPeers s.vertices) false) cheaper
    (s.seedMark s.vertices (s.cappedPeers s.vertices) true none) (s.seedMark s.vertices (s.cappedPeers s.vertices) true none)
    (fun _ _ => True) (fun _ _ _ _ _ _ => trivial) (order s.vertices) (order s.vertices)
    (fun vertex => ⟨⟨_, Path.seed vertex⟩, trivial⟩) i
  rcases left_cases s ample left.1 with infinite | ⟨_, _, _, follows⟩
  · exact .inl infinite
  · exact .inr (follows_finite s ample follows)

theorem trusted_pass (trusted : s.TrustedChain chain v) (sinks : s.isSink v = true) :
    (s.runPass s.vertices (s.cappedPeers s.vertices) true none).isSome = true := by
  obtain ⟨i, atI, finite⟩ := board_finite s ample trusted
  have listed : (i, (s.board s.vertices (s.cappedPeers s.vertices) true none i).cost) ∈
      s.sinks s.vertices none (s.board s.vertices (s.cappedPeers s.vertices) true none) :=
    mem_filterMap.mpr ⟨(v, i), mem_filter.mpr ⟨mem_zipIdx_iff_getElem?.mpr atI, sinks⟩, rfl⟩
  obtain ⟨⟨sink, cost⟩, least, found⟩ := min_by_good (fun a b : Nat × S => lt a.2 b.2) _ (by
    rintro ⟨j, cost⟩ there bad
    obtain ⟨⟨w, k⟩, -, priced⟩ := mem_filterMap.mp there
    cases priced
    rcases board_cases s ample k with infinite | fine
    · dsimp only
      rw [infinite]
      exact ⟨fun other good => below_infinity _ good, fun other => infinity_top _⟩
    · rw [fine] at bad
      cases bad) _ listed finite
  unfold runPass
  dsimp only
  rw [least]
  exact (congrArg Option.isSome (if_pos found)).trans rfl

end Passes

variable {s : Search S D}

theorem whole_offered {part : Clamped S D} (clamps : part ∈ s.clamped)
    (fits : s.fits part.candidate part.range = true) : s.vertexOf part part.range ∈ s.vertices :=
  mem_flatMap.mpr ⟨part, clamps, mem_map_of_mem (mem_filter.mpr ⟨mem_cons_self, fits⟩)⟩

theorem heads_some {vertices : List (Vertex S D)} {applyTrust : Bool} {leads : List Nat}
    {best : Option (Found S)} (known : best.isSome = true) :
    (leads.foldl (fun best head => betterOf best (s.runPass vertices capped applyTrust (some head))) best).isSome = true := by
  induction leads generalizing best with
  | nil => exact known
  | cons head rest ih =>
    apply ih
    obtain ⟨found, rfl⟩ := Option.isSome_iff_exists.mp known
    dsimp only
    cases s.runPass vertices capped applyTrust (some head) with
    | none => rfl
    | some led =>
      unfold betterOf
      dsimp only
      split
      · rfl
      · rfl

-- Where nothing is short, a route over a trusted chain is found before the bar stands down.
theorem route_trusted [LawfulFloat S] (ample : s.Ample) {segments : List PipelineSegment}
    (routed : s.routeOver = .ok segments) (trusted : s.TrustedChain chain v) (sinks : s.isSink v = true) :
    ∃ segment c, segments.head? = some segment ∧ c ∈ s.candidates ∧ c.nodeId = segment.nodeId ∧
      trustedWithThePlaintextPrompt c s.localNode = true := by
  obtain ⟨path, behind⟩ := route_behind routed
  obtain ⟨mark, reached⟩ := behind.reached
  have stands : (s.searchWith s.vertices (s.cappedPeers s.vertices) true).isSome = true :=
    heads_some (trusted_pass s ample trusted sinks)
  rw [stands] at reached
  obtain ⟨first, rest, shape, source⟩ := reached.source
  have known := (vertex_holds (behind.offered first (by rw [shape]; exact mem_cons_self))).1.known
  refine ⟨segmentOf first, first.candidate, ?_, mem_of_getElem? known, rfl, ?_⟩
  · rw [behind.made, shape]
    rfl
  · simp only [sourceOk, Bool.and_eq_true, Bool.true_and, Bool.not_not] at source
    exact source.2

end Search

open Search Lib

section Shown

variable {S D : Type} [FloatArith S] [FloatArith D] [Narrows D S]

end Shown

def dearPeer : NodeCandidate Exact Exact := bareCandidate (NodeId.ofByte 2) [(0, 2)] 10 2

def dockedPeer : NodeCandidate Exact Exact := { bareCandidate (NodeId.ofByte 4) [(0, 6)] 10 1 with trustScore := .value 0 }

def stranded (meetHeld : Bool) : Search Exact Exact :=
  ⟨6, [dearPeer, dockedPeer], NodeId.ofByte 9, false, false, .everyone, none, meetHeld⟩

theorem stranded_chain {meetHeld : Bool} {chain : List (Vertex Exact Exact)} {v : Vertex Exact Exact}
    (trusted : (stranded meetHeld).TrustedChain chain v) :
    chain = [v] ∧ v = (stranded meetHeld).vertexOf ⟨0, dearPeer, (0, 2)⟩ (0, 2) := by
  have all : (stranded meetHeld).vertices = [(stranded meetHeld).vertexOf ⟨0, dearPeer, (0, 2)⟩ (0, 2),
      (stranded meetHeld).vertexOf ⟨1, dockedPeer, (0, 6)⟩ (0, 6)] := by
    cases meetHeld with
    | false => rfl
    | true => rfl
  induction trusted with
  | first v offered source =>
    rw [all] at offered
    rcases List.mem_cons.mp offered with same | other
    · exact ⟨rfl, same⟩
    · rw [List.mem_singleton.mp other] at source
      exact absurd source (by cases meetHeld <;> decide +kernel)
  | next chain v w before offered meets ih =>
    rw [ih.2] at meets
    rw [all] at offered
    rcases List.mem_cons.mp offered with same | other
    · rw [same] at meets
      cases meets
    · rw [List.mem_singleton.mp other] at meets
      cases meets

theorem stranded_ample {meetHeld : Bool} : (stranded meetHeld).Ample where
  peers := by
    intro chain v trusted
    rw [(stranded_chain trusted).1]
    exact List.pairwise_singleton _ _
  own := by
    intro chain v c limit _ _ here _
    cases here
  priced := by
    intro chain v so trusted priced
    obtain ⟨single, same⟩ := stranded_chain trusted
    rw [single] at priced
    cases priced
    rw [same]
    cases meetHeld <;> decide +kernel

-- A cheap peer with room for two layers holds both ends of a chain; a dearer one holds
-- the beginning too. The mark of the middle remembers the cheap peer alone.
def shortPeer : NodeCandidate Exact Exact :=
  { bareCandidate (NodeId.ofByte 1) [(0, 2), (4, 6)] 10 1 with maxHostableLayers := some 2 }

def middlePeer : NodeCandidate Exact Exact := bareCandidate (NodeId.ofByte 3) [(2, 4)] 10 1

def shadowed : Search Exact Exact :=
  ⟨6, [shortPeer, dearPeer, middlePeer, dockedPeer], NodeId.ofByte 9, false, false, .everyone, none, false⟩

end SwarmLlm.Scheduler
