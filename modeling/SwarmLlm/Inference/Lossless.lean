import SwarmLlm.Inference.Sampling

namespace SwarmLlm.Inference

open Lib Network List

-- What sampling one token at a time gives after these tokens, where the model's
-- logits are a function of the tokens since the check began.
def nextToken (sample : Row → List Token → Option Nat → Token) (model : List Token → Row) (generated : List Token)
    (coupling : Option Nat) (tokens : List Token) : Token :=
  draw sample coupling (model tokens) (generated ++ tokens) tokens.length

-- The guesses a walk keeps: a run of them that decoding agrees with, up to where it
-- disagrees.
structure Kept (next : List Token → Token) (drafts kept : List Token) : Prop where
  front : kept <+: drafts
  decoded : Decoded next kept
  missed : drafts[kept.length]? ≠ some (next kept)

variable {next : List Token → Token}

theorem kept_no_longer {drafts first second : List Token} (left : Kept next drafts first)
    (right : Kept next drafts second) : first.length ≤ second.length := by
  by_contra longer
  obtain ⟨rest, split⟩ := prefix_of_prefix_length_le right.front left.front (by omega)
  cases rest with
  | nil =>
    rw [append_nil] at split
    rw [split] at longer
    exact longer (le_refl _)
  | cons token rest =>
    have decoded := left.decoded
    rw [← split, ← singleton_append, ← append_assoc] at decoded
    have drawn := (decoded_snoc_iff.mp (decoded_append_left decoded)).2
    obtain ⟨more, whole⟩ := left.front
    refine right.missed ?_
    rw [← whole, ← split, ← drawn, append_assoc, getElem?_append_right (Nat.le_refl _), Nat.sub_self]
    rfl

theorem kept_unique (drafts first : List Token) {second : List Token} (left : Kept next drafts first)
    (right : Kept next drafts second) : first = second := by
  have shorter := kept_no_longer left right
  have longer := kept_no_longer right left
  exact (prefix_of_prefix_length_le left.front right.front shorter).eq_of_length (le_antisymm shorter longer)

variable {rows : List Row}

section Chain

variable (sample : Row → List Token → Option Nat → Token) (model : List Token → Row) (generated : List Token)
  (coupling : Option Nat)

theorem keep_guesses_decodes {guesses : List Token} (done : List Token)
    (agree : ∀ count ≤ guesses.length, rows[done.length + count]? = some (model (done ++ guesses.take count)))
    (decoded : Decoded (nextToken sample model generated coupling) done) :
    ∃ kept, (keepGuesses sample coupling rows (generated ++ done) done.length guesses).1 = kept ∧ kept <+: guesses ∧
      Decoded (nextToken sample model generated coupling) (done ++ kept) ∧
      (kept.length < guesses.length → (keepGuesses sample coupling rows (generated ++ done) done.length guesses).2 =
            some (nextToken sample model generated coupling (done ++ kept)) ∧
          guesses[kept.length]? ≠ some (nextToken sample model generated coupling (done ++ kept))) := by
  induction guesses generalizing done with
  | nil => exact ⟨[], rfl, prefix_rfl, by rwa [append_nil], nofun⟩
  | cons guess rest ih =>
    have here := agree 0 (Nat.zero_le _)
    rw [Nat.add_zero, take_zero, append_nil] at here
    have pick : draw sample coupling (rows.getD done.length []) (generated ++ done) done.length =
        nextToken sample model generated coupling done := by
      rw [getD_eq_getElem?_getD, here]
      rfl
    rw [keepGuesses, pick]
    by_cases same : nextToken sample model generated coupling done = guess
    · have grown : Decoded (nextToken sample model generated coupling) (done ++ [guess]) := same ▸ decoded_step _ decoded
      have later : ∀ count ≤ rest.length,
          rows[(done ++ [guess]).length + count]? = some (model ((done ++ [guess]) ++ rest.take count)) := fun count inside => by
        have ahead := agree (count + 1) (Nat.succ_le_succ inside)
        rw [take_succ_cons] at ahead
        rw [length_append, length_singleton, append_assoc, add_assoc, add_comm 1 count]
        exact ahead
      obtain ⟨kept, result, front, run, stop⟩ := ih (done ++ [guess]) later grown
      have whole : done ++ [guess] ++ kept = done ++ guess :: kept := by rw [append_assoc]; rfl
      rw [whole] at run stop
      rw [length_append, length_singleton, ← append_assoc] at result stop
      refine ⟨guess :: kept, ?_, cons_prefix_cons.mpr ⟨rfl, front⟩, run, fun short => ?_⟩
      · rw [if_pos same]
        exact congrArg (guess :: ·) result
      · rw [if_pos same]
        exact stop (Nat.lt_of_succ_lt_succ short)
    · refine ⟨[], by rw [if_neg same], nil_prefix, by rwa [append_nil], fun _ => ?_⟩
      rw [if_neg same, append_nil]
      exact ⟨rfl, fun found => same (Option.some.inj found).symm⟩

theorem positions_decode {coupling : Option Nat} (drafts : List Token) (rows : List Row) (finite : ∀ row ∈ rows, isFiniteRow row = true)
    (count : rows.length = drafts.length + 1) (agree : ∀ count ≤ drafts.length, rows[count]? = some (model (drafts.take count))) :
    ∃ kept, Kept (nextToken sample model generated coupling) drafts kept ∧
      walkVerifiedPositions sample drafts rows generated coupling =
        .ok (kept ++ [nextToken sample model generated coupling kept]) := by
  obtain ⟨kept, result, front, decoded, stop⟩ := keep_guesses_decodes sample model generated coupling []
    (fun count inside => by simpa using agree count inside) (decoded_nil _)
  rw [nil_append] at decoded stop
  rw [append_nil, length_nil] at result stop
  have valid : verifyRowsAreFinite drafts.length rows = true := by
    rw [verifyRowsAreFinite, all_eq_true]
    exact fun row member => finite row (mem_of_mem_take member)
  have enough : ¬ rows.length < drafts.length + 1 := by omega
  rw [walkVerifiedPositions, if_neg (not_not.mpr count)]
  simp only [valid, Bool.not_true, Bool.false_eq_true, if_false, sampledAcceptReject, enough, decide_false, Bool.or_false, result]
  by_cases all : kept.length = drafts.length
  · have whole := front.eq_of_length all
    have last := agree drafts.length (le_refl _)
    rw [take_length] at last
    refine ⟨kept, ⟨front, decoded, ?_⟩, ?_⟩
    · rw [all, getElem?_length]
      nofun
    · rw [if_pos all, getD_eq_getElem?_getD, last, ← whole]
      rfl
  · have short := Nat.lt_of_le_of_ne front.length_le all
    refine ⟨kept, ⟨front, decoded, (stop short).2⟩, ?_⟩
    rw [if_neg all, (stop short).1]
    rfl

end Chain

-- What an accepted check looks like: the kept rows are a chain, every guess follows
-- the last of them or another guess.
structure Accepted (tree : DraftTree) (drafts guessedFrom : Nat) : Prop where
  some_kept : 0 < guessedFrom
  rows : guessedFrom + drafts = tree.length
  chain : ∀ row < guessedFrom, tree.parent row = if row = 0 then none else some (row - 1)
  guess : ∀ row, guessedFrom ≤ row → row < tree.length → ∃ parent, tree.parent row = some parent ∧ guessedFrom ≤ parent + 1

variable (tree : DraftTree)

variable {guessedFrom : Nat}

theorem guesses_from_accepted (drafts : Nat) {rows : Nat}
    (accepted : treeGuessesFrom tree drafts rows = .ok guessedFrom) : rows = tree.length ∧ Accepted tree drafts guessedFrom := by
  rw [treeGuessesFrom] at accepted
  split at accepted
  · cases accepted
  next shape =>
    simp only [Bool.or_eq_true, decide_eq_true_eq, not_or, not_not, not_le] at shape
    split at accepted
    · cases accepted
    next chain =>
      split at accepted
      · cases accepted
      next guess =>
        simp only [Bool.not_eq_true', Bool.not_eq_false, all_eq_true, mem_range, beq_iff_eq] at chain
        simp only [Bool.not_eq_true', Bool.not_eq_false, all_eq_true, mem_range'_1, Option.any_eq_true,
          decide_eq_true_eq] at guess
        rw [← Except.ok.inj accepted]
        refine ⟨shape.1, by omega, by omega, chain, fun row low high => ?_⟩
        exact guess row ⟨low, by omega⟩

def guessesOn (guessedFrom : Nat) (drafts : List Token) (row : Nat) : List Token :=
  ((tree.line row).filter fun other => decide (guessedFrom ≤ other)).map fun other => drafts.getD (other - guessedFrom) 0

variable {row : Nat}

theorem guesses_on_child (drafts : List Token) {parent : Nat} (late : guessedFrom ≤ row) (follows : tree.parent row = some parent) :
    guessesOn tree guessedFrom drafts row = guessesOn tree guessedFrom drafts parent ++ [drafts.getD (row - guessedFrom) 0] := by
  rw [guessesOn, tree.line_child row parent follows, filter_append, map_append]
  simp only [filter_cons, decide_eq_true late, if_true, filter_nil, map_cons, map_nil]
  rfl

-- The answer of a walk that decodes down to some row and finds no guess after it.
def Lands (next : List Token → Token) (tree : DraftTree) (guessedFrom : Nat) (drafts : List Token)
    (answer : Except String (List Token)) : Prop :=
  ∃ last, guessedFrom ≤ last + 1 ∧ last < tree.length ∧ Decoded next (guessesOn tree guessedFrom drafts last) ∧
    guessAfter tree guessedFrom drafts last (next (guessesOn tree guessedFrom drafts last)) = none ∧
    answer = .ok (guessesOn tree guessedFrom drafts last ++ [next (guessesOn tree guessedFrom drafts last)])

theorem follow_decodes {drafts : List Token} (next : List Token → Token) (pickAt : Nat → List Token → Except String Token)
    (picks : ∀ row, guessedFrom ≤ row + 1 → row < tree.length →
      pickAt row (guessesOn tree guessedFrom drafts row) = .ok (next (guessesOn tree guessedFrom drafts row)))
    (row : Nat) (late : guessedFrom ≤ row + 1) (inside : row < tree.length)
    (decoded : Decoded next (guessesOn tree guessedFrom drafts row)) :
    Lands next tree guessedFrom drafts
      (followGuesses tree guessedFrom drafts pickAt row (guessesOn tree guessedFrom drafts row)) := by
  induction left : tree.length - row using Nat.strongRecOn generalizing row with
  | ind size ih =>
    rw [followGuesses, picks row late inside]
    simp only
    split
    · next none => exact ⟨row, late, inside, decoded, none, rfl⟩
    next child found =>
      obtain ⟨follows, guessed, carries⟩ := guess_after_spec found
      obtain ⟨after, within⟩ := guess_after_later tree guessedFrom drafts row _ found
      have grown := guesses_on_child tree drafts guessed follows
      rw [carries] at grown
      rw [← grown]
      have step := decoded_step next decoded
      rw [← grown] at step
      exact ih (tree.length - child) (by omega) child (by omega) within step rfl

section Tree

variable {tree : DraftTree} {guessedFrom : Nat} {drafts : List Token}
  (accepted : Accepted tree drafts.length guessedFrom)

include accepted

theorem kept_line (row : Nat) (early : row < guessedFrom) : tree.line row = List.range (row + 1) := by
  induction row with
  | zero => exact tree.line_root 0 (accepted.chain 0 early)
  | succ row ih =>
    have follows : tree.parent (row + 1) = some row := accepted.chain (row + 1) early
    rw [tree.line_child (row + 1) row follows, ih (Nat.lt_of_succ_lt early), ← range_succ]

theorem guesses_on_kept : guessesOn tree guessedFrom drafts (guessedFrom - 1) = [] := by
  have positive := accepted.some_kept
  have line := kept_line accepted (guessedFrom - 1) (by omega)
  rw [guessesOn, line, filter_eq_nil_iff.mpr]
  · rfl
  · intro other member
    have := mem_range.mp member
    simp only [decide_eq_true_eq]
    omega

theorem guess_depth (row : Nat) (late : guessedFrom ≤ row + 1) (inside : row < tree.length) :
    tree.depth row = guessedFrom - 1 + (guessesOn tree guessedFrom drafts row).length := by
  have positive := accepted.some_kept
  induction row using Nat.strongRecOn with
  | ind row ih =>
    have deep := tree.depth_line row inside
    by_cases last : row + 1 = guessedFrom
    · have kept : row = guessedFrom - 1 := by omega
      have line := kept_line accepted row (by omega)
      rw [line, length_range] at deep
      subst kept
      rw [guesses_on_kept accepted]
      simp only [length_nil]
      omega
    obtain ⟨parent, follows, low⟩ := accepted.guess row (by omega) inside
    have before := tree.parent_before row parent follows
    have above := ih parent before low (by omega)
    have deeper := tree.depth_line parent (by omega)
    rw [guesses_on_child tree drafts (by omega) follows, length_append, length_singleton]
    rw [tree.line_child row parent follows, length_append, length_singleton] at deep
    omega

theorem tree_decodes {sample : Row → List Token → Option Nat → Token} (model : List Token → Row) (generated : List Token)
    {coupling : Option Nat} (rows : List Row) (finite : ∀ row ∈ rows, isFiniteRow row = true)
    (checked : treeGuessesFrom tree drafts.length rows.length = .ok guessedFrom)
    (agree : ∀ row, guessedFrom ≤ row + 1 → row < tree.length → rows[row]? = some (model (guessesOn tree guessedFrom drafts row))) :
    Lands (nextToken sample model generated (coupling.map (· + (guessedFrom - 1)))) tree guessedFrom drafts
      (walkVerifiedTree sample tree drafts rows generated coupling) := by
  have positive := accepted.some_kept
  have start := guesses_on_kept accepted
  have size := accepted.rows
  have walked := follow_decodes tree (nextToken sample model generated (coupling.map (· + (guessedFrom - 1))))
    (fun row walked =>
      if !isFiniteRow (rows.getD row []) then .error "spec walk: non-finite logits"
      else .ok (draw sample coupling (rows.getD row []) (generated ++ walked) (tree.depth row))) (fun row late inside => ?_)
    (guessedFrom - 1) (by omega) (by omega) (start ▸ decoded_nil _)
  · rw [start] at walked
    rw [walkVerifiedTree, checked]
    exact walked
  have found := agree row late inside
  have valid := finite _ (mem_of_getElem? found)
  have read : rows.getD row [] = model (guessesOn tree guessedFrom drafts row) := by
    rw [getD_eq_getElem?_getD, found]
    rfl
  have deep := guess_depth accepted row late inside
  simp only [read, valid, Bool.not_true, Bool.false_eq_true, if_false, nextToken, draw, deep]
  cases coupling with
  | none => rfl
  | some first => simp only [Option.map_some, add_assoc]

end Tree

section Agreement

variable (tree : DraftTree) (drafts : List Token)

variable {tree}

theorem chain_parent (chain : tree.isChain = true) (inside : row < tree.length) :
    tree.parent row = if row = 0 then none else some (row - 1) := by
  have found : tree.parents[row]? = some (tree.parents.get ⟨row, inside⟩) := getElem?_eq_getElem inside
  rw [DraftTree.isChain, all_eq_true] at chain
  have named := chain (tree.parents.get ⟨row, inside⟩, row) (mem_zipIdx_iff_getElem?.mpr found)
  rw [DraftTree.parent, parentOf, found]
  exact beq_iff_eq.mp named

variable {drafts}

theorem chain_guesses (chain : tree.isChain = true) (guessedFrom : Nat) (accepted : Accepted tree drafts.length guessedFrom) (late : guessedFrom ≤ row + 1) (inside : row < tree.length) :
    guessesOn tree guessedFrom drafts row = drafts.take (row + 1 - guessedFrom) := by
  have positive := accepted.some_kept
  have size := accepted.rows
  induction row with
  | zero =>
    have first : guessedFrom = 1 := by omega
    subst first
    exact guesses_on_kept accepted
  | succ row ih =>
    by_cases last : row + 2 = guessedFrom
    · subst last
      rw [Nat.sub_self, take_zero]
      exact guesses_on_kept accepted
    · have follows : tree.parent (row + 1) = some row := chain_parent chain inside
      have more : row + 1 + 1 - guessedFrom = (row + 1 - guessedFrom) + 1 := by omega
      have read : row + 1 - guessedFrom < drafts.length := by omega
      rw [guesses_on_child tree drafts (by omega) follows, ih (by omega) (by omega), more,
        take_succ_eq_append_getElem read, getD_eq_getElem _ _ read]

theorem chain_missed (chain : tree.isChain = true) (guessedFrom : Nat) (accepted : Accepted tree drafts.length guessedFrom) (late : guessedFrom ≤ row + 1) {pick : Token} (missed : guessAfter tree guessedFrom drafts row pick = none) :
    drafts[row + 1 - guessedFrom]? ≠ some pick := by
  intro carried
  have size := accepted.rows
  have read := (List.getElem?_eq_some_iff.mp carried).1
  have child : row + 1 ∈ tree.children (some row) := by
    rw [DraftTree.mem_children_some]
    exact chain_parent chain (by omega)
  have refused := find?_eq_none.mp missed (row + 1) child
  simp [late, getD_eq_getElem?_getD, carried] at refused

variable {coupling : Option Nat}

variable {generated : List Token}

theorem chain_walk_agrees {sample : Row → List Token → Option Nat → Token} (chain : tree.isChain = true) (finite : ∀ row ∈ rows, isFiniteRow row = true)
    (checked : treeGuessesFrom tree drafts.length rows.length = .ok guessedFrom) :
    walkVerifiedTree sample tree drafts rows generated coupling =
      walkVerifiedPositions sample drafts (rows.drop (guessedFrom - 1)) generated (coupling.map (· + (guessedFrom - 1))) := by
  obtain ⟨length, accepted⟩ := guesses_from_accepted tree drafts.length checked
  have positive := accepted.some_kept
  have size := accepted.rows
  let model : List Token → Row := fun tokens => rows.getD (guessedFrom - 1 + tokens.length) []
  have reads : ∀ row < rows.length, rows[row]? = some (rows.getD row []) := fun row inside => by
    rw [getElem?_eq_getElem inside, getD_eq_getElem _ _ inside]
  obtain ⟨last, late, inside, decoded, missed, walked⟩ := tree_decodes accepted model generated rows finite checked fun row late inside => by
      have count : guessedFrom - 1 + (drafts.take (row + 1 - guessedFrom)).length = row := by
        rw [length_take]
        omega
      simp only [model, chain_guesses chain guessedFrom accepted late inside, count]
      exact reads row (length ▸ inside)
  obtain ⟨kept, rule, answered⟩ := positions_decode sample model generated drafts (rows.drop (guessedFrom - 1)) (fun row member => finite row (mem_of_mem_drop member))
    (by rw [length_drop]; omega) fun count short => by
      rw [getElem?_drop, reads _ (by omega)]
      simp only [model, length_take, min_eq_left short]
  have on := chain_guesses chain guessedFrom accepted late inside
  have same := kept_unique drafts _ ⟨on ▸ take_prefix _ _, decoded, by
      have apart := chain_missed chain guessedFrom accepted late missed
      have count : (guessesOn tree guessedFrom drafts last).length = last + 1 - guessedFrom := by
        rw [on, length_take]
        omega
      rwa [count]⟩ rule
  rw [walked, answered, same]

theorem follow_congr (first second : Nat → List Token → Except String Token)
    (same : ∀ row < tree.length, ∀ walked, first row walked = second row walked) (row : Nat) (inside : row < tree.length)
    (walked : List Token) :
    followGuesses tree guessedFrom drafts first row walked = followGuesses tree guessedFrom drafts second row walked := by
  induction left : tree.length - row using Nat.strongRecOn generalizing row walked with
  | ind size ih =>
    rw [followGuesses, followGuesses, same row inside walked]
    cases second row walked with
    | error message => rfl
    | ok pick =>
      simp only
      split
      · rfl
      · next child found =>
          obtain ⟨after, within⟩ := guess_after_later tree guessedFrom drafts row pick found
          exact ih (tree.length - child) (by omega) child within _ rfl

def Greedy (params : SamplingParams) : Prop :=
  params.temperature.isNan = false ∧ params.temperature.rank ≤ 0 ∧
    penaltiesActive params.frequencyPenalty params.presencePenalty = false

variable {arithmetic : Arithmetic}

variable {params : SamplingParams}

theorem greedy_sample (greedy : Greedy params) (row : Row)
    (generated : List Token) (coupled : Option Nat) : sampleTokenWithCtx arithmetic params row generated coupled = argmax row := by
  obtain ⟨number, cold, free⟩ := greedy
  simp [sampleTokenWithCtx, applyRepetitionPenalties, number, cold, free]

theorem argmax_walk_agrees (greedy : Greedy params) (finite : ∀ row ∈ rows, isFiniteRow row = true) :
    argmaxWalkTree tree drafts (rows.map argmax) =
      walkVerifiedTree (sampleTokenWithCtx arithmetic params) tree drafts rows generated coupling := by
  rw [argmaxWalkTree, walkVerifiedTree, length_map]
  cases checked : treeGuessesFrom tree drafts.length rows.length with
  | error message => rfl
  | ok guessedFrom =>
    obtain ⟨length, accepted⟩ := guesses_from_accepted tree drafts.length checked
    have positive := accepted.some_kept
    have size := accepted.rows
    refine follow_congr _ _ (fun row inside walked => ?_) (guessedFrom - 1) (by omega) []
    have read : row < rows.length := by omega
    have valid := finite _ (getElem_mem read)
    simp [draw, greedy_sample greedy, getD_eq_getElem?_getD, getElem?_eq_getElem read, valid]

end Agreement

theorem checks_lossless (sample : Row → List Token → Option Nat → Token) (generated : List Token) (coupling : Option Nat) :
    (∀ (model : List Token → Row) (drafts : List Token) (rows : List Row), (∀ row ∈ rows, isFiniteRow row = true) →
        rows.length = drafts.length + 1 → (∀ count ≤ drafts.length, rows[count]? = some (model (drafts.take count))) →
        ∃ kept, Kept (nextToken sample model generated coupling) drafts kept ∧
          walkVerifiedPositions sample drafts rows generated coupling =
            .ok (decode (nextToken sample model generated coupling) (kept.length + 1))) ∧
      (∀ (model : List Token → Row) (tree : DraftTree) (drafts : List Token) (rows : List Row) (guessedFrom : Nat),
        (∀ row ∈ rows, isFiniteRow row = true) → treeGuessesFrom tree drafts.length rows.length = .ok guessedFrom →
        (∀ row, guessedFrom ≤ row + 1 → row < tree.length → rows[row]? = some (model (guessesOn tree guessedFrom drafts row))) →
        ∃ last, guessedFrom ≤ last + 1 ∧ last < tree.length ∧
          Decoded (nextToken sample model generated (coupling.map (· + (guessedFrom - 1)))) (guessesOn tree guessedFrom drafts last) ∧
          guessAfter tree guessedFrom drafts last
            (nextToken sample model generated (coupling.map (· + (guessedFrom - 1))) (guessesOn tree guessedFrom drafts last)) = none ∧
          walkVerifiedTree sample tree drafts rows generated coupling =
            .ok (decode (nextToken sample model generated (coupling.map (· + (guessedFrom - 1))))
              ((guessesOn tree guessedFrom drafts last).length + 1))) ∧
      (∀ (tree : DraftTree) (drafts : List Token) (rows : List Row) (guessedFrom : Nat), tree.isChain = true →
        (∀ row ∈ rows, isFiniteRow row = true) → treeGuessesFrom tree drafts.length rows.length = .ok guessedFrom →
        walkVerifiedTree sample tree drafts rows generated coupling =
          walkVerifiedPositions sample drafts (rows.drop (guessedFrom - 1)) generated (coupling.map (· + (guessedFrom - 1)))) ∧
      ∀ (arithmetic : Arithmetic) (params : SamplingParams) (tree : DraftTree) (drafts : List Token) (rows : List Row),
        Greedy params → (∀ row ∈ rows, isFiniteRow row = true) →
        argmaxWalkTree tree drafts (rows.map argmax) =
          walkVerifiedTree (sampleTokenWithCtx arithmetic params) tree drafts rows generated coupling := by
  refine ⟨fun model drafts rows finite count agree => ?_, fun model tree drafts rows guessedFrom finite checked agree => ?_,
    fun tree drafts rows guessedFrom chain finite checked => ?_, fun arithmetic params tree drafts rows greedy finite => ?_⟩
  · obtain ⟨kept, rule, walked⟩ := positions_decode sample model generated drafts rows finite count agree
    have whole := rule.decoded
    refine ⟨kept, rule, ?_⟩
    rw [walked, decode, ← whole]
  · obtain ⟨_, accepted⟩ := guesses_from_accepted tree drafts.length checked
    obtain ⟨last, late, inside, decoded, missed, walked⟩ := tree_decodes accepted model generated rows finite checked agree
    have whole := decoded
    refine ⟨last, late, inside, decoded, missed, ?_⟩
    rw [walked, decode, ← whole]
  · exact chain_walk_agrees chain finite checked
  · exact argmax_walk_agrees greedy finite

def forkedTree : DraftTree where
  base := 1
  parents := [none, some 0, some 0, some 1]
  depths := [0, 1, 1, 2]
  based := Nat.one_pos
  few := by decide
  ordered := (DraftTree.survey_sound [] [0, 1, 1, 2] DraftTree.ordered_nil rfl).1
  measured := rfl

theorem checks_lossless_forked :
    let model : List Token → Row := fun tokens => if tokens = [] then [.zero, .one] else [.one, .zero]
    let rows : List Row := [[.zero, .one], [.one, .zero], [.one, .zero], [.one, .zero]]
    let next := nextToken (fun row _ _ => argmax row) model [] (some 4)
    let cold : SamplingParams := { SamplingParams.default with temperature := .zero }
    (∃ kept, Kept next [1, 0, 1] kept ∧
      walkVerifiedPositions (fun row _ _ => argmax row) [1, 0, 1] rows [] (some 4) = .ok (decode next (kept.length + 1))) ∧
    (∃ last, 1 ≤ last + 1 ∧ last < forkedTree.length ∧ Decoded next (guessesOn forkedTree 1 [1, 0, 0] last) ∧
      guessAfter forkedTree 1 [1, 0, 0] last (next (guessesOn forkedTree 1 [1, 0, 0] last)) = none ∧
      walkVerifiedTree (fun row _ _ => argmax row) forkedTree [1, 0, 0] rows [] (some 4) =
        .ok (decode next ((guessesOn forkedTree 1 [1, 0, 0] last).length + 1))) ∧
    Greedy cold ∧ ∀ arithmetic, argmaxWalkTree forkedTree [1, 0, 0] (rows.map argmax) =
      walkVerifiedTree (sampleTokenWithCtx arithmetic cold) forkedTree [1, 0, 0] rows [] (some 4) := by
  intro model rows next cold
  have finite : ∀ row ∈ rows, isFiniteRow row = true := by decide
  have along : ∀ count ≤ 3, rows[count]? = some (model (([1, 0, 1] : List Token).take count)) := by decide
  have agree : ∀ row < 4, rows[row]? = some (model (guessesOn forkedTree 1 [1, 0, 0] row)) := by decide
  have greedy : Greedy cold := by
    unfold Greedy
    decide
  obtain ⟨positions, trees, _, picks⟩ := checks_lossless (fun row _ _ => argmax row) [] (some 4)
  exact ⟨positions model [1, 0, 1] rows finite rfl along,
    trees model forkedTree [1, 0, 0] rows 1 finite rfl fun row _ inside => agree row inside,
    greedy, fun arithmetic => picks arithmetic cold forkedTree [1, 0, 0] rows greedy finite⟩

end SwarmLlm.Inference
