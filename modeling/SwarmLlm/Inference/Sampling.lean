import SwarmLlm.Inference.DraftTree
import SwarmLlm.Lib.Decoding
import SwarmLlm.Network.LayerForward

namespace SwarmLlm.Inference

open Lib Network

abbrev Row := List F32

-- The float arithmetic under a sampler: what a logit keeps after the penalties for
-- a count, and the draw of a request that samples, at a position of its noise.
structure Arithmetic where
  penalise : F32 → F32 → Nat → F32 → F32
  spread : SamplingParams → Row → Option Nat → Token

def argmax (logits : Row) : Token :=
  UInt32.ofNat (logits.zipIdx.foldl (fun best entry => if best.2.lt entry.1 then (entry.2, entry.1) else best)
    (0, F32.minusInfinity)).1

def penaltiesActive (frequencyPenalty presencePenalty : F32) : Bool :=
  frequencyPenalty.rank ≠ 0 || presencePenalty.rank ≠ 0

def applyRepetitionPenalties (arithmetic : Arithmetic) (logits : Row) (generated : List Token)
    (frequencyPenalty presencePenalty : F32) : Row :=
  if generated.isEmpty || !penaltiesActive frequencyPenalty presencePenalty || logits.isEmpty then logits
  else
    logits.mapIdx fun token logit =>
      let count := generated.countP fun seen => seen.toNat == token
      if count = 0 then logit else arithmetic.penalise frequencyPenalty presencePenalty count logit

def sampleTokenWithCtx (arithmetic : Arithmetic) (params : SamplingParams) (logits : Row) (generated : List Token)
    (coupled : Option Nat) : Token :=
  let penalised := applyRepetitionPenalties arithmetic logits generated params.frequencyPenalty params.presencePenalty
  if !params.temperature.isNan && params.temperature.rank ≤ 0 then argmax penalised
  else arithmetic.spread params penalised coupled

def isFiniteRow (row : Row) : Bool := row.all F32.isFinite

def verifyRowsAreFinite (drafts : Nat) (rows : List Row) : Bool := (rows.take (drafts + 1)).all isFiniteRow

section Walks

variable (sample : Row → List Token → Option Nat → Token)

def draw (coupling : Option Nat) (row : Row) (history : List Token) (offset : Nat) : Token :=
  sample row history (coupling.map (· + offset))

def keepGuesses (coupling : Option Nat) (rows : List Row) : List Token → Nat → List Token → List Token × Option Token
  | _, _, [] => ([], none)
  | history, offset, guess :: rest =>
    let pick := draw sample coupling (rows.getD offset []) history offset
    if pick = guess then
      let later := keepGuesses coupling rows (history ++ [guess]) (offset + 1) rest
      (guess :: later.1, later.2)
    else ([], some pick)

def sampledAcceptReject (drafts : List Token) (rows : List Row) (generated : List Token) (coupling : Option Nat) :
    List Token × Token × Bool :=
  if rows.length < drafts.length + 1 || !verifyRowsAreFinite drafts.length rows then ([], 0, false)
  else
    let walked := keepGuesses sample coupling rows generated 0 drafts
    if walked.1.length = drafts.length then
      (walked.1, draw sample coupling (rows.getD drafts.length []) (generated ++ walked.1) drafts.length, true)
    else (walked.1, walked.2.getD 0, false)

def walkVerifiedPositions (drafts : List Token) (rows : List Row) (generated : List Token) (coupling : Option Nat) :
    Except String (List Token) :=
  if rows.length ≠ drafts.length + 1 then
    .error ("spec walk: " ++ toString rows.length ++ " positions verified for " ++ toString drafts.length ++ " drafts")
  else if !verifyRowsAreFinite drafts.length rows then .error "spec walk: non-finite logits"
  else
    let walked := sampledAcceptReject sample drafts rows generated coupling
    .ok (walked.1 ++ [walked.2.1])

end Walks

def treeGuessesFrom (tree : DraftTree) (drafts rows : Nat) : Except String Nat :=
  if rows ≠ tree.length || rows ≤ drafts then
    .error ("spec walk: " ++ toString rows ++ " positions verified for a tree of " ++ toString tree.length ++
      " rows and " ++ toString drafts ++ " guesses")
  else if !((List.range (rows - drafts)).all fun row => tree.parent row == if row = 0 then none else some (row - 1)) then
    .error "spec walk: the kept rows of a tree are not a chain"
  else if !((List.range' (rows - drafts) drafts).all fun row =>
      (tree.parent row).any fun parent => rows - drafts ≤ parent + 1) then
    .error "spec walk: a guess follows a row that is already kept"
  else .ok (rows - drafts)

variable (tree : DraftTree) (guessedFrom : Nat)

def guessAfter (drafts : List Token) (here : Nat) (pick : Token) : Option Nat :=
  (tree.children (some here)).find? fun child =>
    decide (guessedFrom ≤ child) && (drafts.getD (child - guessedFrom) 0 == pick)

theorem guess_after_spec {tree : DraftTree} {guessedFrom : Nat} {drafts : List Token} {here child : Nat}
    {pick : Token} (found : guessAfter tree guessedFrom drafts here pick = some child) :
    tree.parent child = some here ∧ guessedFrom ≤ child ∧ drafts.getD (child - guessedFrom) 0 = pick := by
  have member := List.mem_of_find?_eq_some found
  have meets := List.find?_some found
  rw [DraftTree.mem_children_some] at member
  simp only [Bool.and_eq_true, decide_eq_true_eq, beq_iff_eq] at meets
  exact ⟨member, meets.1, meets.2⟩

theorem guess_after_later (drafts : List Token) (here : Nat) {child : Nat} (pick : Token)
    (found : guessAfter tree guessedFrom drafts here pick = some child) : here < child ∧ child < tree.length :=
  DraftTree.children_after tree here child (List.mem_of_find?_eq_some found)

def followGuesses (tree : DraftTree) (guessedFrom : Nat) (drafts : List Token)
    (pickAt : Nat → List Token → Except String Token) (here : Nat) (walked : List Token) : Except String (List Token) :=
  match pickAt here walked with
  | .error message => .error message
  | .ok pick =>
    match _found : guessAfter tree guessedFrom drafts here pick with
    | none => .ok (walked ++ [pick])
    | some next => followGuesses tree guessedFrom drafts pickAt next (walked ++ [pick])
termination_by tree.length - here
decreasing_by
  have later := guess_after_later tree guessedFrom drafts here pick _found
  omega

def walkVerifiedTree (sample : Row → List Token → Option Nat → Token) (tree : DraftTree) (drafts : List Token)
    (rows : List Row) (generated : List Token) (coupling : Option Nat) : Except String (List Token) := do
  let guessedFrom ← treeGuessesFrom tree drafts.length rows.length
  followGuesses tree guessedFrom drafts
    (fun here walked =>
      if !isFiniteRow (rows.getD here []) then .error "spec walk: non-finite logits"
      else .ok (draw sample coupling (rows.getD here []) (generated ++ walked) (tree.depth here)))
    (guessedFrom - 1) []

def argmaxWalkTree (drafts picks : List Token) : Except String (List Token) := do
  let guessedFrom ← treeGuessesFrom tree drafts.length picks.length
  followGuesses tree guessedFrom drafts (fun here _ => .ok (picks.getD here 0)) (guessedFrom - 1) []

end SwarmLlm.Inference
