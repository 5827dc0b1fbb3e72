import SwarmLlm.Inference.DraftTree

namespace SwarmLlm.Inference

open List

variable {F : Type}

inductive SlotState (F : Type) where
  | prefilling (remainingIds : List Token) (nextChunkIndexPos : Nat)
  | decoding (lastToken : Token) (lastTokenLogprob : Option F) (generatedCount indexPos : Nat)

structure Slot (F : Type) where
  state : SlotState F
  saveAt : Nat
  generatedIds : List Token

-- The chunk, the position it starts at, and how many tokens are left after it.
structure PrefillChunk where
  chunk : List Token
  indexPos : Nat
  remainingAfter : Nat

variable (slot : Slot F)

-- A chunk stops at the save point.
def chunkTake (saveAt pos chunkSize remaining : Nat) : Nat :=
  let take := min (max chunkSize 1) remaining
  if pos < saveAt then min take (saveAt - pos) else take

def Slot.takePrefillChunk (chunkSize : Nat) : Option (PrefillChunk × Slot F) :=
  match slot.state with
  | .prefilling ids pos =>
    if ids.isEmpty then none
    else
      let take := chunkTake slot.saveAt pos chunkSize ids.length
      some (⟨ids.take take, pos, (ids.drop take).length⟩, { slot with state := .prefilling (ids.drop take) (pos + take) })
  | .decoding .. => none

def Slot.promoteToDecoding (firstToken : Token) (firstLogprob : Option F) : Slot F :=
  let newIndexPos := match slot.state with
    | .prefilling _ pos => pos
    | .decoding _ _ _ pos => pos
  { slot with state := .decoding firstToken firstLogprob 0 newIndexPos, generatedIds := [firstToken] }

-- The calls of the driver, up to the first that has nothing to give.
def Slot.takeChunks (slot : Slot F) : List Nat → List PrefillChunk × Slot F
  | [] => ([], slot)
  | size :: sizes =>
    match slot.takePrefillChunk size with
    | none => ([], slot)
    | some (chunk, after) => (chunk :: (after.takeChunks sizes).1, (after.takeChunks sizes).2)

structure Feeds (saveAt pos : Nat) (ids left : List Token) (chunks : List PrefillChunk) : Prop where
  whole : chunks.flatMap (·.chunk) ++ left = ids
  placed : ∀ before chunk after, chunks = before ++ chunk :: after →
    chunk.indexPos = pos + (before.flatMap (·.chunk)).length ∧
      (before.flatMap (·.chunk)).length + chunk.chunk.length + chunk.remainingAfter = ids.length
  saved : pos < saveAt → saveAt ≤ pos + (chunks.flatMap (·.chunk)).length →
    ∃ chunk ∈ chunks, chunk.indexPos + chunk.chunk.length = saveAt

theorem chunk_take_le (saveAt pos chunkSize remaining : Nat) : chunkTake saveAt pos chunkSize remaining ≤ remaining ∧
    (pos < saveAt → pos + chunkTake saveAt pos chunkSize remaining ≤ saveAt) := by
  simp only [chunkTake]
  split <;> omega

theorem feeds_cons {saveAt pos size : Nat} {ids left : List Token} {chunks : List PrefillChunk}
    (rest : Feeds saveAt (pos + chunkTake saveAt pos size ids.length) (ids.drop (chunkTake saveAt pos size ids.length))
      left chunks) :
    Feeds saveAt pos ids left (⟨ids.take (chunkTake saveAt pos size ids.length), pos,
      (ids.drop (chunkTake saveAt pos size ids.length)).length⟩ :: chunks) := by
  obtain ⟨short, stops⟩ := chunk_take_le saveAt pos size ids.length
  generalize chunkTake saveAt pos size ids.length = take at rest short stops
  have taken : (ids.take take).length = take := length_take_of_le short
  refine ⟨?_, fun before chunk after split => ?_, fun ahead within => ?_⟩
  · rw [flatMap_cons, append_assoc, rest.whole, take_append_drop]
  · cases before with
    | nil =>
      obtain ⟨rfl, rfl⟩ := cons.inj split
      simp only [flatMap_nil, length_nil, length_drop, taken]
      omega
    | cons first before =>
      obtain ⟨rfl, later⟩ := cons.inj split
      obtain ⟨starts, counts⟩ := rest.placed before chunk after later
      rw [length_drop] at counts
      simp only [flatMap_cons, length_append, taken]
      omega
  · rw [flatMap_cons, length_append, taken] at within
    rcases Nat.lt_or_eq_of_le (stops ahead) with before | here
    · obtain ⟨chunk, listed, ends⟩ := rest.saved before (by omega)
      exact ⟨chunk, mem_cons_of_mem _ listed, ends⟩
    · exact ⟨_, mem_cons_self, by rw [taken]; exact here⟩

theorem take_chunks_feeds {ids : List Token} {pos : Nat} (sizes : List Nat) (prefilling : slot.state = .prefilling ids pos) :
    ∃ left, Feeds slot.saveAt pos ids left (slot.takeChunks sizes).1 ∧
      (slot.takeChunks sizes).2.state = .prefilling left (pos + ((slot.takeChunks sizes).1.flatMap (·.chunk)).length) := by
  have quiet : ∀ saveAt pos ids, Feeds saveAt pos ids ids [] :=
    fun _ _ _ => ⟨rfl, by simp, fun ahead within => absurd ahead (Nat.not_lt.mpr within)⟩
  induction sizes generalizing slot ids pos with
  | nil => exact ⟨ids, quiet _ pos ids, prefilling⟩
  | cons size sizes ih =>
    rw [Slot.takeChunks]
    by_cases empty : ids.isEmpty = true
    · have stepped : slot.takePrefillChunk size = none := by simp only [Slot.takePrefillChunk, prefilling, if_pos empty]
      rw [stepped]
      exact ⟨ids, quiet _ pos ids, prefilling⟩
    · have stepped := congrArg (fun state => Slot.takePrefillChunk ⟨state, slot.saveAt, slot.generatedIds⟩ size) prefilling
      simp only [Slot.takePrefillChunk, if_neg empty] at stepped
      rw [show slot.takePrefillChunk size = _ from stepped]
      obtain ⟨left, rest, ends⟩ := ih ⟨.prefilling (ids.drop (chunkTake slot.saveAt pos size ids.length))
        (pos + chunkTake slot.saveAt pos size ids.length), slot.saveAt, slot.generatedIds⟩ rfl
      refine ⟨left, feeds_cons rest, ends.trans ?_⟩
      rw [flatMap_cons, length_append, length_take_of_le (chunk_take_le ..).1, Nat.add_assoc]

theorem prefill_feeds_once (slot : Slot F) (ids : List Token) (pos : Nat) (prefilling : slot.state = .prefilling ids pos)
    (sizes : List Nat) (next : Nat) (ended : (slot.takeChunks sizes).2.takePrefillChunk next = none)
    (token : Token) (logprob : Option F) :
    Feeds slot.saveAt pos ids [] (slot.takeChunks sizes).1 ∧
      ((slot.takeChunks sizes).2.promoteToDecoding token logprob).state = .decoding token logprob 0 (pos + ids.length) := by
  obtain ⟨left, feeds, ends⟩ := take_chunks_feeds slot sizes prefilling
  have done : left = [] := by
    rw [Slot.takePrefillChunk, ends] at ended
    simpa using ended
  have whole := feeds.whole
  subst done
  rw [append_nil] at whole
  refine ⟨feeds, ?_⟩
  rw [Slot.promoteToDecoding, ends, whole]

def sampleSlot : Slot Unit := ⟨.prefilling [1, 2, 3, 4, 5] 2, 4, []⟩

theorem prefill_feeds_once_sample :
    ((sampleSlot.takeChunks [0, 8, 8]).2.promoteToDecoding 9 none).state = .decoding 9 none 0 7 :=
  (prefill_feeds_once sampleSlot [1, 2, 3, 4, 5] 2 rfl [0, 8, 8] 8 rfl 9 none).2

end SwarmLlm.Inference
