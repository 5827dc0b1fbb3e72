import SwarmLlm.Network.LayerResult

namespace SwarmLlm.Network

open Lib

variable {L : Type} (libs : ResultLibs L)

-- The payload is what its length field says, and the trailers were read from behind it.
def ActivationsKept (data : Bytes) (result : LayerResult L) : Prop :=
  ∃ start place after, readHead libs data = .ok (start, place) ∧
    wordAt 4 data place = (.ok result.activations.length : Checked SwarmError Nat) ∧
    slice data (place + 4) (place + 4 + result.activations.length) = (.ok result.activations : Checked SwarmError Bytes) ∧
    readResultTrailers libs { start with activations := result.activations } data
      (place + 4 + result.activations.length) = .ok (result, after)

-- The length field and as many bytes as it says are there.
def PayloadWhole (data : Bytes) : Prop :=
  ∃ start place length, readHead libs data = .ok (start, place) ∧
    wordAt 4 data place = (.ok length : Checked SwarmError Nat) ∧ place + 4 + length ≤ data.length

variable {libs} {data : Bytes} {place after : Nat} {activations : Bytes} {result start : LayerResult L}

theorem word_at_inside {count value : Nat} (read : wordAt count data place = (.ok value : Checked SwarmError Nat)) :
    place + count ≤ data.length := by
  obtain ⟨bytes, sliced, _⟩ := ok_of_bind read
  unfold slice at sliced
  split at sliced
  · rename_i inside
    exact inside.2
  · cases sliced

theorem activations_read {length : Nat} (field : wordAt 4 data place = (.ok length : Checked SwarmError Nat))
    (read : readActivations data place = .ok (activations, after)) :
    if place + 4 + length ≤ data.length then
      activations.length = length ∧ after = place + 4 + length ∧
        slice data (place + 4) (place + 4 + length) = (.ok activations : Checked SwarmError Bytes)
    else activations = [] ∧ 0 < length := by
  have inside := word_at_inside field
  simp only [readActivations, if_neg (Nat.not_lt.mpr inside), field, ok_bind] at read
  obtain ⟨_, read⟩ := past_check read
  by_cases whole : place + 4 + length ≤ data.length
  · rw [if_pos whole]
    by_cases none : length = 0
    · rw [if_pos (Or.inl none)] at read
      cases read
      subst none
      refine ⟨rfl, rfl, ?_⟩
      rw [slice, if_pos ⟨Nat.le_refl _, whole⟩, Nat.add_zero, Nat.sub_self, List.take_zero]
    · rw [if_neg (by omega)] at read
      obtain ⟨bytes, sliced, returned⟩ := ok_of_bind read
      cases returned
      exact ⟨(slice_ok sliced).2, rfl, sliced⟩
  · rw [if_pos (Or.inr (Nat.lt_of_not_le whole))] at read
    cases read
    rw [if_neg whole]
    exact ⟨rfl, by omega⟩

theorem trailers_keep_activations (read : readResultTrailers libs start data place = .ok (result, after)) :
    result.activations = start.activations := by
  obtain ⟨_, _, _, read⟩ := read_of_bind read
  obtain ⟨_, _, _, read⟩ := read_of_bind read
  obtain ⟨_, _, _, read⟩ := read_of_bind read
  obtain ⟨_, _, _, read⟩ := read_of_bind read
  obtain ⟨_, _, _, read⟩ := read_of_bind read
  obtain ⟨_, _, _, read⟩ := read_of_bind read
  obtain ⟨_, _, _, read⟩ := read_of_bind read
  cases read
  rfl

theorem activations_kept_iff {input : Bytes} (decoded : decodeLayerResult libs input = .ok result) :
    ActivationsKept libs (stripTag tensorTagResult input) result ↔ PayloadWhole libs (stripTag tensorTagResult input) := by
  obtain ⟨⟨start, place⟩, head, decoded⟩ := ok_of_bind decoded
  obtain ⟨⟨activations, pos⟩, payload, decoded⟩ := ok_of_bind decoded
  obtain ⟨⟨read, after⟩, trailers, returned⟩ := ok_of_bind decoded
  cases returned
  have carried : result.activations = activations := trailers_keep_activations trailers
  constructor
  · rintro ⟨_, _, _, again, field, _⟩
    rw [head] at again
    cases again
    refine ⟨start, place, _, head, field, ?_⟩
    by_contra short
    have missing := activations_read field payload
    rw [if_neg short, ← carried] at missing
    rw [missing.1] at missing
    exact Nat.lt_irrefl 0 missing.2
  rintro ⟨_, _, length, again, field, whole⟩
  rw [head] at again
  cases again
  have kept := activations_read field payload
  rw [if_pos whole, ← carried] at kept
  obtain ⟨rfl, rfl, sliced⟩ := kept
  rw [← carried] at trailers
  exact ⟨start, place, after, head, field, sliced, trailers⟩

def plainLibs : ResultLibs Empty :=
  ⟨fun bytes => (fromUtf8 bytes).getD "", fun _ => .ok [0x5B, 0x5D],
    fun bytes => if bytes = [0x5B, 0x5D] then .ok [] else .error "expected value"⟩

def sentResult (activations : Bytes) (refusal : Option ForwardRefusal) : LayerResult Empty :=
  ⟨Uuid.ofByte 1, [], none, activations, none, [], none, [], false, refusal, none, none, none⟩

theorem activations_kept_iff_sample :
    ActivationsKept plainLibs (resultBody (sentResult [6, 1, 0, 0] none) none) (sentResult [6, 1, 0, 0] none) :=
  (activations_kept_iff (show decodeLayerResult plainLibs
      (tensorTagResult :: resultBody (sentResult [6, 1, 0, 0] none) none) = .ok _ from rfl)).mpr
    ⟨_, _, _, rfl, rfl, by decide⟩

-- A reply cut off in its payload is taken for a refusal that nobody sent.
theorem payload_read_as_refusal :
    ∃ bytes, encodeLayerResult plainLibs (sentResult [6, 1, 0, 0] none) = .ok bytes ∧ bytes.length = 30 ∧
      decodeLayerResult plainLibs (bytes.take 28) = .ok (sentResult [] (some .undecryptable)) :=
  ⟨_, rfl, rfl, rfl⟩

end SwarmLlm.Network
