import Mathlib.Data.List.Induction

namespace Lib

variable {T : Type}

def decode (next : List T → T) : Nat → List T
  | 0 => []
  | count + 1 => decode next count ++ [next (decode next count)]

variable (next : List T → T)

def Decoded (tokens : List T) : Prop := tokens = decode next tokens.length

@[simp] theorem decode_length {count : Nat} : (decode next count).length = count := by
  induction count with
  | zero => rfl
  | succ count ih => rw [decode, List.length_append, ih, List.length_singleton]

theorem decoded_nil : Decoded next [] := rfl

theorem decoded_snoc_iff {next : List T → T} {tokens : List T} {token : T} :
    Decoded next (tokens ++ [token]) ↔ Decoded next tokens ∧ token = next tokens := by
  rw [Decoded, Decoded, List.length_append, List.length_singleton, decode]
  constructor
  · intro same
    obtain ⟨front, last⟩ := List.append_inj same (decode_length next).symm
    refine ⟨front, ?_⟩
    rw [← front] at last
    exact List.singleton_inj.mp last
  · rintro ⟨front, last⟩
    rw [← front, last]

theorem decoded_step {tokens : List T} (decoded : Decoded next tokens) :
    Decoded next (tokens ++ [next tokens]) := decoded_snoc_iff.mpr ⟨decoded, rfl⟩

theorem decoded_append_left {next : List T → T} {first second : List T} (decoded : Decoded next (first ++ second)) :
    Decoded next first := by
  induction second using List.reverseRecOn with
  | nil => rwa [List.append_nil] at decoded
  | append_singleton second token ih =>
    rw [← List.append_assoc, decoded_snoc_iff] at decoded
    exact ih decoded.1

theorem decoded_append (first second : List T) (decoded : Decoded next first)
    (after : Decoded (fun tokens => next (first ++ tokens)) second) : Decoded next (first ++ second) := by
  induction second using List.reverseRecOn with
  | nil => rwa [List.append_nil]
  | append_singleton second token ih =>
    rw [decoded_snoc_iff] at after
    rw [← List.append_assoc, decoded_snoc_iff]
    exact ⟨ih after.1, after.2⟩

end Lib
