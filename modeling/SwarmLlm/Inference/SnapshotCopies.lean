import SwarmLlm.Inference.KvSnapshot

namespace SwarmLlm.Inference

open List Option

variable {P : Type}

-- What a snapshot of `n` positions keeps of an attention layer: its cells from
-- where the layer starts.
def LayerCopied (n : Nat) : Option (LayerKv P) → Option (Tensor P × Tensor P) → Prop
  | none, none => True
  | some layer, some (k, v) =>
    layer.k.map (fun tensor => tensor.cells.take (n - layer.heldFrom)) = some k.cells ∧
      layer.v.map (fun tensor => tensor.cells.take (n - layer.heldFrom)) = some v.cells
  | _, _ => False

-- A recurrent layer's state is kept where it describes just those positions.
def RecurrentCopied (n : Nat) : Option (SsmState P) → Option (Tensor P × Tensor P) → Prop
  | none, none => True
  | some state, some (conv, recurrent) =>
    state.positions = n ∧ state.convState.cells = conv.cells ∧ state.recurrentState.cells = recurrent.cells
  | _, _ => False

def liveFrom : Option (LayerKv P) → Nat
  | none => 0
  | some layer => layer.heldFrom

structure Holds (live : List (Option (LayerKv P))) (ssmStates : List (Option (SsmState P))) (n : Nat) (snap : KvSnapshot P) :
    Prop where
  count : snap.tokenCount = n
  layers : List.Forall₂ (LayerCopied n) live snap.layers
  heldFrom : snap.heldFrom = live.map liveFrom
  recurrent : ∀ i : Nat, live[i]? = some none → RecurrentCopied n (ssmStates[i]?).join (snap.ssm[i]?).join

theorem narrow_some {tensor narrowed : Tensor P} {count : Nat} (done : tensor.narrow count = some narrowed) :
    narrowed.cells = tensor.cells.take count := by
  rw [Tensor.narrow] at done
  split at done
  · cases done
    rfl
  · cases done

section Copying

variable (ssmStates : List (Option (SsmState P))) (pos : Nat) (home : SnapshotHome)

structure CopiedSoFar (layers : List (Option (LayerKv P))) (copy : KvSnapshot P) : Prop where
  holds : Holds layers ssmStates pos copy
  behind : copy.ssm.length ≤ layers.length

variable (done : List (Option (LayerKv P))) (copy grown : KvSnapshot P) (soFar : CopiedSoFar ssmStates pos done copy)

include soFar

variable {ssmStates} {layer : Option (LayerKv P)}

theorem copied_snoc {kept : Option (Tensor P × Tensor P)} (count : grown.tokenCount = pos)
    (layers : grown.layers = copy.layers ++ [kept]) (heldFrom : grown.heldFrom = copy.heldFrom ++ [liveFrom layer])
    (copied : LayerCopied pos layer kept) (before : ∀ i, i < done.length → (grown.ssm[i]?).join = (copy.ssm[i]?).join)
    (last : layer = none → RecurrentCopied pos (ssmStates[done.length]?).join (grown.ssm[done.length]?).join)
    (behind : grown.ssm.length ≤ done.length + 1) : CopiedSoFar ssmStates pos (done ++ [layer]) grown := by
  refine ⟨⟨count, ?_, ?_, ?_⟩, by rw [length_append]; exact behind⟩
  · rw [layers]
    exact rel_append soFar.holds.layers (.cons copied .nil)
  · rw [heldFrom, soFar.holds.heldFrom, map_append]
    rfl
  intro i found
  by_cases inside : i < done.length
  · rw [getElem?_append_left inside] at found
    rw [before i inside]
    exact soFar.holds.recurrent i found
  have here : i = done.length := by
    have bound := (List.getElem?_eq_some_iff.mp found).1
    rw [List.length_append, List.length_singleton] at bound
    omega
  subst here
  rw [getElem?_concat_length] at found
  exact last (Option.some.inj found)

theorem copy_attention_some {layer : LayerKv P} (copied : copyAttention pos home layer copy = some grown) :
    CopiedSoFar ssmStates pos (done ++ [some layer]) grown := by
  rw [copyAttention] at copied
  split at copied
  · cases copied
  simp only [Option.bind_eq_bind, Option.bind_eq_some_iff, Option.pure_def] at copied
  obtain ⟨k, hasK, k', narrowK, v, hasV, v', narrowV, made⟩ := copied
  cases made
  refine copied_snoc pos done copy _ soFar soFar.holds.count rfl rfl ?_ (fun _ _ => rfl) nofun
    (Nat.le_succ_of_le soFar.behind)
  have cellsK := narrow_some narrowK
  have cellsV := narrow_some narrowV
  cases (keepIn home k'.device).2 with
  | none | some => simp [LayerCopied, hasK, hasV, cellsK, cellsV]

theorem copy_recurrent_some {state : SsmState P} (here : (ssmStates[done.length]?).join = some state)
    (copied : copyRecurrent pos home done.length state copy = some grown) : CopiedSoFar ssmStates pos (done ++ [none]) grown := by
  rw [copyRecurrent] at copied
  split at copied
  · cases copied
  rename_i described
  cases copied
  have behind := soFar.behind
  have padded : (copy.ssm ++ List.replicate (done.length - copy.ssm.length) none).length = done.length := by
    rw [length_append, length_replicate]
    omega
  refine copied_snoc pos done copy _ soFar soFar.holds.count rfl rfl trivial ?_ ?_ ?_
  · intro i inside
    change ((copy.ssm ++ List.replicate (done.length - copy.ssm.length) none ++ [_])[i]?).join = _
    rw [getElem?_append_left (by rw [padded]; exact inside)]
    by_cases early : i < copy.ssm.length
    · rw [getElem?_append_left early]
    · rw [getElem?_append_right (Nat.le_of_not_lt early), getElem?_replicate, getElem?_eq_none_iff.mpr (Nat.le_of_not_lt early)]
      split <;> rfl
  · intro _
    change RecurrentCopied pos _ ((copy.ssm ++ List.replicate (done.length - copy.ssm.length) none ++ [_])[done.length]?).join
    rw [getElem?_append_right (Nat.le_of_eq padded), padded, Nat.sub_self, here]
    exact ⟨Decidable.not_not.mp described, rfl, rfl⟩
  · change (copy.ssm ++ List.replicate (done.length - copy.ssm.length) none ++ [_]).length ≤ done.length + 1
    rw [length_append, padded]
    exact le_refl _

theorem copy_layer_some (copied : copyLayer ssmStates pos home done.length layer copy = some grown) :
    CopiedSoFar ssmStates pos (done ++ [layer]) grown := by
  cases layer with
  | some layer => exact copy_attention_some pos home done copy grown soFar copied
  | none =>
    rw [copyLayer] at copied
    cases state : (ssmStates[done.length]?).join with
    | some state =>
      simp only [state] at copied
      exact copy_recurrent_some pos home done copy grown soFar state copied
    | none =>
      simp only [state] at copied
      cases copied
      have past : copy.ssm[done.length]? = none := getElem?_eq_none_iff.mpr soFar.behind
      refine copied_snoc pos done copy _ soFar soFar.holds.count rfl rfl trivial (fun _ _ => rfl) ?_
        (Nat.le_succ_of_le soFar.behind)
      intro _
      change RecurrentCopied pos _ (copy.ssm[done.length]?).join
      rw [state, past]
      trivial

variable (ssmStates)

theorem copy_layers_some {rest : List (Option (LayerKv P))}
    (copied : copyLayers ssmStates pos home done.length rest copy = some grown) :
    CopiedSoFar ssmStates pos (done ++ rest) grown := by
  induction rest generalizing done copy with
  | nil =>
    cases copied
    rw [append_nil]
    exact soFar
  | cons layer rest ih =>
    rw [copyLayers] at copied
    obtain ⟨next, first, later⟩ := bind_eq_some_iff.mp copied
    have one := copy_layer_some pos home done copy next soFar first
    have length : done.length + 1 = (done ++ [layer]).length := by simp
    rw [length] at later
    have all := ih (done ++ [layer]) next one later
    rwa [append_assoc] at all

end Copying

variable {layers : List (Option (LayerKv P))} {ssmStates : List (Option (SsmState P))}

theorem snapshot_at_holds {pos dim maxSeqLen : Nat}
    {home : SnapshotHome} {snap : KvSnapshot P} (taken : snapshotAt layers ssmStates pos dim maxSeqLen home = some snap) :
    Holds layers ssmStates pos snap := by
  rw [snapshotAt] at taken
  split at taken
  · cases taken
  · refine (copy_layers_some ssmStates pos home [] _ snap ⟨⟨rfl, .nil, rfl, ?_⟩, le_refl _⟩ taken).holds
    intro i found
    cases found

theorem narrow_layers_some (n : Nat) {target : Nat} (le : target ≤ n) {live : List (Option (LayerKv P))}
    (layers narrowed : List (Option (Tensor P × Tensor P))) (copied : List.Forall₂ (LayerCopied n) live layers)
    (done : narrowLayers target layers (live.map liveFrom) = some narrowed) : List.Forall₂ (LayerCopied target) live narrowed := by
  induction copied generalizing narrowed with
  | nil =>
    cases done
    exact .nil
  | @cons layer copy live layers first rest ih =>
    cases layer with
    | none =>
      cases copy with
      | some pair => exact first.elim
      | none =>
        simp only [narrowLayers, Option.bind_eq_bind, Option.bind_eq_some_iff, Option.pure_def, map_cons, tail_cons] at done
        obtain ⟨others, later, made⟩ := done
        cases made
        exact .cons trivial (ih others later)
    | some layer =>
      cases copy with
      | none => exact first.elim
      | some pair =>
        obtain ⟨k, v⟩ := pair
        simp only [narrowLayers, Option.bind_eq_bind, Option.bind_eq_some_iff, Option.pure_def, map_cons,
          tail_cons, headD_cons] at done
        obtain ⟨k', narrowK, v', narrowV, others, later, made⟩ := done
        cases made
        refine .cons ?_ (ih others later)
        have shorter : target - layer.heldFrom ≤ n - layer.heldFrom := Nat.sub_le_sub_right le _
        have cut : ∀ (source : Option (Tensor P)) (whole part : Tensor P),
            source.map (fun tensor => tensor.cells.take (n - layer.heldFrom)) = some whole.cells →
            whole.narrow (target - layer.heldFrom) = some part →
            source.map (fun tensor => tensor.cells.take (target - layer.heldFrom)) = some part.cells := by
          intro source whole part kept narrowed
          obtain ⟨tensor, rfl, cells⟩ := map_eq_some_iff.mp kept
          rw [narrow_some narrowed, ← cells, take_take, min_eq_left shorter]
          rfl
        exact ⟨cut _ _ _ first.1 narrowK, cut _ _ _ first.2 narrowV⟩

theorem narrow_snapshot_holds {n target : Nat}
    {snap narrowed : KvSnapshot P} (holds : Holds layers ssmStates n snap) (done : narrowSnapshot snap target = some narrowed) :
    Holds layers ssmStates target narrowed ∧ narrowed.servesFrom = snap.servesFrom ∧ target ≤ n := by
  rw [narrowSnapshot, holds.count] at done
  split at done
  · cases done
  rename_i short
  split at done
  · cases done
  split at done
  · rename_i whole
    cases done
    subst whole
    exact ⟨holds, rfl, le_refl _⟩
  split at done
  · cases done
  rename_i plain
  obtain ⟨others, cut, made⟩ := bind_eq_some_iff.mp done
  cases made
  have le : target ≤ n := Nat.le_of_not_lt short
  refine ⟨⟨rfl, ?_, holds.heldFrom, ?_⟩, rfl, le⟩
  · rw [holds.heldFrom] at cut
    exact narrow_layers_some n le _ _ holds.layers cut
  intro i found
  have copied := holds.recurrent i found
  have absent : (snap.ssm[i]?).join = none := by
    cases state : (snap.ssm[i]?).join with
    | none => rfl
    | some pair =>
      have member := mem_of_getElem? (join_eq_some_iff.mp state)
      exact absurd (any_eq_true.mpr ⟨some pair, member, rfl⟩) plain
  rw [absent] at copied
  cases live : (ssmStates[i]?).join with
  | none => trivial
  | some state =>
    rw [live] at copied
    exact copied.elim

end SwarmLlm.Inference
