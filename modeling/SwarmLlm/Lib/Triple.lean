import SwarmLlm.Lib.Faulty

namespace Lib.Prog

variable {S T R Q I V W : Type}

-- From a store that meets `pre` the program returns in one that meets `post`, or is
-- cut off in one that meets `crash`. `quiet` says that every write lands: then the
-- program is never cut off.
structure Triple (quiet : Prop) (pre : S → Prop) (prog : Prog S R) (post : R → S → Prop) (crash : S → Prop) : Prop where
  run : ∀ machine, pre machine.store → (quiet → machine.fates = []) →
    wp prog (fun value after => post value after.store ∧ (quiet → after.fates = [])) (fun store => crash store ∧ ¬ quiet)
      machine

structure Keeps (view : S → V) (prog : Prog S R) : Prop where
  triple : ∀ (quiet : Prop) (seen : V),
    Triple quiet (fun store => view store = seen) prog (fun _ store => view store = seen) (fun store => view store = seen)

section Rules

variable {quiet : Prop} {pre : S → Prop} {crash : S → Prop}
  {change : S → S} {value : R} {prog : Prog S R} {mid post : R → S → Prop}

theorem triple_pure (entails : ∀ store, pre store → post value store) :
    Triple quiet pre (pure value) post crash := ⟨fun machine holds landing => ⟨entails machine.store holds, landing⟩⟩

theorem triple_get {post : S → S → Prop} (entails : ∀ store, pre store → post store store) :
    Triple quiet pre get post crash := ⟨fun machine holds landing => ⟨entails machine.store holds, landing⟩⟩

theorem triple_modify {post : Unit → S → Prop} (entails : ∀ store, pre store → post () (change store)) :
    Triple quiet pre (modify change) post crash := ⟨fun machine holds landing => ⟨entails machine.store holds, landing⟩⟩

theorem triple_write {post : Except String Unit → S → Prop} (landed : ∀ store, pre store → post (.ok ()) (change store))
    (failed : ¬ quiet → ∀ error store, pre store → post (.error error) store)
    (cut : ¬ quiet → ∀ store, pre store → crash store ∧ crash (change store)) : Triple quiet pre (write change) post crash := by
  constructor
  intro machine holds landing
  have noisy : machine.fates ≠ [] → ¬ quiet := fun some sure => some (landing sure)
  unfold wp write
  cases fates : machine.fates with
  | nil =>
    rw [fates] at landing
    exact ⟨landed machine.store holds, landing⟩
  | cons fate rest =>
    have loud : ¬ quiet := noisy (by rw [fates]; exact List.cons_ne_nil fate rest)
    cases fate with
    | lands => exact ⟨landed machine.store holds, fun sure => absurd sure loud⟩
    | fails error => exact ⟨failed loud error machine.store holds, fun sure => absurd sure loud⟩
    | crashBefore => exact ⟨(cut loud machine.store holds).1, loud⟩
    | crashAfter => exact ⟨(cut loud machine.store holds).2, loud⟩

theorem triple_bind {first : Prog S Q} {next : Q → Prog S R} (mid : Q → S → Prop) (head : Triple quiet pre first mid crash)
    (tail : ∀ value, Triple quiet (mid value) (next value) post crash) : Triple quiet pre (first >>= next) post crash := by
  constructor
  intro machine holds landing
  rw [wp_bind]
  exact wp_mono _ _ _ _ machine (head.run machine holds landing)
    (fun value after reached => (tail value).run after reached.1 reached.2) (fun _ cut => cut)

theorem triple_weaken {start prior : S → Prop} (holds : Triple quiet start prog mid prior)
    (entails : ∀ store, pre store → start store) (weaken : ∀ value store, mid value store → post value store)
    (cut : ∀ store, prior store → crash store) : Triple quiet pre prog post crash := by
  constructor
  intro machine inside landing
  exact wp_mono _ _ _ _ machine (holds.run machine (entails machine.store inside) landing)
    (fun value after reached => ⟨weaken value after.store reached.1, reached.2⟩)
    (fun store reached => ⟨cut store reached.1, reached.2⟩)

theorem triple_before {start : S → Prop} (holds : Triple quiet start prog post crash)
    (entails : ∀ store, pre store → start store) : Triple quiet pre prog post crash :=
  triple_weaken holds entails (fun _ _ reached => reached) fun _ cut => cut

theorem triple_after (holds : Triple quiet pre prog mid crash)
    (weaken : ∀ value store, mid value store → post value store) : Triple quiet pre prog post crash :=
  triple_weaken holds (fun _ holds => holds) weaken fun _ cut => cut

theorem triple_given (Fact : Prop) (known : ∀ store, pre store → Fact)
    (holds : Fact → Triple quiet pre prog post crash) : Triple quiet pre prog post crash :=
  ⟨fun machine inside landing => (holds (known machine.store inside)).run machine inside landing⟩

theorem triple_guard {guard : Prop} [Decidable guard] {rest : Prog S R} (skip : ∀ store, pre store → post value store)
    (holds : ¬ guard → Triple quiet pre rest post crash) : Triple quiet pre (if guard then pure value else rest) post crash := by
  split
  · exact triple_pure skip
  · rename_i fails
    exact holds fails

theorem triple_zoom {prog : Prog T R} {view : S → T} {update : S → T → S}
    (inner : ∀ store, pre store → Triple quiet (fun part => part = view store) prog (fun value part => post value (update store part)) (fun part => crash (update store part))) :
    Triple quiet pre (zoom view update prog) post crash := by
  constructor
  intro machine holds landing
  rw [wp_zoom]
  exact (inner machine.store holds).run ⟨view machine.store, machine.fates⟩ rfl landing

theorem triple_for_each {items : List I} {body : I → Prog S Unit} {inv : S → Prop}
    (step : ∀ item ∈ items, Triple quiet inv (body item) (fun _ => inv) crash) :
    Triple quiet inv (forEach items body) (fun _ => inv) crash := by
  induction items with
  | nil => exact triple_pure fun _ holds => holds
  | cons item rest ih =>
    refine triple_bind (fun _ => inv) (step item (.head rest)) fun _ => ?_
    exact ih fun other member => step other (.tail item member)

theorem triple_keeps {view : S → V} (keeps : Keeps view prog)
    (decided : ∀ store other, view store = view other → pre store → pre other)
    (cut : ∀ store, pre store → crash store) : Triple quiet pre prog (fun _ => pre) crash := by
  constructor
  intro machine holds landing
  refine wp_mono _ _ _ _ machine ((keeps.triple quiet (view machine.store)).run machine rfl landing) ?_ ?_
  · exact fun value after same => ⟨decided machine.store after.store same.1.symm holds, same.2⟩
  · exact fun store same => ⟨cut store (decided machine.store store same.1.symm holds), same.2⟩

theorem triple_lands (holds : Triple True pre prog post crash) {store : S} (start : pre store) :
    ∃ value after, prog ⟨store, []⟩ = (.done value, ⟨after, []⟩) ∧ post value after := by
  have reached := holds.run ⟨store, []⟩ start fun _ => rfl
  unfold wp at reached
  cases result : prog ⟨store, []⟩ with
  | mk outcome after =>
    rw [result] at reached
    cases outcome with
    | crashed => exact absurd trivial reached.2
    | done value =>
      obtain ⟨left, fates⟩ := after
      have landed : fates = [] := reached.2 trivial
      subst landed
      exact ⟨value, left, rfl, reached.1⟩

-- Whatever the fates, an invariant of all outcomes holds of the store that is left.
theorem triple_leaves (holds : Triple False pre prog (fun _ => crash) crash) {store : S} (fates : List WriteFate)
    (start : pre store) : crash (prog ⟨store, fates⟩).2.store := by
  apply wp_always
  exact wp_mono _ _ _ _ _ (holds.run ⟨store, fates⟩ start False.elim) (fun _ _ reached => reached.1)
    (fun _ reached => reached.1)

end Rules

section Frame

variable {view : S → V}

theorem keeps_pure {value : R} : Keeps view (pure value : Prog S R) := ⟨fun _ _ => triple_pure fun _ same => same⟩

theorem keeps_get : Keeps view (get : Prog S S) := ⟨fun _ _ => triple_get fun _ same => same⟩

theorem keeps_modify {change : S → S} (unseen : ∀ store, view (change store) = view store) :
    Keeps view (modify change) := ⟨fun _ _ => triple_modify fun store same => (unseen store).trans same⟩

theorem keeps_write {change : S → S} (unseen : ∀ store, view (change store) = view store) : Keeps view (write change) := by
  constructor
  intro quiet seen
  refine triple_write ?_ ?_ ?_
  · exact fun store same => (unseen store).trans same
  · exact fun _ _ store same => same
  · exact fun _ store same => ⟨same, (unseen store).trans same⟩

theorem keeps_bind {first : Prog S Q} {next : Q → Prog S R} (head : Keeps view first)
    (tail : ∀ value, Keeps view (next value)) : Keeps view (first >>= next) :=
  ⟨fun quiet seen => triple_bind (fun _ store => view store = seen) (head.triple quiet seen) fun value =>
    (tail value).triple quiet seen⟩

theorem keeps_guard {guard : Prop} [Decidable guard] {value : R} {rest : Prog S R} (keeps : Keeps view rest) :
    Keeps view (if guard then pure value else rest) := by
  split
  · exact keeps_pure
  · exact keeps

theorem keeps_zoom {inner : T → W} {prog : Prog T R} {part : S → T} {update : S → T → S} (keeps : Keeps inner prog)
    (decided : ∀ store changed, inner changed = inner (part store) → view (update store changed) = view store) :
    Keeps view (zoom part update prog) := by
  constructor
  intro quiet seen
  refine triple_zoom fun store same => ?_
  refine triple_weaken (keeps.triple quiet (inner (part store))) (fun changed equal => by rw [equal]) ?_ ?_
  · exact fun value changed kept => (decided store changed kept).trans same
  · exact fun changed kept => (decided store changed kept).trans same

theorem keeps_for_each {items : List I} {body : I → Prog S Unit} (step : ∀ item, Keeps view (body item)) :
    Keeps view (forEach items body) :=
  ⟨fun quiet seen => triple_for_each fun item _ => (step item).triple quiet seen⟩

end Frame

end Lib.Prog
