import Mathlib.Data.List.Basic

namespace Lib

open List

variable {S L E : Type} (step : S → L → S) (Ok : S → L → Prop) (state : S)

-- A run applies one total step per label. A step whose guard fails returns the
-- state it was given.
def run (labels : List L) : S := labels.foldl step state

-- Every step of the run is taken in a state that meets the condition.
def RunMeets (step : S → L → S) (Ok : S → L → Prop) : S → List L → Prop
  | _, [] => True
  | state, label :: rest => Ok state label ∧ RunMeets step Ok (step state label) rest

def observed (step : S → L → S) (observe : S → L → List E) : S → List L → List E
  | _, [] => []
  | state, label :: rest => observe state label ++ observed step observe (step state label) rest

instance runMeetsDecidable (step : S → L → S) (Ok : S → L → Prop) [∀ state label, Decidable (Ok state label)] :
    (state : S) → (labels : List L) → Decidable (RunMeets step Ok state labels)
  | _, [] => inferInstanceAs (Decidable True)
  | state, label :: rest =>
    have := runMeetsDecidable step Ok (step state label) rest
    inferInstanceAs (Decidable (Ok state label ∧ RunMeets step Ok (step state label) rest))

variable {step}

@[simp] theorem run_nil : run step state [] = state := rfl

@[simp] theorem run_cons (label : L) (rest : List L) : run step state (label :: rest) = run step (step state label) rest := rfl

theorem run_append {state : S} {first second : List L} :
    run step state (first ++ second) = run step (run step state first) second := foldl_append

theorem observed_append (observe : S → L → List E) (state : S) (first second : List L) :
    observed step observe state (first ++ second) =
      observed step observe state first ++ observed step observe (run step state first) second := by
  induction first generalizing state with
  | nil => rfl
  | cons label rest ih =>
    rw [cons_append, observed, observed, ih, append_assoc]
    rfl

theorem run_meets_append (first second : List L) :
    RunMeets step Ok state (first ++ second) ↔ RunMeets step Ok state first ∧ RunMeets step Ok (run step state first) second := by
  induction first generalizing state with
  | nil => exact (and_iff_right trivial).symm
  | cons label rest ih =>
    rw [cons_append, RunMeets, RunMeets, ih, and_assoc]
    rfl

variable {labels : List L}

theorem run_misses (misses : ¬ RunMeets step Ok state labels) :
    ∃ before label after, labels = before ++ label :: after ∧ ¬ Ok (run step state before) label := by
  induction labels generalizing state with
  | nil => exact absurd trivial misses
  | cons label rest ih =>
    by_cases here : Ok state label
    · obtain ⟨before, next, after, rfl, found⟩ := ih (step state label) fun later => misses ⟨here, later⟩
      exact ⟨label :: before, next, after, rfl, found⟩
    · exact ⟨[], label, rest, rfl, here⟩

theorem run_history {observe : S → L → List E} {Ok : S → L → Prop} {Inv : List E → S → Prop}
    (keeps : ∀ seen state label, Inv seen state → Ok state label → Inv (seen ++ observe state label) (step state label))
    (seen : List E) (state : S) (start : Inv seen state) (meets : RunMeets step Ok state labels) :
    Inv (seen ++ observed step observe state labels) (run step state labels) := by
  induction labels generalizing seen state with
  | nil => simpa only [observed, append_nil, run_nil] using start
  | cons label rest ih =>
    rw [observed, run_cons, ← append_assoc]
    exact ih (seen ++ observe state label) (step state label) (keeps seen state label start meets.1) meets.2

theorem run_meets_of (labels : List L) (each : ∀ state, ∀ label ∈ labels, Ok state label) : RunMeets step Ok state labels := by
  induction labels generalizing state with
  | nil => trivial
  | cons label rest ih =>
    have later : ∀ state, ∀ label ∈ rest, Ok state label := fun state label member => each state label (.tail _ member)
    exact ⟨each state label (.head rest), ih (step state label) later⟩

theorem run_meets_and {First : S → L → Prop} (Second : S → L → Prop) (state : S) (labels : List L)
    (first : RunMeets step First state labels) (second : RunMeets step Second state labels) :
    RunMeets step (fun state label => First state label ∧ Second state label) state labels := by
  induction labels generalizing state with
  | nil => trivial
  | cons label rest ih => exact ⟨⟨first.1, second.1⟩, ih (step state label) first.2 second.2⟩

variable (Inv : S → Prop)

theorem run_invariant
    (keeps : ∀ state label, Inv state → Ok state label → Inv (step state label)) (state : S) (labels : List L) (start : Inv state)
    (meets : RunMeets step Ok state labels) : Inv (run step state labels) := by
  induction labels generalizing state with
  | nil => exact start
  | cons label rest ih => exact ih (step state label) (keeps state label start meets.1) meets.2

theorem run_keeps (keeps : ∀ state label, Inv state → Inv (step state label)) (state : S)
    (labels : List L) (start : Inv state) : Inv (run step state labels) := by
  induction labels generalizing state with
  | nil => exact start
  | cons label rest ih => exact ih (step state label) (keeps state label start)

-- A step stays clean exactly when it meets the condition: so does a run.
theorem run_clean_iff (Clean : S → Prop) (keeps : ∀ state label, Inv state → Inv (step state label))
    (clean : ∀ state label, Inv state → (Clean (step state label) ↔ Clean state ∧ Ok state label)) (state : S) (labels : List L)
    (start : Inv state) : Clean (run step state labels) ↔ Clean state ∧ RunMeets step Ok state labels := by
  induction labels generalizing state with
  | nil => exact (and_iff_left trivial).symm
  | cons label rest ih =>
    rw [run_cons, ih (step state label) (keeps state label start), clean state label start, and_assoc]
    rfl

variable {Inv Ok}

-- From inside, a step stays inside exactly when it meets the condition: so does a
-- run at each of its steps.
theorem run_stays_iff
    (exact : ∀ state label, Inv state → (Inv (step state label) ↔ Ok state label)) (state : S) (start : Inv state)
    : RunMeets step (fun state label => Inv (step state label)) state labels ↔ RunMeets step Ok state labels := by
  induction labels generalizing state with
  | nil => exact Iff.rfl
  | cons label rest ih =>
    constructor
    · intro stays
      exact ⟨(exact state label start).mp stays.1, (ih _ stays.1).mp stays.2⟩
    · intro meets
      have inside := (exact state label start).mpr meets.1
      exact ⟨inside, (ih _ inside).mpr meets.2⟩

inductive Side where
  | a
  | b
  deriving DecidableEq

def Side.peer : Side → Side
  | .a => .b
  | .b => .a

@[simp] theorem peer_peer (side : Side) : side.peer.peer = side := by cases side <;> rfl

theorem peer_ne {side : Side} : side.peer ≠ side := by cases side <;> decide

theorem side_cases (first second : Side) : second = first ∨ second = first.peer := by
  cases first <;> cases second <;> decide

def AtEach (P : List E → E → Prop) (history : List E) : Prop :=
  ∀ before entry after, history = before ++ entry :: after → P before entry

theorem at_each_nil (P : List E → E → Prop) : AtEach P [] := by
  intro before entry after split
  cases before <;> cases split

variable {last entry : E} {history : List E}

theorem forall_concat {P : E → Prop} (before : ∀ entry ∈ history, P entry) (final : P last) :
    ∀ entry ∈ history ++ [last], P entry :=
  forall_mem_append.mpr ⟨before, forall_mem_singleton.mpr final⟩

theorem nodup_last (distinct : history.Nodup) (fresh : last ∉ history) : (history ++ [last]).Nodup :=
  (perm_append_singleton last history).nodup_iff.mpr (nodup_cons.mpr ⟨fresh, distinct⟩)

theorem at_each_append {P : List E → E → Prop} (each : AtEach P history) (holds : P history last) :
    AtEach P (history ++ [last]) := by
  intro before entry after split
  rcases eq_nil_or_concat after with rfl | ⟨init, final, rfl⟩
  · obtain ⟨rfl, same⟩ := append_inj_left' split rfl, append_inj_right' split rfl
    rwa [← (List.cons.inj same).1]
  · refine each before entry init ?_
    rw [concat_eq_append, ← cons_append, ← append_assoc] at split
    exact append_inj_left' split rfl

theorem at_each_concat {P : List E → E → Prop} : AtEach P (history ++ [last]) ↔ AtEach P history ∧ P history last := by
  refine ⟨fun each => ⟨fun before entry after split => ?_, each history last [] rfl⟩, fun both => at_each_append both.1 both.2⟩
  exact each before entry (after ++ [last]) (by rw [split, append_assoc]; rfl)

def Since (entry : E) (Quiet : E → Prop) (history : List E) : Prop :=
  ∃ before after, history = before ++ entry :: after ∧ ∀ later ∈ after, Quiet later

variable {Quiet : E → Prop}

theorem since_last : Since entry Quiet (history ++ [entry]) :=
  ⟨history, [], rfl, nofun⟩

theorem since_append (since : Since entry Quiet history) (quiet : Quiet last) : Since entry Quiet (history ++ [last]) := by
  obtain ⟨before, after, rfl, later⟩ := since
  exact ⟨before, after ++ [last], by simp, forall_concat later quiet⟩

theorem since_mono {First Second : E → Prop} (since : Since entry First history)
    (weaker : ∀ later ∈ history, First later → Second later) : Since entry Second history := by
  obtain ⟨before, after, rfl, quiet⟩ := since
  exact ⟨before, after, rfl, fun later member =>
    weaker later (mem_append_right before (.tail entry member)) (quiet later member)⟩

theorem since_mem (since : Since entry Quiet history) : entry ∈ history := by
  obtain ⟨before, after, rfl, _⟩ := since
  exact mem_append_right before (.head after)

end Lib
