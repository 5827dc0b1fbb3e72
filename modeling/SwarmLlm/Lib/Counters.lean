import Mathlib.Logic.Function.Basic
import Mathlib.Data.List.Basic

namespace Lib

-- Holders draw numbers under keys. Each holder has a key and the next number it
-- draws under it; several holders may have the same key.
structure Counters (I K : Type) where
  next : I → Option (K × Nat)
  tried : List K
  used : List (K × Nat)

inductive Draw (I K : Type) where
  | quiet (after : I → Option (K × Nat))
  | draw (holder : I) (key : K) (count after : Nat) (success : Bool)

namespace Counters

variable {I K : Type} [DecidableEq I] (state : Counters I K)

def step : Draw I K → Counters I K
  | .quiet after => { state with next := after }
  | .draw holder key count after success =>
    ⟨Function.update state.next holder (some (key, after)), key :: state.tried,
      if success then (key, count) :: state.used else state.used⟩

theorem next_here (holder : I) (key : K) (count after : Nat) (success : Bool) :
    (state.step (.draw holder key count after success)).next holder = some (key, after) := Function.update_self _ _ _

theorem next_elsewhere {holder other : I} {key : K} {count after : Nat} {success : Bool}
    (apart : other ≠ holder) : (state.step (.draw holder key count after success)).next other = state.next other :=
  Function.update_of_ne apart _ _

-- A holder gets a new key only together with the number 0, and draws upwards.
def Legal : Draw I K → Prop
  | .quiet after => ∀ holder key count, after holder = some (key, count) →
      count = 0 ∨ state.next holder = some (key, count)
  | .draw holder key count after success =>
    (count = 0 ∨ state.next holder = some (key, count)) ∧ 0 < after ∧ count ≤ after ∧ (success = true → count < after)

def Fresh : Draw I K → Prop
  | .quiet _ => True
  | .draw _ key count _ _ => count = 0 → key ∉ state.tried

structure Separate (state : Counters I K) : Prop where
  tried : ∀ holder key count, state.next holder = some (key, count) → 0 < count → key ∈ state.tried
  alone : ∀ first second key left right, state.next first = some (key, left) → state.next second = some (key, right) →
    0 < left → 0 < right → first = second
  known : ∀ key number, (key, number) ∈ state.used → key ∈ state.tried
  below : ∀ holder key count number, state.next holder = some (key, count) → 0 < count → (key, number) ∈ state.used → number < count
  distinct : state.used.Nodup

theorem separate_quiet {state : Counters I K} {after : I → Option (K × Nat)} (separate : state.Separate)
    (legal : state.Legal (.quiet after)) : (state.step (.quiet after)).Separate := by
  have kept : ∀ holder key count, after holder = some (key, count) → 0 < count →
      state.next holder = some (key, count) := fun holder key count held positive =>
    (legal holder key count held).resolve_left (Nat.ne_of_gt positive)
  exact {
    tried := fun holder key count held positive => separate.tried holder key count (kept _ _ _ held positive) positive
    alone := fun first second key left right firstHeld secondHeld leftPositive rightPositive =>
      separate.alone first second key left right (kept _ _ _ firstHeld leftPositive) (kept _ _ _ secondHeld rightPositive)
        leftPositive rightPositive
    known := separate.known
    below := fun holder key count number held positive listed =>
      separate.below holder key count number (kept _ _ _ held positive) positive listed
    distinct := separate.distinct }

section DrawStep

variable {state : Counters I K} {holder : I} {key : K} {count after : Nat} {success : Bool} (separate : state.Separate)
  (legal : state.Legal (.draw holder key count after success))
  (fresh : state.Fresh (.draw holder key count after success))

include separate legal fresh

omit [DecidableEq I] in
variable {number : Nat}

theorem draw_alone {other : I} (apart : other ≠ holder) (held : state.next other = some (key, number)) : number = 0 := by
  by_contra nonzero
  have positive := Nat.pos_of_ne_zero nonzero
  by_cases first : count = 0
  · exact fresh first (separate.tried other key number held positive)
  · have mine := legal.1.resolve_left first
    exact apart (separate.alone other holder key number count held mine positive (Nat.pos_of_ne_zero first))

omit [DecidableEq I] in
theorem draw_above (listed : (key, number) ∈ state.used) : number < count := by
  by_cases first : count = 0
  · exact absurd (separate.known key number listed) (fresh first)
  · exact separate.below holder key count number (legal.1.resolve_left first) (Nat.pos_of_ne_zero first) listed

omit separate fresh in
theorem draw_used {other : K} (listed : (other, number) ∈ (state.step (.draw holder key count after success)).used) :
    (other, number) ∈ state.used ∨ (other = key ∧ number = count ∧ count < after) := by
  simp only [step] at listed
  split at listed
  · rename_i succeeded
    rcases List.mem_cons.mp listed with same | old
    · cases same
      exact Or.inr ⟨rfl, rfl, legal.2.2.2 succeeded⟩
    · exact Or.inl old
  · exact Or.inl listed

theorem separate_draw : (state.step (.draw holder key count after success)).Separate := by
  have elsewhere : ∀ other number, other ≠ holder →
      (state.step (.draw holder key count after success)).next other = some number → state.next other = some number := by
    intro other number apart held
    rwa [next_elsewhere state apart] at held
  have here : ∀ pair, (state.step (.draw holder key count after success)).next holder = some pair → pair = (key, after) := by
    intro pair held
    rw [next_here] at held
    exact (Option.some.inj held).symm
  constructor
  case tried =>
    intro other otherKey number held positive
    by_cases same : other = holder
    · subst same
      cases here _ held
      exact List.mem_cons_self
    · exact List.mem_cons_of_mem _ (separate.tried other otherKey number (elsewhere _ _ same held) positive)
  case alone =>
    intro first second otherKey left right firstHeld secondHeld leftPositive rightPositive
    by_cases firstSame : first = holder
    · by_cases secondSame : second = holder
      · rw [firstSame, secondSame]
      · subst firstSame
        cases here _ firstHeld
        have zero := draw_alone separate legal fresh secondSame (elsewhere _ _ secondSame secondHeld)
        exact absurd zero (Nat.ne_of_gt rightPositive)
    by_cases secondSame : second = holder
    · subst secondSame
      cases here _ secondHeld
      have zero := draw_alone separate legal fresh firstSame (elsewhere _ _ firstSame firstHeld)
      exact absurd zero (Nat.ne_of_gt leftPositive)
    · exact separate.alone first second otherKey left right (elsewhere _ _ firstSame firstHeld)
        (elsewhere _ _ secondSame secondHeld) leftPositive rightPositive
  case known =>
    intro otherKey number listed
    rcases draw_used legal listed with old | ⟨rfl, _⟩
    · exact List.mem_cons_of_mem _ (separate.known otherKey number old)
    · exact List.mem_cons_self
  case below =>
    intro other otherKey top number held positive listed
    have origin := draw_used legal listed
    by_cases same : other = holder
    · subst same
      cases here _ held
      rcases origin with old | ⟨_, rfl, up⟩
      · have low := draw_above separate legal fresh old
        exact Nat.lt_of_lt_of_le low legal.2.2.1
      · exact up
    · have before := elsewhere _ _ same held
      rcases origin with old | ⟨rfl, _⟩
      · exact separate.below other otherKey top number before positive old
      · have zero := draw_alone separate legal fresh same before
        exact absurd zero (Nat.ne_of_gt positive)
  case distinct =>
    simp only [step]
    split
    · refine List.nodup_cons.mpr ⟨fun again => ?_, separate.distinct⟩
      exact Nat.lt_irrefl _ (draw_above separate legal fresh again)
    · exact separate.distinct

end DrawStep

theorem separate_step (label : Draw I K) (separate : state.Separate) (legal : state.Legal label)
    (fresh : state.Fresh label) : (state.step label).Separate := by
  cases label with
  | quiet after => exact separate_quiet separate legal
  | draw holder key count after success =>
    exact separate_draw separate legal fresh

-- Every key that was tried has given out its number 0.
structure Rooted (state : Counters I K) : Prop where
  held : ∀ holder key count, state.next holder = some (key, count) → 0 < count → (key, 0) ∈ state.used
  tried : ∀ key ∈ state.tried, (key, 0) ∈ state.used

def FirstSucceeds : Draw I K → Prop
  | .quiet _ => True
  | .draw _ _ count _ success => count = 0 → success = true

theorem used_grows {state : Counters I K} {label : Draw I K} {entry : K × Nat} (listed : entry ∈ state.used) :
    entry ∈ (state.step label).used := by
  cases label with
  | quiet after => exact listed
  | draw holder key count after success =>
    simp only [step]
    split
    · exact List.mem_cons_of_mem _ listed
    · exact listed

theorem rooted_step (label : Draw I K) (rooted : state.Rooted) (legal : state.Legal label)
    (succeeds : FirstSucceeds label) : (state.step label).Rooted := by
  cases label with
  | quiet after =>
    refine ⟨fun holder key count held positive => ?_, rooted.tried⟩
    exact rooted.held holder key count ((legal holder key count held).resolve_left (Nat.ne_of_gt positive)) positive
  | draw holder key count after success =>
    have root : (key, 0) ∈ (state.step (.draw holder key count after success)).used := by
      by_cases first : count = 0
      · simp [step, succeeds first, first]
      · exact used_grows (rooted.held holder key count (legal.1.resolve_left first) (Nat.pos_of_ne_zero first))
    refine ⟨fun other otherKey number held positive => ?_, fun otherKey listed => ?_⟩
    · by_cases same : other = holder
      · subst same
        rw [next_here] at held
        cases held
        exact root
      · rw [next_elsewhere state same] at held
        exact used_grows (rooted.held other otherKey number held positive)
    · rcases List.mem_cons.mp listed with rfl | old
      · exact root
      · exact used_grows (rooted.tried otherKey old)

theorem stale_draw_repeats (label : Draw I K) (rooted : state.Rooted)
    (succeeds : FirstSucceeds label) (stale : ¬ state.Fresh label) : ¬ (state.step label).used.Nodup := by
  cases label with
  | quiet after => exact absurd trivial stale
  | draw holder key count after success =>
    simp only [Fresh, Classical.not_imp, not_not] at stale
    obtain ⟨first, again⟩ := stale
    subst first
    simp only [step, succeeds rfl, if_true, List.nodup_cons, not_and]
    intro unused
    exact absurd (rooted.tried key again) unused

end Counters

end Lib
