import Mathlib.Algebra.Order.Ring.Rat
import Mathlib.Data.Nat.Sqrt

namespace Lib

open List

-- The arithmetic of one floating-point format, with whatever rounding it has.
class FloatArith (F : Type) extends Add F, Sub F, Mul F, Div F, Max F, Min F where
  ofRat : Rat → F
  infinity : F
  sqrt : F → F
  lt : F → F → Bool
  le : F → F → Bool
  isFinite : F → Bool
  ceilNat : F → Nat

class Narrows (D S : Type) where
  narrow : D → S

def ofCount {F : Type} [FloatArith F] (count : Nat) : F := FloatArith.ofRat (count : Rat)

def leastFrom {A : Type} (less : A → A → Bool) (start : A) (rest : List A) : A :=
  rest.foldl (fun least next => if less next least then next else least) start

def minBy {A : Type} (less : A → A → Bool) : List A → Option A
  | [] => none
  | first :: rest => some (leastFrom less first rest)

class LawfulFloat (F : Type) [FloatArith F] : Prop where
  finite_left : ∀ left right : F, FloatArith.isFinite (left + right) = true → FloatArith.isFinite left = true
  below_infinity : ∀ value : F, FloatArith.isFinite value = true → FloatArith.lt value FloatArith.infinity = true
  infinity_infinite : FloatArith.isFinite (FloatArith.infinity : F) = false
  infinity_top : ∀ value : F, FloatArith.lt FloatArith.infinity value = false
  lt_irrefl : ∀ value : F, FloatArith.lt value value = false
  -- What is not under a value is not under a lesser one.
  lt_lower : ∀ value old new : F, FloatArith.lt new old = true → FloatArith.lt value old = false → FloatArith.lt value new = false

variable {A : Type}

theorem least_mem (less : A → A → Bool) (start : A) {rest : List A} : leastFrom less start rest ∈ start :: rest := by
  induction rest generalizing start with
  | nil => exact mem_singleton_self start
  | cons next rest ih =>
    rw [leastFrom, foldl_cons]
    split
    · exact mem_cons_of_mem _ (ih next)
    · exact (cons_sublist_cons.mpr (sublist_cons_self next rest)).subset (ih start)

theorem min_by_mem (less : A → A → Bool) (values : List A) (least : A) (found : minBy less values = some least) :
    least ∈ values := by
  cases values with
  | nil => cases found
  | cons first rest =>
    rw [← Option.some.inj found]
    exact least_mem less first

-- With a good value among them the least is good, where the others come after the
-- good ones and before none.
theorem least_good {less : A → A → Bool} {good : A → Bool} (start : A) {rest : List A}
    (top : ∀ value ∈ start :: rest, good value = false →
      (∀ other, good other = true → less other value = true) ∧ ∀ other, less value other = false)
    (some : ∃ value ∈ start :: rest, good value = true) : good (leastFrom less start rest) = true := by
  induction rest generalizing start with
  | nil =>
    obtain ⟨value, listed, fine⟩ := some
    rw [mem_singleton.mp listed] at fine
    exact fine
  | cons next rest ih =>
    obtain ⟨atStart, others⟩ := forall_mem_cons.mp top
    obtain ⟨atNext, later⟩ := forall_mem_cons.mp others
    rw [leastFrom, foldl_cons]
    by_cases taken : less next start = true
    · rw [if_pos taken]
      refine ih next (forall_mem_cons.mpr ⟨atNext, later⟩) ⟨next, mem_cons_self, ?_⟩
      by_contra bad
      rw [(atNext (Bool.not_eq_true _ ▸ bad)).2 start] at taken
      cases taken
    rw [if_neg taken]
    refine ih start (forall_mem_cons.mpr ⟨atStart, later⟩) ?_
    by_cases fine : good start = true
    · exact ⟨start, mem_cons_self, fine⟩
    obtain ⟨value, listed, isGood⟩ := some
    rcases mem_cons.mp listed with rfl | others
    · exact absurd isGood fine
    rcases mem_cons.mp others with rfl | behind
    · exact absurd ((atStart (Bool.not_eq_true _ ▸ fine)).1 value isGood) taken
    · exact ⟨value, mem_cons_of_mem _ behind, isGood⟩

theorem min_by_good (less : A → A → Bool) {good : A → Bool} (values : List A) (top : ∀ value ∈ values, good value = false →
      (∀ other, good other = true → less other value = true) ∧ ∀ other, less value other = false)
    (value : A) (listed : value ∈ values) (fine : good value = true) :
    ∃ least, minBy less values = some least ∧ good least = true := by
  cases values with
  | nil => cases listed
  | cons start rest => exact ⟨_, rfl, least_good start top ⟨value, listed, fine⟩⟩

-- Numbers without rounding; whatever is no number is infinite.
inductive Exact where
  | value (number : Rat)
  | infinite
  deriving DecidableEq

namespace Exact

def lift (op : Rat → Rat → Rat) : Exact → Exact → Exact
  | value left, value right => value (op left right)
  | _, _ => infinite

def quotient : Exact → Exact → Exact
  | value left, value right => if right = 0 then infinite else value (left / right)
  | _, _ => infinite

def less : Exact → Exact → Bool
  | value left, value right => decide (left < right)
  | value _, infinite => true
  | infinite, _ => false

def atMost (left right : Exact) : Bool := !less right left

def root : Exact → Exact
  | value number => value ((Nat.sqrt number.num.toNat : Rat) / (Nat.sqrt number.den : Rat))
  | infinite => infinite

def roundUp : Exact → Nat
  | value number => number.ceil.toNat
  | infinite => 0

def finite : Exact → Bool
  | value _ => true
  | infinite => false

instance : FloatArith Exact where
  add := lift (· + ·)
  sub := lift (· - ·)
  mul := lift (· * ·)
  div := quotient
  max left right := if less left right then right else left
  min left right := if less right left then right else left
  ofRat := value
  infinity := infinite
  sqrt := root
  lt := less
  le := atMost
  isFinite := finite
  ceilNat := roundUp

instance : Narrows Exact Exact := ⟨id⟩

instance : LawfulFloat Exact where
  finite_left := by
    intro left right total
    cases left with
    | value number => rfl
    | infinite => cases total
  below_infinity := by
    intro value finite
    cases value with
    | value number => rfl
    | infinite => cases finite
  infinity_infinite := rfl
  infinity_top := fun _ => rfl
  lt_irrefl := by
    intro value
    cases value with
    | value number => exact decide_eq_false (lt_irrefl number)
    | infinite => rfl
  lt_lower := by
    intro value old new lower above
    cases value with
    | infinite => rfl
    | value number =>
      cases old with
      | infinite => cases above
      | value before =>
        cases new with
        | infinite => cases lower
        | value after =>
          have below : after < before := of_decide_eq_true lower
          have notBelow : ¬ number < before := of_decide_eq_false above
          exact decide_eq_false fun under => notBelow (lt_trans under below)

end Exact

end Lib
