import Mathlib.Algebra.Order.Group.Int
import Mathlib.Tactic.Common

namespace Lib

-- Signed 64-bit values are integers inside `[i64Min, i64Max]`, unsigned ones are
-- naturals up to `u64Max`. Saturating operations clamp the exact result.
abbrev i64Min : Int := -9223372036854775808
abbrev i64Max : Int := 9223372036854775807
abbrev u64Max : Nat := 18446744073709551615
abbrev u32Max : Nat := 4294967295

def IsI64 (value : Int) : Prop := i64Min ≤ value ∧ value ≤ i64Max

instance (value : Int) : Decidable (IsI64 value) := inferInstanceAs (Decidable (_ ∧ _))

def clampI64 (value : Int) : Int := max i64Min (min i64Max value)

variable (left right : Int)

def satAdd : Int := clampI64 (left + right)

def satSub : Int := clampI64 (left - right)

def satMul : Int := clampI64 (left * right)

-- Two's-complement negation: the least value is its own negation.
def wrapNeg (value : Int) : Int := if value = i64Min then i64Min else -value

def satAddU (left right : Nat) : Nat := min u64Max (left + right)

def satAddU32 (left right : Nat) : Nat := min u32Max (left + right)

theorem clamp_in_range (value : Int) : IsI64 (clampI64 value) := by
  unfold IsI64 clampI64 i64Min i64Max
  omega

theorem clamp_exact {value : Int} (inside : IsI64 value) : clampI64 value = value := by
  unfold IsI64 at inside
  unfold clampI64
  omega

theorem clamp_le {value : Int} (low : i64Min ≤ value) : clampI64 value ≤ value := by
  unfold clampI64
  omega

variable {left} {right}

theorem sat_add_le (low : i64Min ≤ left + right) : satAdd left right ≤ left + right :=
  clamp_le low

theorem sat_add_exact (inside : IsI64 (left + right)) : satAdd left right = left + right :=
  clamp_exact inside

theorem sat_sub_add_le (range : IsI64 left) (low : i64Min ≤ left + right) : satSub (satAdd left right) right ≤ left := by
  unfold IsI64 at range
  unfold satSub satAdd clampI64
  omega

theorem sat_add_unsigned_exact {left right : Nat} (inside : left + right ≤ u64Max) : satAddU left right = left + right := by
  unfold satAddU
  omega

end Lib
