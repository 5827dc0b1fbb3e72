import Mathlib.Data.List.Count
import SwarmLlm.Lib.Table

namespace Lib

namespace Tally

variable {K : Type} [DecidableEq K] (counts : Table K Nat) (key : K)

def amount : Nat := (counts.lookup key).getD 0

def bump : Table K Nat := counts.insert key (amount counts key + 1)

def lower : Table K Nat :=
  match counts.lookup key with
  | some count => counts.insert key (count - 1)
  | none => counts

def prune : Table K Nat := counts.retain fun _ count => decide (0 < count)

def Tallies (keys : List K) : Prop := ∀ key, amount counts key = keys.count key

theorem amount_bump (query : K) :
    amount (bump counts key) query = if query = key then amount counts key + 1 else amount counts query := by
  rw [amount, bump, Table.lookup_insert_if]
  split <;> rfl

theorem amount_lower (query : K) :
    amount (lower counts key) query = if query = key then amount counts key - 1 else amount counts query := by
  cases found : counts.lookup key with
  | none =>
    simp only [lower, found]
    by_cases same : query = key
    · subst same
      rw [if_pos rfl, amount, found]
      rfl
    · rw [if_neg same]
  | some count =>
    simp only [lower, found]
    by_cases same : query = key
    · subst same
      rw [if_pos rfl, amount, Table.lookup_insert_if, if_pos rfl, amount, found]
      rfl
    · rw [if_neg same, amount, Table.lookup_insert_if, if_neg same, amount]

variable {keys : List K} {counts : Table K Nat} {key}

theorem amount_prune : amount (prune counts) key = amount counts key := by
  rw [amount, prune, Table.lookup_retain, amount]
  cases counts.lookup key with
  | none => rfl
  | some count =>
    rw [Option.filter_some]
    by_cases positive : 0 < count
    · rw [decide_eq_true positive, if_pos rfl]
    · rw [decide_eq_false positive, if_neg Bool.false_ne_true]
      exact (Nat.eq_zero_of_not_pos positive).symm

theorem tallies_bump (exact : Tallies counts keys) : Tallies (bump counts key) (key :: keys) := by
  intro query
  rw [amount_bump, List.count_cons]
  by_cases same : query = key
  · subst same
    rw [if_pos rfl, exact, beq_self_eq_true, if_pos rfl]
  · rw [if_neg same, exact, beq_eq_false_iff_ne.mpr (Ne.symm same), if_neg Bool.false_ne_true, Nat.add_zero]

theorem tallies_lower_all {gone : List K} (kept : List K) (counts : Table K Nat) (exact : Tallies counts (gone ++ kept)) :
    Tallies (gone.foldl lower counts) kept := by
  induction gone generalizing counts with
  | nil => exact exact
  | cons key rest ih =>
    refine ih (lower counts key) fun query => ?_
    have before := exact query
    rw [amount_lower]
    rw [List.cons_append, List.count_cons] at before
    by_cases same : query = key
    · subst same
      rw [beq_self_eq_true, if_pos rfl] at before
      rw [if_pos rfl, before, Nat.add_sub_cancel]
    · rw [beq_eq_false_iff_ne.mpr (Ne.symm same), if_neg Bool.false_ne_true, Nat.add_zero] at before
      rw [if_neg same, before]

theorem tallies_prune (exact : Tallies counts keys) : Tallies (prune counts) keys :=
  fun key => amount_prune.trans (exact key)

theorem tallies_perm {others : List K} (same : keys.Perm others) (exact : Tallies counts keys) :
    Tallies counts others := fun key => (exact key).trans (same.count_eq key)

end Tally

end Lib
