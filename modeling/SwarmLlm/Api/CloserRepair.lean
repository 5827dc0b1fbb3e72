import SwarmLlm.Api.EmbeddedJson
import Mathlib.Tactic.IntervalCases

namespace SwarmLlm.Api

open Lib List

-- Inside a string literal, and right after a backslash there.
abbrev StringState := Bool × Bool

def StringState.next (state : StringState) (symbol : Char) : StringState :=
  if state.2 then (state.1, false)
  else if symbol = '\\' ∧ state.1 = true then (state.1, true)
  else if symbol = '"' then (!state.1, false)
  else (state.1, false)

def IsCloser (symbol : Char) : Prop := symbol = ']' ∨ symbol = '\x7d'

instance : DecidablePred IsCloser := fun _ => inferInstanceAs (Decidable (_ ∨ _))

-- The second text is the first with so many closers put in, none of them inside a string literal.
inductive ClosersAdded : StringState → Text → Text → Nat → Prop
  | done {state} : ClosersAdded state [] [] 0
  | kept {state symbol text out count} (rest : ClosersAdded (state.next symbol) text out count) :
      ClosersAdded state (symbol :: text) (symbol :: out) count
  | added {closer text out count} (closes : IsCloser closer) (rest : ClosersAdded (false, false) text out count) :
      ClosersAdded (false, false) text (closer :: out) (count + 1)

def Ascii (symbol : Char) : Prop := symbol.toNat < 128

instance : DecidablePred Ascii := fun _ => inferInstanceAs (Decidable (_ < _))

def plain (symbol : Char) : Bool := decide (¬IsCloser symbol)

theorem bytes_of_ascii {symbol : Char} (ascii : Ascii symbol) : bytesAsChars symbol = [symbol] := by
  unfold Ascii at ascii
  have small : symbol.toNat ≤ 127 := by omega
  have whole : symbol.toNat % 256 = symbol.toNat := Nat.mod_eq_of_lt (by omega)
  simp [bytesAsChars, String.utf8EncodeChar, small, whole]

theorem plain_of_high {number : Nat} (high : 128 ≤ number) (byte : number < 256) : plain (Char.ofNat number) = true := by
  interval_cases number <;> decide

theorem bytes_of_other {symbol : Char} (other : ¬Ascii symbol) : 2 ≤ (bytesAsChars symbol).countP plain := by
  unfold Ascii at other
  have large : ¬symbol.toNat ≤ 127 := by omega
  unfold bytesAsChars String.utf8EncodeChar
  simp only [Char.toNat_val, large, if_false]
  split
  · simp (disch := omega) [plain_of_high, countP_cons, Nat.mod_eq_of_lt]
  · split <;> simp (disch := omega) [plain_of_high, countP_cons, Nat.mod_eq_of_lt]

theorem plain_bytes (symbol : Char) : [symbol].countP plain ≤ (bytesAsChars symbol).countP plain := by
  by_cases ascii : Ascii symbol
  · rw [bytes_of_ascii ascii]
  · have two := bytes_of_other ascii
    have one : [symbol].countP plain ≤ 1 := countP_le_length
    omega

theorem skipped_closers {want : Char} {stack left : List Char} {repairs repaired : Nat} {closed : Text}
    (ran : closeSkipped want stack repairs = some (closed, repaired, left)) (few : repairs ≤ maxRepairs) :
    repaired = repairs + closed.length ∧ repaired ≤ maxRepairs ∧ ∀ symbol ∈ closed, IsCloser symbol := by
  induction stack generalizing repairs closed with
  | nil =>
    cases ran
    simp [few]
  | cons top stack ih =>
    by_cases wanted : top = want
    · simp only [closeSkipped, wanted, if_true] at ran
      cases ran
      simp [few]
    by_cases beyond : maxRepairs < repairs + 1
    · simp [closeSkipped, wanted, beyond] at ran
    simp only [closeSkipped, wanted, beyond, if_false, Option.map_eq_some_iff] at ran
    obtain ⟨⟨more, total, under⟩, inner, same⟩ := ran
    cases same
    obtain ⟨counted, bounded, closers⟩ := ih inner (by omega)
    refine ⟨by simp [counted]; omega, bounded, ?_⟩
    intro symbol shown
    rcases mem_cons.mp shown with rfl | later
    · unfold closer
      split <;> simp [IsCloser]
    · exact closers symbol later

section
variable {stack left : List Char} {inString escaped : Bool} {repairs total : Nat} {symbol : Char} {text out : Text}

-- What one character does to a run: the closers it was given, its own bytes, and the run of the rest.
def RepairStep (state : StringState) (repairs : Nat) (symbol : Char) (text out : Text) (left : List Char)
    (total : Nat) : Prop :=
  ∃ closed later under, out = closed ++ bytesAsChars symbol ++ later ∧ repairs + closed.length ≤ maxRepairs ∧
    (∀ closer ∈ closed, IsCloser closer) ∧ (closed ≠ [] → state = (false, false)) ∧
    repairLoop under (state.next symbol).1 (state.next symbol).2 (repairs + closed.length) text = some (later, left, total)

theorem unclosed_step {under : List Char} {pushed : Text} (state : StringState) (few : repairs ≤ maxRepairs)
    (bytes : bytesAsChars symbol = pushed) (moved : StringState.next (inString, escaped) symbol = state)
    (ran : ((repairLoop under state.1 state.2 repairs text).map fun later => (pushed ++ later.1, later.2)) =
      some (out, left, total)) : RepairStep (inString, escaped) repairs symbol text out left total := by
  obtain ⟨⟨later, rest⟩, inner, same⟩ := Option.map_eq_some_iff.mp ran
  cases same
  exact ⟨[], later, under, by simp [few, inner, bytes, moved]⟩

theorem repair_step (few : repairs ≤ maxRepairs)
    (ran : repairLoop stack inString escaped repairs (symbol :: text) = some (out, left, total)) :
    RepairStep (inString, escaped) repairs symbol text out left total := by
  simp only [repairLoop] at ran
  split at ran
  next marked => exact unclosed_step (inString, false) few rfl (by simp [StringState.next, marked]) ran
  next unmarked =>
  split at ran
  next backslash =>
    obtain ⟨rfl, inside⟩ := backslash
    exact unclosed_step (inString, true) few rfl (by simp [StringState.next, unmarked, inside]) ran
  next ordinary =>
  split at ran
  next quote =>
    subst quote
    exact unclosed_step (!inString, false) few rfl (by simp [StringState.next, unmarked]) ran
  next unquoted =>
  have stays : StringState.next (inString, escaped) symbol = (inString, false) := by
    simp only [StringState.next, unmarked, ordinary, unquoted]
    rfl
  split at ran
  next opens =>
    obtain ⟨rfl | rfl, -⟩ := opens
    all_goals exact unclosed_step (inString, false) few rfl stays ran
  split at ran
  next closes =>
    split at ran
    · cases ran
    · cases ran
    next closed repaired top under skipped =>
    obtain ⟨counted, bounded, closers⟩ := skipped_closers skipped few
    obtain ⟨⟨later, rest⟩, inner, same⟩ := Option.map_eq_some_iff.mp ran
    cases same
    subst counted
    refine ⟨closed, later, under, ?_, bounded, closers, fun _ => by simp [closes.2, unmarked], ?_⟩
    · obtain ⟨rfl | rfl, -⟩ := closes <;> rfl
    · rw [stays]
      exact inner
  next plain => exact unclosed_step (inString, false) few rfl stays ran

variable {state : StringState}

theorem added_before {closed : Text} {count : Nat} (closers : ∀ closer ∈ closed, IsCloser closer)
    (outside : closed ≠ [] → state = (false, false)) (added : ClosersAdded state text out count) :
    ClosersAdded state text (closed ++ out) (count + closed.length) := by
  induction closed with
  | nil => exact added
  | cons closer closed ih =>
    cases outside (by simp)
    exact .added (closers closer (by simp)) (ih (fun later shown => closers later (by simp [shown])) (by simp))

theorem added_plain {count : Nat} (added : ClosersAdded state text out count) : out.countP plain = text.countP plain := by
  induction added with
  | done => rfl
  | kept rest ih => simp [countP_cons, ih]
  | added closes rest ih => simp [plain, closes, ih]

theorem repair_adds (few : repairs ≤ maxRepairs) (ascii : ∀ symbol ∈ text, Ascii symbol)
    (ran : repairLoop stack inString escaped repairs text = some (out, left, total)) :
    ∃ count, total = repairs + count ∧ total ≤ maxRepairs ∧ ClosersAdded (inString, escaped) text out count := by
  induction text generalizing stack inString escaped repairs out with
  | nil =>
    cases ran
    exact ⟨0, rfl, few, .done⟩
  | cons symbol text ih =>
    obtain ⟨closed, later, under, rfl, bounded, closers, outside, rest⟩ := repair_step few ran
    obtain ⟨count, summed, most, added⟩ := ih bounded (fun other shown => ascii other (by simp [shown])) rest
    refine ⟨count + closed.length, by omega, most, ?_⟩
    rw [bytes_of_ascii (ascii symbol (by simp)), append_assoc]
    exact added_before closers outside (.kept added)

-- A character outside ASCII comes back as two characters or more, so the text that is no closer only grows.
theorem repair_keeps (few : repairs ≤ maxRepairs)
    (ran : repairLoop stack inString escaped repairs text = some (out, left, total)) :
    text.countP plain ≤ out.countP plain ∧
      (out.countP plain ≤ text.countP plain → ∀ symbol ∈ text, Ascii symbol) := by
  induction text generalizing stack inString escaped repairs out with
  | nil => simp
  | cons symbol text ih =>
    obtain ⟨closed, later, under, rfl, bounded, closers, -, rest⟩ := repair_step few ran
    obtain ⟨grown, same⟩ := ih bounded rest
    have none : closed.countP plain = 0 := countP_eq_zero.mpr fun closer shown => by simp [plain, closers closer shown]
    have more := plain_bytes symbol
    have one : [symbol].countP plain ≤ 1 := countP_le_length
    rw [← singleton_append, countP_append, countP_append, countP_append]
    refine ⟨by omega, fun fits other shown => ?_⟩
    rcases mem_cons.mp shown with rfl | later
    · by_contra outside
      have := bytes_of_other outside
      omega
    · exact same (by omega) other later

end

theorem repair_only_adds_closers_iff {text out : Text} (repaired : repairUnbalancedClose text = some out) :
    (∃ count, 1 ≤ count ∧ count ≤ 4 ∧ ClosersAdded (false, false) text out count) ↔ ∀ symbol ∈ text, Ascii symbol := by
  unfold repairUnbalancedClose at repaired
  split at repaired
  · cases repaired
  next stack repairs ran =>
  split at repaired
  · cases repaired
  next closed =>
  cases repaired
  constructor
  · rintro ⟨count, -, -, added⟩
    exact (repair_keeps (by simp) ran).2 (added_plain added).le
  · intro ascii
    obtain ⟨count, rfl, most, added⟩ := repair_adds (by simp) ascii ran
    exact ⟨count, by omega, by simpa [maxRepairs] using most, added⟩

theorem bracket_put_back : repairUnbalancedClose "\x7b\"a\":[1\x7d".toList = some "\x7b\"a\":[1]\x7d".toList ∧
    ∃ count, 1 ≤ count ∧ count ≤ 4 ∧ ClosersAdded (false, false) "\x7b\"a\":[1\x7d".toList "\x7b\"a\":[1]\x7d".toList count :=
  ⟨by decide, (repair_only_adds_closers_iff (by decide)).mpr (by simp [Ascii])⟩

theorem repair_respells_accents : repairUnbalancedClose "\x7b\"a\":[\"é\"\x7d".toList = some "\x7b\"a\":[\"Ã©\"]\x7d".toList ∧
    ¬∃ count, ClosersAdded (false, false) "\x7b\"a\":[\"é\"\x7d".toList "\x7b\"a\":[\"Ã©\"]\x7d".toList count := by
  refine ⟨by decide, ?_⟩
  rintro ⟨count, added⟩
  exact absurd (added_plain added) (by decide)

end SwarmLlm.Api
