import Mathlib.Data.Vector.Defs
import Mathlib.Data.Nat.Bitwise
import Mathlib.Tactic.SplitIfs
import SwarmLlm.Lib.Run

namespace SwarmLlm.Crypto

open List hiding Vector

def replayWindowSize : Nat := 128

abbrev Bitmap := Vector (BitVec 64) 2

-- Bit i of the bitmap stands for the nonce top - i.
structure ReplayWindow where
  top : Nat
  bitmap : Bitmap
  deriving DecidableEq

open ReplayWindow

def ReplayWindow.new : ReplayWindow := ⟨0, Vector.replicate 2 0#64⟩

-- The source's loops run from the last word down, so they read words that are
-- not yet overwritten.
def shiftBitmap (bitmap : Bitmap) (shift : Nat) : Bitmap :=
  if replayWindowSize ≤ shift then Vector.replicate 2 0#64
  else
    let wordShift := shift / 64
    let bitShift := shift % 64
    if bitShift = 0 then Vector.ofFn fun i => if wordShift ≤ i.val then bitmap[i.val - wordShift] else 0#64
    else Vector.ofFn fun i =>
      let lo := if wordShift ≤ i.val then bitmap[i.val - wordShift] <<< bitShift else 0#64
      let hi := if wordShift < i.val then bitmap[i.val - wordShift - 1] >>> (64 - bitShift) else 0#64
      lo ||| hi

def ReplayWindow.check (window : ReplayWindow) (nonce : Nat) : Bool :=
  if window.top = 0 ∧ window.bitmap = Vector.replicate 2 0#64 then decide (nonce < replayWindowSize)
  else if window.top < nonce then true
  else if inside : window.top - nonce < 128 then
    have : (window.top - nonce) / 64 < 2 := by omega
    (window.bitmap[(window.top - nonce) / 64] >>> ((window.top - nonce) % 64)) &&& 1#64 == 0#64
  else false

def ReplayWindow.record (window : ReplayWindow) (nonce : Nat) : ReplayWindow :=
  if window.top = 0 ∧ window.bitmap = Vector.replicate 2 0#64 then ⟨nonce, window.bitmap.set 0 1#64⟩
  else if window.top < nonce then
    let shifted := shiftBitmap window.bitmap (nonce - window.top)
    ⟨nonce, shifted.set 0 (shifted[0] ||| 1#64)⟩
  else if inside : window.top - nonce < 128 then
    have : (window.top - nonce) / 64 < 2 := by omega
    let word := (window.top - nonce) / 64
    ⟨window.top, window.bitmap.set word (window.bitmap[word] ||| (1#64 <<< ((window.top - nonce) % 64)))⟩
  else window

def bits (bitmap : Bitmap) : BitVec 128 := bitmap[1] ++ bitmap[0]

theorem bits_get {bitmap : Bitmap} {i : Nat} (inside : i < 128) (word : i / 64 < 2) :
    (bits bitmap).getLsbD i = bitmap[i / 64].getLsbD (i % 64) := by
  rw [bits, BitVec.getLsbD_append]
  by_cases low : i < 64
  · have zero : i / 64 = 0 := by omega
    have same : i % 64 = i := by omega
    simp [low, zero, same]
  · have one : i / 64 = 1 := by omega
    have same : i % 64 = i - 64 := by omega
    simp [low, one, same]

theorem bits_zero : bits (Vector.replicate 2 0#64) = 0#128 := by decide

variable {nonce : Nat} (bitmap : Bitmap) {seen : List Nat} {window : ReplayWindow}

-- Bit i of the shifted bitmap, word by word: a whole-word shift moves words, any
-- other shift takes the low part from one word and the high part from the one below.
theorem bits_shift (shift : Nat) : bits (shiftBitmap bitmap shift) = bits bitmap <<< shift := by
  refine BitVec.eq_of_getLsbD_eq fun i inside => ?_
  rw [BitVec.getLsbD_shiftLeft]
  by_cases large : replayWindowSize ≤ shift
  · have before : i < shift := lt_of_lt_of_le inside large
    simp [shiftBitmap, large, bits_zero, before]
  rw [replayWindowSize, not_le] at large
  have word : i / 64 < 2 := by omega
  rw [bits_get inside word]
  have words : shift / 64 = 0 ∨ shift / 64 = 1 := by omega
  by_cases whole : shift % 64 = 0
  · simp only [shiftBitmap, replayWindowSize, not_le.mpr large, if_false, whole, if_true, Vector.getElem_ofFn]
    by_cases moved : shift ≤ i
    · rw [if_pos (by omega), bits_get (by omega) (by omega)]
      have sameWord : i / 64 - shift / 64 = (i - shift) / 64 := by omega
      have sameBit : (i - shift) % 64 = i % 64 := by omega
      simp [sameWord, sameBit, inside, not_lt.mpr moved]
    · rw [if_neg (by omega)]
      simp [not_le.mp moved]
  simp only [shiftBitmap, replayWindowSize, not_le.mpr large, if_false, whole, Vector.getElem_ofFn, BitVec.getLsbD_or]
  rcases Nat.lt_trichotomy (i / 64) (shift / 64) with below | same | above
  · have before : i < shift := by omega
    simp [before, not_le.mpr below, not_lt.mpr (le_of_lt below)]
  · have sameWord : i / 64 - shift / 64 = (i - shift) / 64 := by omega
    by_cases moved : shift ≤ i
    · have sameBit : (i - shift) % 64 = i % 64 - shift % 64 := by omega
      have past : ¬ i % 64 < shift % 64 := by omega
      rw [bits_get (by omega) (by omega)]
      simp [same, sameBit, past, inside, not_lt.mpr moved, Nat.mod_lt, ← sameWord, -BitVec.getLsbD_eq_getElem]
    · have before : i % 64 < shift % 64 := by omega
      simp [same, before, not_le.mp moved]
  have moved : ¬ i < shift := by omega
  have lowWord : i / 64 - shift / 64 - 1 = 0 := by omega
  have highWord : i / 64 - shift / 64 = 1 := by omega
  rw [bits_get (by omega) (by omega)]
  by_cases carried : i % 64 < shift % 64
  · have sameWord : (i - shift) / 64 = 0 := by omega
    have sameBit : (i - shift) % 64 = 64 - shift % 64 + i % 64 := by omega
    simp [above, le_of_lt above, carried, moved, inside, lowWord, sameWord, sameBit]
  · have sameWord : (i - shift) / 64 = 1 := by omega
    have sameBit : (i - shift) % 64 = i % 64 - shift % 64 := by omega
    have outside : 64 ≤ 64 - shift % 64 + i % 64 := by omega
    simp [above, le_of_lt above, carried, moved, inside, highWord, sameWord, sameBit, Nat.mod_lt,
      BitVec.getLsbD_of_ge _ _ outside, -BitVec.getLsbD_eq_getElem]

theorem bits_mark (diff : Nat) {i : Nat} (inside : i < 128) (word : diff / 64 < 2) :
    (bits (bitmap.set (diff / 64) (bitmap[diff / 64] ||| (1#64 <<< (diff % 64))))).getLsbD i =
      ((bits bitmap).getLsbD i || decide (i = diff)) := by
  have inWord : i / 64 < 2 := by omega
  rw [bits_get inside inWord, bits_get inside inWord]
  by_cases sameWord : diff / 64 = i / 64
  · have sameBit : (diff % 64 ≤ i % 64 ∧ i % 64 - diff % 64 = 0) ↔ i = diff := by omega
    simp only [Vector.getElem_set, sameWord, if_true, BitVec.getLsbD_or, BitVec.getLsbD_shiftLeft, BitVec.getLsbD_one]
    congr 1
    rw [Bool.eq_iff_iff]
    simp [Nat.mod_lt, ← sameBit]
  · have apart : i ≠ diff := fun same => sameWord (by rw [same])
    simp [sameWord, apart]

theorem bits_mark_top {i : Nat} (inside : i < 128) :
    (bits (bitmap.set 0 (bitmap[0] ||| 1#64))).getLsbD i = ((bits bitmap).getLsbD i || decide (i = 0)) := by
  simpa using bits_mark bitmap 0 inside (by decide)

-- What a window remembers of the nonces recorded in it: those within its width of
-- the highest one.
inductive Records (window : ReplayWindow) (seen : List Nat) : Prop where
  | fresh (untouched : window = .new) (none : seen = [])
  | touched (top : window.top ∈ seen) (highest : ∀ nonce ∈ seen, nonce ≤ window.top)
      (marked : ∀ diff, diff < 128 → ((bits window.bitmap).getLsbD diff = true ↔ diff ≤ window.top ∧ window.top - diff ∈ seen))

theorem records_new : Records .new [] := .fresh rfl rfl

theorem touched_not_new (top : window.top ∈ seen)
    (marked : ∀ diff, diff < 128 → ((bits window.bitmap).getLsbD diff = true ↔ diff ≤ window.top ∧ window.top - diff ∈ seen)) :
    ¬ (window.top = 0 ∧ window.bitmap = Vector.replicate 2 0#64) := by
  rintro ⟨_, zero⟩
  have first := (marked 0 (by decide)).mpr ⟨Nat.zero_le _, top⟩
  rw [zero, bits_zero] at first
  simp at first

theorem bit_test (word : BitVec 64) (bit : Nat) : ((word >>> bit) &&& 1#64 == 0#64) = !word.getLsbD bit := by
  have low : (word >>> bit) &&& 1#64 = BitVec.setWidth 64 (BitVec.ofBool (word.getLsbD bit)) := by
    rw [BitVec.and_one_eq_setWidth_ofBool_getLsbD, BitVec.getLsbD_ushiftRight, add_zero]
  rw [low]
  cases word.getLsbD bit <;> rfl

theorem check_iff (records : Records window seen) : window.check nonce = true ↔ (seen = [] ∧ nonce < replayWindowSize) ∨
        (seen ≠ [] ∧ (window.top < nonce ∨ (window.top - nonce < replayWindowSize ∧ nonce ∉ seen))) := by
  cases records with
  | fresh untouched none =>
    subst untouched none
    simp [check, new]
  | touched top highest marked =>
    have some : seen ≠ [] := ne_nil_of_mem top
    rw [check, if_neg (touched_not_new top marked)]
    by_cases above : window.top < nonce
    · simp [some, above]
    rw [if_neg above]
    by_cases inside : window.top - nonce < 128
    · have word : (window.top - nonce) / 64 < 2 := by omega
      have back : window.top - (window.top - nonce) = nonce := by omega
      have bit := marked (window.top - nonce) inside
      rw [bits_get inside word, back, and_iff_right (Nat.sub_le _ _)] at bit
      rw [dif_pos inside, bit_test, Bool.not_eq_true', ← Bool.not_eq_true, bit]
      simp [some, above, inside, replayWindowSize]
    · simp [some, above, inside, replayWindowSize]

theorem seen_refused (records : Records window seen) (replayed : nonce ∈ seen) : window.check nonce = false := by
  rw [← Bool.not_eq_true, check_iff records]
  rintro (⟨none, _⟩ | ⟨_, above | ⟨_, unseen⟩⟩)
  · exact absurd replayed (by simp [none])
  · cases records with
    | fresh _ none => exact absurd replayed (by simp [none])
    | touched _ highest _ => exact absurd (highest nonce replayed) (not_le.mpr above)
  · exact unseen replayed

theorem first_mark :
    (Vector.replicate 2 0#64).set 0 1#64 = (Vector.replicate 2 0#64).set 0 ((Vector.replicate 2 0#64)[0] ||| 1#64) := by
  decide

theorem record_first : Records (new.record nonce) [nonce] := by
  have first : new.record nonce = ⟨nonce, (Vector.replicate 2 0#64).set 0 1#64⟩ := rfl
  rw [first]
  refine .touched (by simp) (by simp) fun diff inside => ?_
  have bit := bits_mark_top (Vector.replicate 2 0#64) inside
  rw [bits_zero] at bit
  simp only [BitVec.getLsbD_zero, Bool.false_or] at bit
  rw [first_mark, bit]
  simp only [decide_eq_true_eq, mem_singleton]
  omega

theorem record_records (records : Records window seen) : Records (window.record nonce) (nonce :: seen) := by
  cases records with
  | fresh untouched none =>
    subst untouched none
    exact record_first
  | touched top highest marked =>
    rw [record, if_neg (touched_not_new top marked)]
    by_cases above : window.top < nonce
    · rw [if_pos above]
      have most : ∀ other ∈ nonce :: seen, other ≤ nonce :=
        forall_mem_cons.mpr ⟨le_refl _, fun other old => le_of_lt (lt_of_le_of_lt (highest other old) above)⟩
      refine .touched (by simp) most fun diff inside => ?_
      simp only
      rw [bits_mark_top _ inside, bits_shift, BitVec.getLsbD_shiftLeft]
      by_cases shifted : diff < nonce - window.top
      · have unseen : nonce - diff ∉ seen := fun old => by
          have := highest _ old
          omega
        simp [shifted, unseen]
        omega
      have back : window.top - (diff - (nonce - window.top)) = nonce - diff := by omega
      have bit := marked (diff - (nonce - window.top)) (by omega)
      rw [back] at bit
      have reaches : diff - (nonce - window.top) ≤ window.top ↔ diff ≤ nonce := by omega
      have later : diff ≠ 0 := by omega
      have notTop : nonce - diff ≠ nonce := by omega
      simp [shifted, inside, bit, reaches, later, notTop]
    rw [if_neg above]
    have most : ∀ other ∈ nonce :: seen, other ≤ window.top := forall_mem_cons.mpr ⟨not_lt.mp above, highest⟩
    by_cases inside : window.top - nonce < 128
    · rw [dif_pos inside]
      have word : (window.top - nonce) / 64 < 2 := by omega
      refine .touched (mem_cons_of_mem _ top) most fun diff within => ?_
      simp only
      have newest : diff = window.top - nonce ↔ diff ≤ window.top ∧ window.top - diff = nonce := by omega
      rw [bits_mark _ _ within word, Bool.or_eq_true, marked diff within, decide_eq_true_eq, mem_cons, newest,
        ← and_or_left, or_comm]
    rw [dif_neg inside]
    refine .touched (mem_cons_of_mem _ top) most fun diff within => ?_
    rw [marked diff within, mem_cons]
    have tooOld : window.top - diff ≠ nonce := by omega
    simp [tooOld]

theorem run_records (nonces : List Nat) (records : Records window seen) :
    Records (Lib.run record window nonces) (nonces.reverse ++ seen) := by
  induction nonces generalizing window seen with
  | nil => exact records
  | cons nonce rest ih =>
    rw [reverse_cons, append_assoc]
    exact ih (record_records records)

-- The window as a set of nonces: an unseen one is allowed above the highest, or within the
-- width below it.
def Allowed (seen : List Nat) (nonce : Nat) : Prop :=
  seen = [] ∧ nonce < replayWindowSize ∨ nonce ∉ seen ∧ ∃ top ∈ seen, (∀ other ∈ seen, other ≤ top) ∧
    (top < nonce ∨ top - nonce < replayWindowSize)

-- Whether or not each nonce was accepted before it was recorded.
theorem window_refines_seen (nonces : List Nat) (nonce : Nat) :
    (Lib.run record .new nonces).check nonce = true ↔ Allowed nonces nonce := by
  have records := run_records nonces records_new
  rw [append_nil] at records
  rw [check_iff records, reverse_eq_nil_iff, ne_eq, reverse_eq_nil_iff, mem_reverse, Allowed]
  refine or_congr_right ?_
  cases records with
  | fresh _ none => simp [reverse_eq_nil_iff.mp none]
  | touched top highest _ =>
    simp only [mem_reverse] at top highest
    constructor
    · rintro ⟨-, above | ⟨inside, unseen⟩⟩
      · exact ⟨fun old => not_le.mpr above (highest nonce old), _, top, highest, .inl above⟩
      · exact ⟨unseen, _, top, highest, .inr inside⟩
    · rintro ⟨unseen, other, listed, most, near⟩
      obtain rfl := le_antisymm (highest other listed) (most _ top)
      exact ⟨ne_nil_of_mem top, near.imp_right fun inside => ⟨inside, unseen⟩⟩

end SwarmLlm.Crypto
