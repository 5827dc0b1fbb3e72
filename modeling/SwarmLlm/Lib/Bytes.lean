import Mathlib.Data.List.Basic
import Mathlib.Tactic.Ring

namespace Lib

abbrev Bytes := List UInt8

def leBytes : Nat → Nat → Bytes
  | 0, _ => []
  | count + 1, value => UInt8.ofNat value :: leBytes count (value / 256)

def fromLe : Bytes → Nat
  | [] => 0
  | byte :: rest => byte.toNat + 256 * fromLe rest

def leBytesI64 (value : Int) : Bytes := leBytes 8 (value % 18446744073709551616).toNat

def utf8 (text : String) : Bytes := text.toUTF8.data.toList

def fromUtf8 (bytes : Bytes) : Option String := String.fromUTF8? ⟨bytes.toArray⟩

theorem from_utf8_utf8 (text : String) : fromUtf8 (utf8 text) = some text := by
  have same : (⟨(utf8 text).toArray⟩ : ByteArray) = text.toByteArray := rfl
  rw [fromUtf8, same, String.fromUTF8?, dif_pos text.isValidUTF8]
  rfl

@[simp] theorem length_le_bytes (count : Nat) {value : Nat} : (leBytes count value).length = count := by
  induction count generalizing value with
  | zero => rfl
  | succ count ih => rw [leBytes, List.length_cons, ih]

theorem from_le_le_bytes (count value : Nat) : fromLe (leBytes count value) = value % 256 ^ count := by
  induction count generalizing value with
  | zero => simp [leBytes, fromLe, Nat.mod_one]
  | succ count ih =>
    have low : (UInt8.ofNat value).toNat = value % 256 := UInt8.toNat_ofNat'
    rw [leBytes, fromLe, ih, low, Nat.pow_succ', Nat.mod_mul]

theorem from_le_exact {count value : Nat} (fits : value < 256 ^ count) : fromLe (leBytes count value) = value := by
  rw [from_le_le_bytes, Nat.mod_eq_of_lt fits]

theorem from_le_lt (bytes : Bytes) : fromLe bytes < 256 ^ bytes.length := by
  induction bytes with
  | nil => exact Nat.one_pos
  | cons byte rest ih =>
    have low : byte.toNat < 256 := byte.toNat_lt
    rw [fromLe, List.length_cons, Nat.pow_succ']
    omega

theorem utf8_inj {first second : String} (same : utf8 first = utf8 second) : first = second := by
  have read := congrArg fromUtf8 same
  rw [from_utf8_utf8, from_utf8_utf8] at read
  exact Option.some.inj read

theorem le_bytes_inj {count first second : Nat} (firstFits : first < 256 ^ count) (secondFits : second < 256 ^ count)
    (same : leBytes count first = leBytes count second) : first = second := by
  rw [← from_le_exact firstFits, same, from_le_exact secondFits]

theorem le_bytes_u32_inj {first second : UInt32} (same : leBytes 4 first.toNat = leBytes 4 second.toNat) : first = second :=
  UInt32.toNat_inj.mp (le_bytes_inj first.toNat_lt second.toNat_lt same)

theorem le_bytes_u64_inj {first second : UInt64} (same : leBytes 8 first.toNat = leBytes 8 second.toNat) : first = second :=
  UInt64.toNat_inj.mp (le_bytes_inj first.toNat_lt second.toNat_lt same)

theorem flat_map_splits {T : Type} {encode : T → Bytes} {Alike : T → T → Prop}
    (splits : ∀ first second rest others, Alike first second → encode first ++ rest = encode second ++ others → first = second ∧ rest = others)
    {firsts seconds : List T} {rest others : Bytes} (alike : List.Forall₂ Alike firsts seconds)
    (same : firsts.flatMap encode ++ rest = seconds.flatMap encode ++ others) : firsts = seconds ∧ rest = others := by
  induction alike with
  | nil => exact ⟨rfl, same⟩
  | cons head tail ih =>
    rw [List.flatMap_cons, List.flatMap_cons, List.append_assoc, List.append_assoc] at same
    obtain ⟨rfl, later⟩ := splits _ _ _ _ head same
    obtain ⟨rfl, ends⟩ := ih later
    exact ⟨rfl, ends⟩

-- Items that are told apart by their keys have one order by them.
theorem sort_unique {α : Type} (key : α → Bytes) {first second : List α} (same : first.Perm second)
    (distinct : ∀ left ∈ first, ∀ right ∈ first, key left = key right → left = right) :
    (first.mergeSort fun left right => decide (key left ≤ key right)) =
      second.mergeSort fun left right => decide (key left ≤ key right) := by
  have sorted : ∀ items : List α, (items.mergeSort fun left right => decide (key left ≤ key right)).Pairwise
      fun left right => decide (key left ≤ key right) = true := by
    intro items
    refine List.pairwise_mergeSort (fun _ _ _ low high => ?_) (fun left right => ?_) items
    · exact decide_eq_true (List.le_trans (of_decide_eq_true low) (of_decide_eq_true high))
    · simpa using List.le_total (key left) (key right)
  refine List.Perm.eq_of_pairwise (fun left right here there low high => ?_) (sorted first) (sorted second)
    (((List.mergeSort_perm _ _).trans same).trans (List.mergeSort_perm _ _).symm)
  exact distinct left (List.mem_mergeSort.mp here) right (same.mem_iff.mpr (List.mem_mergeSort.mp there))
    (List.le_antisymm (of_decide_eq_true low) (of_decide_eq_true high))

end Lib
