import Mathlib.Data.List.DropRight
import SwarmLlm.Lib.Search

namespace Lib

open List

abbrev Text := List Char

variable (blank : Char → Bool) (text : Text)

def utf8Len : Nat := text.foldr (fun symbol total => symbol.utf8Size + total) 0

def isWhitespace (symbol : Char) : Bool :=
  (9 ≤ symbol.toNat && symbol.toNat ≤ 13) || symbol.toNat == 0x20 || symbol.toNat == 0x85 || symbol.toNat == 0xA0 ||
    symbol.toNat == 0x1680 || (0x2000 ≤ symbol.toNat && symbol.toNat ≤ 0x200A) || symbol.toNat == 0x2028 ||
    symbol.toNat == 0x2029 || symbol.toNat == 0x202F || symbol.toNat == 0x205F || symbol.toNat == 0x3000

def trimStart : Text := text.dropWhile blank

def trimEnd : Text := text.rdropWhile blank

def trim : Text := trimEnd isWhitespace (trimStart isWhitespace text)

def leadLen : Nat := text.length - (trimStart blank text).length

def between (start stop : Nat) : Text := (text.take stop).drop start

variable (more : Text)

theorem utf8_len_append : utf8Len (text ++ more) = utf8Len text + utf8Len more := by
  induction text with
  | nil => exact (Nat.zero_add _).symm
  | cons symbol rest ih =>
    rw [cons_append, utf8Len, foldr_cons, utf8Len, foldr_cons]
    rw [utf8Len] at ih
    rw [ih]
    exact (Nat.add_assoc _ _ _).symm

theorem trim_start_append {blank : Char → Bool} {text more : Text} (left : trimStart blank text ≠ []) :
    trimStart blank (text ++ more) = trimStart blank text ++ more := by
  unfold trimStart at *
  rw [List.dropWhile_append, if_neg]
  rw [List.isEmpty_iff]
  exact left

theorem trim_start_blank (nothing : trimStart blank text = []) : trimStart blank (text ++ more) = trimStart blank more := by
  unfold trimStart at *
  rw [List.dropWhile_append, if_pos]
  rw [List.isEmpty_iff]
  exact nothing

theorem trim_start_suffix : trimStart blank text <:+ text := dropWhile_suffix blank

theorem lead_split : ∃ front, text = front ++ trimStart blank text ∧
    front.length = leadLen blank text ∧ ∀ symbol ∈ front, blank symbol = true := by
  refine ⟨text.takeWhile blank, takeWhile_append_dropWhile.symm, ?_, fun _ inside => mem_takeWhile_imp inside⟩
  have total := congrArg List.length (takeWhile_append_dropWhile (p := blank) (l := text))
  rw [length_append] at total
  rw [leadLen, trimStart]
  omega

theorem drop_lead : text.drop (leadLen blank text) = trimStart blank text := by
  obtain ⟨front, split, length, -⟩ := lead_split blank text
  rw [← length]
  nth_rewrite 1 [split]
  rw [drop_left]

theorem lead_drop {place : Nat} (early : place < leadLen blank text) :
    ∃ white later, text.drop place = white :: later ∧ blank white = true := by
  obtain ⟨front, split, length, blanks⟩ := lead_split blank text
  rw [← length] at early
  refine ⟨front[place], front.drop (place + 1) ++ trimStart blank text, ?_, blanks _ (getElem_mem early)⟩
  nth_rewrite 1 [split]
  rw [drop_append_of_le_length (Nat.le_of_lt early), drop_eq_getElem_cons early, cons_append]

theorem lead_le : leadLen blank text ≤ text.length := Nat.sub_le _ _

variable {blank}

theorem lead_append (left : trimStart blank text ≠ []) : leadLen blank (text ++ more) = leadLen blank text := by
  rw [leadLen, leadLen, trim_start_append left, length_append, length_append]
  omega

theorem trim_start_head (symbol : Char) (rest : Text) (left : trimStart blank text = symbol :: rest) : blank symbol = false := by
  have stops := head?_dropWhile_not blank text
  rw [trimStart] at left
  rw [left] at stops
  simpa using stops

theorem trim_start_eq_nil : trimStart blank text = [] ↔ ∀ symbol ∈ text, blank symbol = true := dropWhile_eq_nil_iff

variable {stop : Nat}

theorem between_append (start : Nat) (within : stop ≤ text.length) :
    between (text ++ more) start stop = between text start stop := by
  rw [between, between, take_append_of_le_length within]

theorem between_drop (start count stop : Nat) : between text (start + count) stop = (between text start stop).drop count := by
  rw [between, between, drop_drop]

theorem between_length (start : Nat) (within : stop ≤ text.length) : (between text start stop).length = stop - start := by
  rw [between, length_drop, length_take, Nat.min_eq_left within]

theorem between_self {place : Nat} : between text place place = [] := by
  rw [between, drop_eq_nil_iff, length_take]
  omega

theorem between_join (start middle : Nat) (ordered : start ≤ middle) (bounded : middle ≤ stop) :
    between text start middle ++ between text middle stop = between text start stop := by
  have front : (text.take stop).take middle = text.take middle := by rw [take_take, Nat.min_eq_left bounded]
  have split : text.take stop = text.take middle ++ (text.take stop).drop middle := by
    rw [← front, take_append_drop]
  rw [between, between, between]
  nth_rewrite 2 [split]
  rw [drop_append]
  by_cases inside : middle ≤ text.length
  · rw [length_take, Nat.min_eq_left inside, Nat.sub_eq_zero_of_le ordered, drop_zero]
  · have nothing : (text.take stop).drop middle = [] := by
      apply drop_of_length_le
      rw [length_take]
      omega
    rw [nothing, drop_nil]

theorem trim_end_append :
    trimEnd blank (text ++ more) = if trimEnd blank more = [] then trimEnd blank text else text ++ trimEnd blank more := by
  unfold trimEnd List.rdropWhile
  rw [reverse_append, dropWhile_append]
  by_cases nothing : more.reverse.dropWhile blank = []
  · rw [if_pos (isEmpty_iff.mpr nothing), if_pos (by rw [nothing]; rfl)]
  · rw [if_neg (fun empty => nothing (isEmpty_iff.mp empty)), if_neg (fun empty => nothing (reverse_eq_nil_iff.mp empty)),
      reverse_append, reverse_reverse]

theorem trim_end_starts {text : Text} : trimEnd blank text <+: text :=
  rdropWhile_prefix blank text

theorem trim_end_again : trimEnd blank (trimEnd blank text) = trimEnd blank text :=
  rdropWhile_idempotent blank text

theorem trim_split : ∃ front tail, text = front ++ (trim text ++ tail) ∧ front.length = leadLen isWhitespace text := by
  obtain ⟨front, split, length, -⟩ := lead_split isWhitespace text
  obtain ⟨tail, rest⟩ := trim_end_starts
  refine ⟨front, tail, ?_, length⟩
  rw [trim, rest]
  exact split

theorem trim_append (left : trim text ≠ []) : trim (text ++ more) =
      trim text ++ trimEnd isWhitespace ((text ++ more).drop (leadLen isWhitespace text + (trim text).length)) := by
  obtain ⟨front, tail, split, length⟩ := trim_split text
  have started : trimStart isWhitespace text ≠ [] := by
    intro nothing
    rw [trim, nothing] at left
    exact left rfl
  have core : trimStart isWhitespace text = trim text ++ tail := by
    rw [← drop_lead, ← length]
    nth_rewrite 1 [split]
    rw [drop_left]
  have behind : (text ++ more).drop (leadLen isWhitespace text + (trim text).length) = tail ++ more := by
    have whole : text ++ more = front ++ (trim text ++ (tail ++ more)) := by
      nth_rewrite 1 [split]
      rw [append_assoc, append_assoc]
    rw [← length, whole, drop_length_add_append, drop_left]
  rw [behind]
  nth_rewrite 1 [trim]
  rw [trim_start_append started, core, append_assoc, trim_end_append]
  split
  · rename_i nothing
    rw [nothing, append_nil, trim, trim_end_again]
  · rfl

theorem trim_eq_nil : trim text = [] ↔ trimStart isWhitespace text = [] := by
  constructor
  · intro nothing
    cases left : trimStart isWhitespace text with
    | nil => rfl
    | cons symbol rest =>
      have black := trim_start_head text symbol rest left
      rw [trim, left, trimEnd, rdropWhile_eq_nil_iff] at nothing
      rw [nothing symbol mem_cons_self] at black
      cases black
  · intro nothing
    rw [trim, nothing]
    rfl

theorem trim_append_ne (left : trim text ≠ []) : trim (text ++ more) ≠ [] := by
  rw [trim_append text more left]
  intro nothing
  exact left (append_eq_nil_iff.mp nothing).1

end Lib
