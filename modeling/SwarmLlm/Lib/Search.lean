import Mathlib.Data.List.Infix

namespace Lib

open List

variable {A : Type} (pattern text : List A)

def FoundAt (place : Nat) : Prop := place ≤ text.length ∧ pattern <+: text.drop place

theorem found_append {pattern : List A} (more : List A) (place : Nat) (found : FoundAt pattern text place) :
    FoundAt pattern (text ++ more) place := by
  obtain ⟨within, opens⟩ := found
  refine ⟨by simp only [length_append]; omega, ?_⟩
  rw [drop_append_of_le_length within]
  exact opens.trans (prefix_append _ _)

variable {place : Nat}

theorem found_shift {pattern front text : List A} :
    FoundAt pattern (front ++ text) (front.length + place) ↔ FoundAt pattern text place := by
  unfold FoundAt
  rw [drop_append, length_append, drop_of_length_le (Nat.le_add_right _ _), Nat.add_sub_cancel_left, nil_append]
  constructor
  · intro found
    exact ⟨by omega, found.2⟩
  · intro found
    exact ⟨by omega, found.2⟩

variable {more : List A}

theorem found_or_cut {pattern text : List A} (found : FoundAt pattern (text ++ more) place)
    (within : place ≤ text.length) : FoundAt pattern text place ∨ text.drop place <+: pattern := by
  have opens := found.2
  rw [drop_append_of_le_length within] at opens
  cases prefix_or_prefix_of_prefix opens (prefix_append (text.drop place) more) with
  | inl whole => exact .inl ⟨within, whole⟩
  | inr cut => exact .inr cut

theorem found_of_fits {pattern text : List A} (found : FoundAt pattern (text ++ more) place)
    (fits : place + pattern.length ≤ text.length) : FoundAt pattern text place := by
  have within : place ≤ text.length := by omega
  cases found_or_cut found within with
  | inl whole => exact whole
  | inr cut =>
    have same : text.drop place = pattern := by
      apply cut.eq_of_length_le
      rw [length_drop]
      omega
    exact ⟨within, same ▸ prefix_rfl⟩

theorem found_fits {pattern text : List A} (found : FoundAt pattern text place) : place + pattern.length ≤ text.length := by
  have short := found.2.length_le
  have within := found.1
  rw [length_drop] at short
  omega

section Search

variable [DecidableEq A]

def search (pattern : List A) : List A → Option Nat
  | [] => if pattern = [] then some 0 else none
  | head :: tail => if pattern <+: head :: tail then some 0 else (search pattern tail).map Nat.succ

variable (pattern text : List A) (place : Nat)

theorem search_some {text : List A} (hit : search pattern text = some place) :
    FoundAt pattern text place ∧ ∀ before < place, ¬FoundAt pattern text before := by
  induction text generalizing place with
  | nil =>
    rw [search] at hit
    split at hit
    · rename_i empty
      cases hit
      exact ⟨⟨Nat.le_refl 0, empty ▸ nil_prefix⟩, fun _ below => absurd below (Nat.not_lt_zero _)⟩
    · cases hit
  | cons head tail ih =>
    rw [search] at hit
    split at hit
    · rename_i opens
      cases hit
      exact ⟨⟨Nat.zero_le _, opens⟩, fun _ below => absurd below (Nat.not_lt_zero _)⟩
    rename_i closed
    obtain ⟨later, found, same⟩ := Option.map_eq_some_iff.mp hit
    cases same
    obtain ⟨here, first⟩ := ih later found
    refine ⟨⟨Nat.succ_le_succ here.1, here.2⟩, ?_⟩
    intro before below earlier
    cases before with
    | zero => exact closed earlier.2
    | succ before => exact first before (by omega) ⟨Nat.le_of_succ_le_succ earlier.1, earlier.2⟩

theorem search_none {text : List A} (missing : search pattern text = none) (place : Nat) : ¬FoundAt pattern text place := by
  induction text generalizing place with
  | nil =>
    rw [search] at missing
    split at missing
    · cases missing
    · rename_i long
      intro found
      have opens := found.2
      rw [drop_nil] at opens
      exact long (prefix_nil.mp opens)
  | cons head tail ih =>
    rw [search] at missing
    split at missing
    · cases missing
    rename_i closed
    intro found
    cases place with
    | zero => exact closed found.2
    | succ place =>
      exact ih (Option.map_eq_none_iff.mp missing) place ⟨Nat.le_of_succ_le_succ found.1, found.2⟩

theorem search_eq_some (found : FoundAt pattern text place) (first : ∀ before < place, ¬FoundAt pattern text before) :
    search pattern text = some place := by
  cases result : search pattern text with
  | none => exact absurd found (search_none pattern result place)
  | some other =>
    obtain ⟨there, least⟩ := search_some pattern other result
    have notBelow : ¬other < place := fun below => first other below there
    have notAbove : ¬place < other := fun above => least place above found
    have same : other = place := by omega
    rw [same]

theorem search_past {lead : A} {rest front back : List A} (clear : lead ∉ front) :
    search (lead :: rest) (front ++ (lead :: rest ++ back)) = some front.length := by
  apply search_eq_some
  · rw [← Nat.add_zero front.length, found_shift]
    exact ⟨Nat.zero_le _, back, rfl⟩
  intro before below there
  obtain ⟨tail, opens⟩ := there.2
  rw [drop_append_of_le_length (Nat.le_of_lt below), drop_eq_getElem_cons below] at opens
  exact clear (head_eq_of_cons_eq opens ▸ getElem_mem below)

theorem search_back_some {behind : Nat} (found : search pattern text.reverse = some behind) :
    ∃ front back, text = front ++ (pattern.reverse ++ back) ∧ back.length = behind := by
  obtain ⟨⟨within, tail, opens⟩, -⟩ := search_some pattern behind found
  refine ⟨tail.reverse, (text.reverse.take behind).reverse, ?_, ?_⟩
  · rw [← reverse_inj, reverse_append, reverse_append, append_assoc, reverse_reverse, reverse_reverse, reverse_reverse, opens,
      take_append_drop]
  · rw [length_reverse, length_take_of_le within]

theorem search_eq_none (missing : ∀ place, ¬FoundAt pattern text place) : search pattern text = none := by
  cases result : search pattern text with
  | none => rfl
  | some place => exact absurd (search_some pattern place result).1 (missing place)

theorem search_append {pattern : List A} (more : List A) (place : Nat) (found : search pattern text = some place) :
    search pattern (text ++ more) = some place := by
  obtain ⟨here, first⟩ := search_some pattern place found
  apply search_eq_some pattern (text ++ more) place (found_append text more place here)
  intro before below earlier
  have fits := found_fits here
  exact first before below (found_of_fits earlier (by omega))

end Search

section FirstOf

def earliest {B : Type} : List (Nat × B) → Option (Nat × B)
  | [] => none
  | item :: rest =>
    match earliest rest with
    | none => some item
    | some other => if other.1 < item.1 then some other else some item

variable (lead : A) {B : Type} (items : List (Nat × B)) (patterns : List (List A)) (text pattern : List A)

theorem earliest_some (item : Nat × B) (least : earliest items = some item) : item ∈ items ∧ ∀ other ∈ items, item.1 ≤ other.1 := by
  induction items generalizing item with
  | nil => cases least
  | cons head rest ih =>
    rw [earliest] at least
    cases later : earliest rest with
    | none =>
      rw [later] at least
      cases least
      cases rest with
      | nil => simp
      | cons next tail =>
        rw [earliest] at later
        split at later <;> [cases later; (split at later <;> cases later)]
    | some other =>
      obtain ⟨listed, below⟩ := ih other later
      rw [later] at least
      dsimp only at least
      split at least
      · rename_i smaller
        cases least
        refine ⟨mem_cons_of_mem _ listed, forall_mem_cons.mpr ⟨le_of_lt smaller, below⟩⟩
      rename_i bigger
      cases least
      refine ⟨mem_cons_self, forall_mem_cons.mpr ⟨le_refl _, ?_⟩⟩
      intro next present
      have least := below next present
      omega

theorem earliest_none (none_least : earliest items = none) : items = [] := by
  cases items with
  | nil => rfl
  | cons head rest =>
    rw [earliest] at none_least
    split at none_least
    · cases none_least
    · split at none_least <;> cases none_least

variable [DecidableEq A]

def firstOf (patterns : List (List A)) (text : List A) : Option (Nat × List A) :=
  earliest (patterns.filterMap fun pattern => (search pattern text).map fun place => (place, pattern))

-- Patterns told apart by their first symbol: none has it again, none begins another.
structure LedBy (lead : A) (patterns : List (List A)) : Prop where
  opens : ∀ pattern ∈ patterns, pattern.head? = some lead
  once : ∀ pattern ∈ patterns, lead ∉ pattern.tail
  apart : ∀ pattern ∈ patterns, ∀ other ∈ patterns, pattern <+: other → pattern = other

theorem first_of_some {patterns : List (List A)} {text : List A} {pattern : List A}
    (first : firstOf patterns text = some (place, pattern)) :
    pattern ∈ patterns ∧ FoundAt pattern text place ∧ ∀ other ∈ patterns, ∀ before < place, ¬FoundAt other text before := by
  obtain ⟨listed, least⟩ := earliest_some _ _ first
  obtain ⟨own, present, hit⟩ := mem_filterMap.mp listed
  obtain ⟨found, hitPlace, same⟩ := Option.map_eq_some_iff.mp hit
  cases same
  refine ⟨present, (search_some _ _ hitPlace).1, ?_⟩
  intro other otherPresent before below earlier
  cases otherHit : search other text with
  | none => exact search_none other otherHit before earlier
  | some otherPlace =>
    have bound := least (otherPlace, other) (mem_filterMap.mpr ⟨other, otherPresent, by rw [otherHit]; rfl⟩)
    exact (search_some other otherPlace otherHit).2 before (lt_of_lt_of_le below bound) earlier

theorem first_of_none (missing : firstOf patterns text = none) (pattern : List A) (present : pattern ∈ patterns)
    (place : Nat) : ¬FoundAt pattern text place := by
  have empty := earliest_none _ missing
  have unfound := filterMap_eq_nil_iff.mp empty pattern present
  exact search_none pattern (Option.map_eq_none_iff.mp unfound) place

theorem first_of_eq_none (missing : ∀ pattern ∈ patterns, ∀ place, ¬FoundAt pattern text place) : firstOf patterns text = none := by
  have empty : (patterns.filterMap fun pattern => (search pattern text).map fun place => (place, pattern)) = [] := by
    rw [filterMap_eq_nil_iff]
    intro pattern present
    rw [search_eq_none pattern text (missing pattern present)]
    rfl
  rw [firstOf, empty]
  rfl

theorem first_of_eq (place : Nat) (marked : LedBy lead patterns) (present : pattern ∈ patterns) (found : FoundAt pattern text place)
    (first : ∀ other ∈ patterns, ∀ before < place, ¬FoundAt other text before) : firstOf patterns text = some (place, pattern) := by
  cases result : firstOf patterns text with
  | none => exact absurd found (first_of_none patterns text result pattern present place)
  | some other =>
    obtain ⟨otherPlace, otherPattern⟩ := other
    obtain ⟨otherPresent, otherFound, least⟩ := first_of_some result
    have notBelow : ¬otherPlace < place := fun below => first otherPattern otherPresent otherPlace below otherFound
    have notAbove : ¬place < otherPlace := fun above => least pattern present place above found
    have samePlace : otherPlace = place := by omega
    subst samePlace
    have samePattern : otherPattern = pattern := by
      cases prefix_or_prefix_of_prefix otherFound.2 found.2 with
      | inl shorter => exact marked.apart otherPattern otherPresent pattern present shorter
      | inr longer => exact (marked.apart pattern present otherPattern otherPresent longer).symm
    rw [samePattern]

-- No marker cut off by the end of the text can reach over one that is whole in it.
theorem first_of_append (more : List A) (place : Nat) (pattern : List A) (marked : LedBy lead patterns)
    (first : firstOf patterns text = some (place, pattern)) : firstOf patterns (text ++ more) = some (place, pattern) := by
  obtain ⟨present, found, least⟩ := first_of_some first
  apply first_of_eq lead patterns (text ++ more) pattern place marked present (found_append text more place found)
  intro other otherPresent before below earlier
  have within := found.1
  cases found_or_cut earlier (by omega) with
  | inl whole => exact least other otherPresent before below whole
  | inr cut =>
    have symbol : text[place]? = some lead := by
      obtain ⟨rest, opened⟩ := head?_eq_some_iff.mp (marked.opens pattern present)
      obtain ⟨behind, split⟩ := found.2
      rw [← head?_drop, ← split, opened]
      rfl
    obtain ⟨behind, split⟩ := cut
    have inside : other[place - before]? = some lead := by
      have short := (List.getElem?_eq_some_iff.mp symbol).1
      have fits : place - before < (text.drop before).length := by rw [List.length_drop]; omega
      rw [← split, List.getElem?_append_left fits, List.getElem?_drop, Nat.add_sub_cancel' (le_of_lt below), symbol]
    apply marked.once other otherPresent
    apply mem_of_getElem? (i := place - before - 1)
    rw [getElem?_tail, Nat.sub_add_cancel (by omega), inside]

end FirstOf

section Overlap

-- The last `count` symbols of the text begin one of the patterns.
def Overlaps (patterns : List (List A)) (text : List A) (count : Nat) : Prop :=
  count ≤ text.length ∧ ∃ pattern ∈ patterns, text.drop (text.length - count) <+: pattern

theorem overlaps_append {patterns : List (List A)} {front text : List A} {count : Nat} (within : count ≤ text.length) :
    Overlaps patterns (front ++ text) count ↔ Overlaps patterns text count := by
  have length : (front ++ text).length - count = front.length + (text.length - count) := by
    rw [length_append]
    omega
  have suffix : (front ++ text).drop ((front ++ text).length - count) = text.drop (text.length - count) := by
    rw [length, drop_append, drop_of_length_le (Nat.le_add_right _ _), Nat.add_sub_cancel_left, nil_append]
  unfold Overlaps
  rw [suffix]
  constructor
  · intro overlap
    exact ⟨within, overlap.2⟩
  · intro overlap
    exact ⟨by rw [length_append]; omega, overlap.2⟩

variable {pattern : List A} (patterns : List (List A)) (text : List A) (limit count : Nat)

theorem overlaps_shorter {count : Nat}
    (overlap : Overlaps patterns (text ++ more) (count + more.length)) : Overlaps patterns text count := by
  obtain ⟨within, pattern, present, opens⟩ := overlap
  rw [length_append] at within
  have start : (text ++ more).length - (count + more.length) = text.length - count := by
    rw [length_append]
    omega
  rw [start, drop_append_of_le_length (Nat.sub_le _ _)] at opens
  exact ⟨by omega, pattern, present, (prefix_append _ _).trans opens⟩

def longest (patterns : List (List A)) : Nat := patterns.foldr (fun pattern most => max pattern.length most) 0

theorem length_le_longest {patterns : List (List A)} (present : pattern ∈ patterns) : pattern.length ≤ longest patterns := by
  induction patterns with
  | nil => cases present
  | cons head rest ih =>
    rw [longest, foldr_cons]
    cases present with
    | head => exact le_max_left _ _
    | tail _ later => exact le_trans (ih later) (le_max_right _ _)

variable [DecidableEq A]

instance (patterns : List (List A)) (text : List A) (count : Nat) : Decidable (Overlaps patterns text count) :=
  inferInstanceAs (Decidable (_ ∧ _))

def longestOverlap (patterns : List (List A)) (text : List A) : Nat → Nat
  | 0 => 0
  | limit + 1 => if Overlaps patterns text (limit + 1) then limit + 1 else longestOverlap patterns text limit

def overlapLen (patterns : List (List A)) (text : List A) : Nat := longestOverlap patterns text (longest patterns - 1)

theorem longest_overlap_le : longestOverlap patterns text limit ≤ text.length := by
  induction limit with
  | zero => exact Nat.zero_le _
  | succ limit ih =>
    rw [longestOverlap]
    split
    · rename_i overlap
      exact overlap.1
    · exact ih

theorem longest_overlap_overlaps {patterns : List (List A)} :
    longestOverlap patterns text limit = 0 ∨ longestOverlap patterns text limit ≤ limit ∧
      Overlaps patterns text (longestOverlap patterns text limit) := by
  induction limit with
  | zero => exact .inl rfl
  | succ limit ih =>
    rw [longestOverlap]
    split
    · rename_i overlap
      exact .inr ⟨by omega, overlap⟩
    · cases ih with
      | inl none_found => exact .inl none_found
      | inr found => exact .inr ⟨by omega, found.2⟩

theorem longest_overlap_most (bounded : count ≤ limit) (overlap : Overlaps patterns text count) :
    count ≤ longestOverlap patterns text limit := by
  induction limit with
  | zero => omega
  | succ limit ih =>
    rw [longestOverlap]
    split
    · exact bounded
    · rename_i shorter
      have differs : count ≠ limit + 1 := fun same => shorter (same ▸ overlap)
      exact ih (by omega)

-- Where a pattern that is not whole in the text yet begins, its start is held back.
theorem held_before_found {patterns : List (List A)} {text : List A}
    (missing : ∀ pattern ∈ patterns, ∀ place, ¬FoundAt pattern text place) (present : pattern ∈ patterns)
    (found : FoundAt pattern (text ++ more) place) : text.length - overlapLen patterns text ≤ place := by
  by_cases within : place ≤ text.length
  · cases found_or_cut found within with
    | inl whole => exact absurd whole (missing pattern present place)
    | inr cut =>
      have short : text.length - place < pattern.length := by
        by_contra long
        have same : text.drop place = pattern := by
          apply cut.eq_of_length_le
          rw [length_drop]
          omega
        exact missing pattern present place ⟨within, same ▸ prefix_rfl⟩
      have bounded := length_le_longest present
      have start : text.length - (text.length - place) = place := by omega
      have overlap : Overlaps patterns text (text.length - place) :=
        ⟨Nat.sub_le _ _, pattern, present, by rw [start]; exact cut⟩
      have held := longest_overlap_most patterns text (longest patterns - 1) _ (by omega) overlap
      rw [overlapLen]
      omega
  · omega

def letGo (patterns : List (List A)) (text : List A) : List A := text.take (text.length - overlapLen patterns text)

def heldBack (patterns : List (List A)) (text : List A) : List A := text.drop (text.length - overlapLen patterns text)

theorem ready_held_back : letGo patterns text ++ heldBack patterns text = text := take_append_drop _ _

theorem length_ready : (letGo patterns text).length = text.length - overlapLen patterns text := by
  rw [letGo, length_take]
  omega

theorem length_held_back : (heldBack patterns text).length = overlapLen patterns text := by
  have bound := longest_overlap_le patterns text (longest patterns - 1)
  rw [heldBack, length_drop, overlapLen]
  omega

theorem overlap_held_back (more : List A) :
    overlapLen patterns (text ++ more) = overlapLen patterns (heldBack patterns text ++ more) := by
  have whole : text ++ more = letGo patterns text ++ (heldBack patterns text ++ more) := by
    rw [← append_assoc, ready_held_back]
  apply le_antisymm
  · cases longest_overlap_overlaps (text ++ more) (longest patterns - 1) with
    | inl nothing =>
      rw [overlapLen, nothing]
      exact Nat.zero_le _
    | inr found =>
      obtain ⟨bounded, overlap⟩ := found
      rw [← overlapLen] at bounded overlap
      have fits : overlapLen patterns (text ++ more) ≤ (heldBack patterns text ++ more).length := by
        rw [length_append, length_held_back]
        by_cases inMore : overlapLen patterns (text ++ more) ≤ more.length
        · omega
        have split : overlapLen patterns (text ++ more) =
            overlapLen patterns (text ++ more) - more.length + more.length := by omega
        rw [split] at overlap
        have shorter := overlaps_shorter patterns text overlap
        have most := longest_overlap_most patterns text (longest patterns - 1) _ (by omega) shorter
        rw [← overlapLen] at most
        omega
      rw [whole, overlaps_append (whole ▸ fits)] at overlap
      rw [whole] at bounded ⊢
      exact longest_overlap_most _ _ _ _ bounded overlap
  cases longest_overlap_overlaps (heldBack patterns text ++ more) (longest patterns - 1) with
  | inl nothing =>
    rw [overlapLen, nothing]
    exact Nat.zero_le _
  | inr found =>
    obtain ⟨bounded, overlap⟩ := found
    rw [whole]
    exact longest_overlap_most _ _ _ _ bounded ((overlaps_append (longest_overlap_le _ _ _)).mpr overlap)

theorem held_back_append :
    letGo patterns (text ++ more) = letGo patterns text ++ letGo patterns (heldBack patterns text ++ more) ∧
      heldBack patterns (text ++ more) = heldBack patterns (heldBack patterns text ++ more) := by
  have whole : text ++ more = letGo patterns text ++ (heldBack patterns text ++ more) := by
    rw [← append_assoc, ready_held_back]
  have length : (text ++ more).length - overlapLen patterns (text ++ more) = (letGo patterns text).length +
      ((heldBack patterns text ++ more).length - overlapLen patterns (heldBack patterns text ++ more)) := by
    have bound := longest_overlap_le patterns (heldBack patterns text ++ more) (longest patterns - 1)
    have total : (text ++ more).length = (letGo patterns text).length + (heldBack patterns text ++ more).length := by
      rw [← length_append, ← whole]
    rw [overlap_held_back, total, overlapLen]
    omega
  constructor
  · rw [letGo, length, whole, take_length_add_append]
    rfl
  · rw [heldBack, length, whole, drop_length_add_append]
    rfl

theorem overlap_append_le (more : List A) : overlapLen patterns (text ++ more) ≤ overlapLen patterns text + more.length := by
  have bound := longest_overlap_le patterns (heldBack patterns text ++ more) (longest patterns - 1)
  rw [length_append, length_held_back] at bound
  rw [overlap_held_back]
  exact bound

theorem first_held_back (lead : A) (patterns : List (List A)) (text more : List A) (marked : LedBy lead patterns)
    (missing : firstOf patterns text = none) :
    firstOf patterns (text ++ more) = (firstOf patterns (heldBack patterns text ++ more)).map
      fun found => ((letGo patterns text).length + found.1, found.2) := by
  have whole : text ++ more = letGo patterns text ++ (heldBack patterns text ++ more) := by
    rw [← append_assoc, ready_held_back]
  have behind : ∀ pattern ∈ patterns, ∀ place, FoundAt pattern (text ++ more) place →
      ∃ later, place = (letGo patterns text).length + later ∧ FoundAt pattern (heldBack patterns text ++ more) later := by
    intro pattern present place found
    have bound := held_before_found (first_of_none patterns text missing) present found
    rw [← length_ready] at bound
    obtain ⟨later, same⟩ := Nat.exists_eq_add_of_le bound
    rw [whole, same, found_shift] at found
    exact ⟨later, same, found⟩
  cases first : firstOf patterns (heldBack patterns text ++ more) with
  | none =>
    apply first_of_eq_none
    intro pattern present place found
    obtain ⟨later, _, there⟩ := behind pattern present place found
    exact first_of_none patterns _ first pattern present later there
  | some result =>
    obtain ⟨place, pattern⟩ := result
    obtain ⟨present, found, least⟩ := first_of_some first
    apply first_of_eq lead patterns _ pattern _ marked present
    · rw [whole]
      exact found_shift.mpr found
    · intro other otherPresent before below earlier
      obtain ⟨later, same, there⟩ := behind other otherPresent before earlier
      exact least other otherPresent later (by omega) there

end Overlap

end Lib
