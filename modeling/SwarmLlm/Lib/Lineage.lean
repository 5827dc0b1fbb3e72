import Mathlib.Data.List.GetD
import Mathlib.Data.List.Induction

namespace Lib

open List

-- A forest laid out in rows: each row names the row it follows, or none.
abbrev Parents := List (Option Nat)

variable (parents : Parents)

def parentOf (row : Nat) : Option Nat := (parents[row]?).join

def RowOrdered : Prop := ∀ row parent, parentOf parents row = some parent → parent < row

def lineage (parents : Parents) : Nat → Nat → List Nat
  | 0, row => [row]
  | fuel + 1, row =>
    match parentOf parents row with
    | none => [row]
    | some parent => lineage parents fuel parent ++ [row]

def path (row : Nat) : List Nat := lineage parents row row

variable {row : Nat} {parent : Nat}

theorem parent_of_get {parents : Parents} : parentOf parents row = some parent ↔ parents[row]? = some (some parent) := by
  rw [parentOf, Option.join_eq_some_iff]

theorem parent_of_inside {parents : Parents} (follows : parentOf parents row = some parent) : row < parents.length :=
  (List.getElem?_eq_some_iff.mp (parent_of_get.mp follows)).1

section Path

variable {parents : Parents} (ordered : RowOrdered parents)

include ordered

theorem lineage_enough {fuel : Nat} (row : Nat) (enough : row ≤ fuel) : lineage parents fuel row = path parents row := by
  induction fuel using Nat.strongRecOn generalizing row with
  | ind fuel ih =>
    cases fuel with
    | zero =>
      rw [Nat.le_zero.mp enough]
      rfl
    | succ fuel =>
      cases row with
      | zero =>
        rw [lineage]
        cases follows : parentOf parents 0 with
        | none => rfl
        | some parent => exact absurd (ordered 0 parent follows) (Nat.not_lt_zero parent)
      | succ row =>
        rw [path, lineage, lineage]
        cases follows : parentOf parents (row + 1) with
        | none => rfl
        | some parent =>
          have before := ordered (row + 1) parent follows
          simp only
          rw [ih fuel (Nat.lt_succ_self fuel) parent (by omega), ih row (by omega) parent (by omega)]

theorem path_root (row : Nat) (root : parentOf parents row = none) : path parents row = [row] := by
  rw [← lineage_enough ordered row (Nat.le_succ row), lineage, root]

theorem path_child (parent : Nat) (follows : parentOf parents row = some parent) :
    path parents row = path parents parent ++ [row] := by
  have before := ordered row parent follows
  rw [← lineage_enough ordered row (Nat.le_succ row), lineage, follows]
  simp only
  rw [lineage_enough ordered parent (Nat.le_of_lt before)]

theorem path_induction (Holds : Nat → List Nat → Prop) (root : ∀ row, parentOf parents row = none → Holds row [row])
    (child : ∀ row parent, parentOf parents row = some parent → Holds parent (path parents parent) →
      Holds row (path parents parent ++ [row])) : Holds row (path parents row) := by
  induction row using Nat.strongRecOn with
  | ind row ih =>
    cases follows : parentOf parents row with
    | none =>
      rw [path_root ordered row follows]
      exact root row follows
    | some parent =>
      rw [path_child ordered parent follows]
      exact child row parent follows (ih parent (ordered row parent follows))

theorem path_le (row : Nat) : ∀ other ∈ path parents row, other ≤ row := by
  refine path_induction ordered (fun row rows => ∀ other ∈ rows, other ≤ row) ?_ ?_
  · intro row _ other member
    exact Nat.le_of_eq (mem_singleton.mp member)
  · intro row parent follows bound other member
    have before := ordered row parent follows
    rcases mem_append.mp member with above | last
    · exact Nat.le_of_lt (Nat.lt_of_le_of_lt (bound other above) before)
    · exact Nat.le_of_eq (mem_singleton.mp last)

theorem path_snoc : path parents row = (path parents row).dropLast ++ [row] := by
  cases follows : parentOf parents row with
  | none =>
    rw [path_root ordered row follows]
    rfl
  | some parent => rw [path_child ordered parent follows, dropLast_concat]

theorem mem_path_self (row : Nat) : row ∈ path parents row := by
  rw [path_snoc ordered]
  exact mem_append_right _ (mem_singleton_self row)

theorem path_through (row : Nat) : ∀ other ∈ path parents row, path parents other <+: path parents row := by
  refine path_induction ordered (fun row rows => ∀ other ∈ rows, path parents other <+: rows) ?_ ?_
  · intro row root other member
    have same : path parents other = [row] := by rw [mem_singleton.mp member, path_root ordered row root]
    exact same ▸ prefix_rfl
  intro row parent follows above other member
  rcases mem_append.mp member with early | last
  · exact (above other early).trans (prefix_append _ _)
  · have same : path parents other = path parents parent ++ [row] := by
      rw [mem_singleton.mp last, path_child ordered parent follows]
    exact same ▸ prefix_rfl

theorem path_append (more : Parents) (grown : RowOrdered (parents ++ more)) (inside : row < parents.length) :
    path (parents ++ more) row = path parents row := by
  have same : ∀ row < parents.length, parentOf (parents ++ more) row = parentOf parents row := fun row inside => by
    rw [parentOf, parentOf, getElem?_append_left inside]
  induction row using Nat.strongRecOn with
  | ind row ih =>
    cases follows : parentOf parents row with
    | none => rw [path_root ordered row follows, path_root grown row ((same row inside).trans follows)]
    | some parent =>
      have before := ordered row parent follows
      rw [path_child ordered parent follows,
        path_child grown parent ((same row inside).trans follows), ih parent before (by omega)]

end Path

def depthAfter (depths : List Nat) : Option Nat → Nat
  | none => 0
  | some parent => depths.getD parent 0 + 1

def depthsOf : List Nat := parents.foldl (fun depths parent => depths ++ [depthAfter depths parent]) []

theorem depths_snoc (parent : Option Nat) :
    depthsOf (parents ++ [parent]) = depthsOf parents ++ [depthAfter (depthsOf parents) parent] := by
  rw [depthsOf, foldl_append]
  rfl

theorem depths_length : (depthsOf parents).length = parents.length := by
  induction parents using List.reverseRecOn with
  | nil => rfl
  | append_singleton parents parent ih => rw [depths_snoc, length_append, length_append, ih]; rfl

theorem ordered_append_left {more : Parents} (grown : RowOrdered (parents ++ more)) : RowOrdered parents := by
  intro row parent follows
  have inside := parent_of_inside follows
  refine grown row parent ?_
  rw [parentOf, getElem?_append_left inside]
  exact follows

theorem depth_of_path (ordered : RowOrdered parents) (row : Nat) (inside : row < parents.length) :
    (depthsOf parents).getD row 0 + 1 = (path parents row).length := by
  induction parents using List.reverseRecOn generalizing row with
  | nil => exact absurd inside (Nat.not_lt_zero row)
  | append_singleton parents last ih =>
    have before := ordered_append_left parents ordered
    rw [depths_snoc]
    by_cases early : row < parents.length
    · rw [path_append before [last] ordered early, getD_append _ _ _ _ (by rwa [depths_length])]
      exact ih before row early
    have final : row = parents.length := by
      rw [length_append, length_singleton] at inside
      omega
    subst final
    have named : parentOf (parents ++ [last]) parents.length = last := by simp [parentOf]
    rw [getD_append_right _ _ _ _ (Nat.le_of_eq (depths_length parents)), depths_length, Nat.sub_self]
    cases last with
    | none => rw [path_root ordered _ named]; rfl
    | some parent =>
      have smaller := ordered _ parent named
      rw [path_child ordered parent named, path_append before _ ordered smaller, length_append, ← ih before parent smaller]
      rfl

def childrenOf (parent : Option Nat) : List Nat :=
  (parents.zipIdx.filter fun entry => entry.1 == parent).map Prod.snd

theorem mem_children (parent : Option Nat) (row : Nat) : row ∈ childrenOf parents parent ↔ parents[row]? = some parent := by
  simp only [childrenOf, mem_map, mem_filter, beq_iff_eq, Prod.exists, mem_zipIdx_iff_getElem?]
  constructor
  · rintro ⟨named, other, ⟨found, same⟩, rfl⟩
    rw [found, same]
  · intro found
    exact ⟨parent, row, ⟨found, rfl⟩, rfl⟩

-- The part of a forest under one row, renumbered in the order of its rows.
def restrict (top : Nat) (kept : List Nat) : Parents :=
  kept.map fun row => if row = top then none else (parentOf parents row).map fun parent => kept.idxOf parent

variable {index : Nat}

section Restrict

variable (parents : Parents) (top : Nat) (kept : List Nat) (sorted : kept.Pairwise (· < ·))
  (closed : ∀ row ∈ kept, row ≠ top → ∃ parent ∈ kept, parentOf parents row = some parent)

variable {kept}

theorem restrict_parent (inside : index < kept.length) : parentOf (restrict parents top kept) index =
      if kept[index] = top then none else (parentOf parents kept[index]).map fun parent => kept.idxOf parent := by
  rw [parentOf, restrict, getElem?_map, getElem?_eq_getElem inside]
  rfl

include sorted in
theorem index_before (inside : index < kept.length) (member : row ∈ kept) (less : row < kept[index]) :
    kept.idxOf row < index := by
  have found := idxOf_lt_length_of_mem member
  by_contra late
  rcases Nat.lt_or_eq_of_le (Nat.le_of_not_lt late) with after | same
  · have above := pairwise_iff_getElem.mp sorted index (kept.idxOf row) inside found after
    rw [getElem_idxOf found] at above
    omega
  · subst same
    rw [getElem_idxOf found] at less
    exact Nat.lt_irrefl row less

variable (ordered : RowOrdered parents)

include sorted closed ordered

variable {parents}

theorem restrict_ordered : RowOrdered (restrict parents top kept) := by
  intro index before follows
  have inside : index < kept.length := by simpa [restrict] using parent_of_inside follows
  rw [restrict_parent parents top inside] at follows
  split at follows
  · cases follows
  · next below =>
      obtain ⟨parent, member, named⟩ := closed kept[index] (getElem_mem inside) below
      rw [named] at follows
      rw [← Option.some.inj follows]
      exact index_before sorted inside member (ordered _ parent named)

theorem path_restrict (inside : index < kept.length) : path parents kept[index] =
      (path parents top).dropLast ++ (path (restrict parents top kept) index).map fun other => kept.getD other 0 := by
  have renumbered := restrict_ordered top sorted closed ordered
  induction index using Nat.strongRecOn with
  | ind index ih =>
    have named := restrict_parent parents top inside
    by_cases first : kept[index] = top
    · rw [if_pos first] at named
      rw [path_root renumbered index named, map_singleton, getD_eq_getElem _ _ inside, first]
      exact path_snoc ordered
    obtain ⟨parent, member, follows⟩ := closed kept[index] (getElem_mem inside) first
    have before := index_before sorted inside member (ordered _ parent follows)
    have found := idxOf_lt_length_of_mem member
    rw [if_neg first, follows] at named
    have above := ih (kept.idxOf parent) before found
    rw [getElem_idxOf found] at above
    rw [path_child ordered parent follows, above, path_child renumbered _ named, map_append,
      append_assoc, map_singleton, getD_eq_getElem _ _ inside]

end Restrict

-- A chain, and a forest whose roots follow its last row.
def graft (lead : Nat) (parents : Parents) : Parents :=
  (List.range lead).map (fun row => if row = 0 then none else some (row - 1)) ++
    parents.map fun parent => parent.elim (if lead = 0 then none else some (lead - 1)) fun row => some (row + lead)

section Graft

variable (lead : Nat) (parents : Parents)

theorem graft_chain (early : row < lead) : parentOf (graft lead parents) row = if row = 0 then none else some (row - 1) := by
  rw [parentOf, graft, getElem?_append_left (by simpa using early), getElem?_map, getElem?_range early]
  rfl

theorem graft_rows (inside : row < parents.length) : parentOf (graft lead parents) (lead + row) =
      (parentOf parents row).elim (if lead = 0 then none else some (lead - 1)) fun parent => some (parent + lead) := by
  have past : lead + row - ((List.range lead).map fun row => if row = 0 then none else some (row - 1)).length = row := by simp
  rw [parentOf, graft, getElem?_append_right (by simp), past, getElem?_map, parentOf, getElem?_eq_getElem inside]
  rfl

theorem graft_length : (graft lead parents).length = lead + parents.length := by simp [graft]

theorem graft_ordered (ordered : RowOrdered parents) : RowOrdered (graft lead parents) := by
  intro row parent follows
  have inside := parent_of_inside follows
  rw [graft_length] at inside
  by_cases early : row < lead
  · rw [graft_chain lead parents early] at follows
    split at follows
    · cases follows
    · have := Option.some.inj follows
      omega
  obtain ⟨offset, rfl⟩ := Nat.exists_eq_add_of_le (Nat.le_of_not_lt early)
  rw [graft_rows lead parents (by omega)] at follows
  cases named : parentOf parents offset with
  | none =>
    rw [named] at follows
    simp only [Option.elim_none] at follows
    split at follows
    · cases follows
    · have := Option.some.inj follows
      omega
  | some above =>
    have before := ordered offset above named
    rw [named] at follows
    have := Option.some.inj follows
    omega

variable (ordered : RowOrdered parents)

include ordered

theorem path_graft_chain (early : row < lead) : path (graft lead parents) row = List.range (row + 1) := by
  have grafted := graft_ordered lead parents ordered
  induction row with
  | zero => exact path_root grafted 0 (graft_chain lead parents early)
  | succ row ih =>
    rw [path_child grafted row (graft_chain lead parents early), ih (Nat.lt_of_succ_lt early), ← range_succ]

theorem path_graft (inside : row < parents.length) :
    path (graft lead parents) (lead + row) = List.range lead ++ (path parents row).map (lead + ·) := by
  have grafted := graft_ordered lead parents ordered
  induction row using Nat.strongRecOn with
  | ind row ih =>
    have named := graft_rows lead parents inside
    cases follows : parentOf parents row with
    | none =>
      rw [path_root ordered row follows]
      rw [follows, Option.elim_none] at named
      by_cases bare : lead = 0
      · subst bare
        rw [path_root grafted _ named]
        rfl
      · rw [if_neg bare] at named
        have last : lead - 1 + 1 = lead := by omega
        rw [path_child grafted _ named, path_graft_chain lead parents ordered (by omega), last]
        rfl
    | some parent =>
      have before := ordered row parent follows
      rw [follows, Option.elim_some, Nat.add_comm parent lead] at named
      rw [path_child grafted _ named, ih parent before (by omega), path_child ordered parent follows, map_append, append_assoc]
      rfl

end Graft

end Lib
