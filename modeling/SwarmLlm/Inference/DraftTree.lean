import SwarmLlm.Lib.Lineage

namespace SwarmLlm.Inference

open Lib

abbrev Token := UInt32

def maxTreeRows : Nat := 512

-- A row follows a row before it, and its depth is its distance from the context.
structure DraftTree where
  base : Nat
  parents : Parents
  depths : List Nat
  based : 0 < base
  few : parents.length ≤ maxTreeRows
  ordered : RowOrdered parents
  measured : depths = depthsOf parents

namespace DraftTree

def misplaced (row parent : Nat) : String :=
  "row " ++ toString row ++ " of a tree names row " ++ toString parent ++ " as its parent"

def survey : Parents → List Nat → Except String (List Nat)
  | [], depths => .ok depths
  | none :: rest, depths => survey rest (depths ++ [0])
  | some parent :: rest, depths =>
    if parent < depths.length then survey rest (depths ++ [depths.getD parent 0 + 1])
    else .error (misplaced depths.length parent)

theorem ordered_snoc {parents : Parents} {last : Option Nat} (ordered : RowOrdered parents)
    (before : ∀ parent, last = some parent → parent < parents.length) : RowOrdered (parents ++ [last]) := by
  intro row parent follows
  have inside := parent_of_inside follows
  rw [List.length_append, List.length_singleton] at inside
  by_cases early : row < parents.length
  · rw [parentOf, List.getElem?_append_left early] at follows
    exact ordered row parent follows
  · have final : row = parents.length := by omega
    subst final
    exact before parent (by simpa [parentOf] using follows)

theorem survey_sound {rest : Parents} (done : Parents) (depths : List Nat) (ordered : RowOrdered done)
    (surveyed : survey rest (depthsOf done) = .ok depths) : RowOrdered (done ++ rest) ∧ depths = depthsOf (done ++ rest) := by
  induction rest generalizing done with
  | nil =>
    rw [List.append_nil]
    exact ⟨ordered, (Except.ok.inj surveyed).symm⟩
  | cons parent rest ih =>
    have split : done ++ parent :: rest = (done ++ [parent]) ++ rest := by rw [List.append_assoc]; rfl
    rw [split]
    cases parent with
    | none =>
      refine ih (done ++ [none]) (ordered_snoc ordered fun _ named => nomatch named) ?_
      rw [depths_snoc]
      exact surveyed
    | some parent =>
      rw [survey] at surveyed
      by_cases before : parent < (depthsOf done).length
      · rw [if_pos before] at surveyed
        refine ih (done ++ [some parent]) (ordered_snoc ordered fun _ named => ?_) ?_
        · rw [← Option.some.inj named, ← depths_length]
          exact before
        · rw [depths_snoc]
          exact surveyed
      · rw [if_neg before] at surveyed
        cases surveyed

theorem ordered_nil : RowOrdered [] := fun row _ follows => by simp [parentOf] at follows

def new (base : Nat) (parents : Parents) : Except String DraftTree :=
  if based : base = 0 then .error "a tree of guesses must follow at least one position"
  else if few : maxTreeRows < parents.length then
    .error ("a tree of " ++ toString parents.length ++ " rows is past the " ++ toString maxTreeRows ++ " one check may hold")
  else
    match surveyed : survey parents [] with
    | .error message => .error message
    | .ok depths =>
      have sound := survey_sound [] depths ordered_nil surveyed
      .ok ⟨base, parents, depths, Nat.pos_of_ne_zero based, Nat.le_of_not_lt few, sound.1, sound.2⟩

theorem new_shape {base : Nat} {parents : Parents} {tree : DraftTree} (made : new base parents = .ok tree) :
    tree.base = base ∧ tree.parents = parents := by
  rw [new] at made
  split at made
  · cases made
  split at made
  · cases made
  · split at made
    · cases made
    · rw [← Except.ok.inj made]
      exact ⟨rfl, rfl⟩

theorem survey_complete {done rest : Parents} (ordered : RowOrdered (done ++ rest)) :
    survey rest (depthsOf done) = .ok (depthsOf (done ++ rest)) := by
  induction rest generalizing done with
  | nil => rw [List.append_nil]; rfl
  | cons parent rest ih =>
    rw [List.append_cons] at ordered ⊢
    rw [← ih ordered, depths_snoc]
    cases parent with
    | none => rfl
    | some parent =>
      have before := ordered done.length parent (by simp [parentOf])
      rw [survey, if_pos (depths_length done ▸ before)]
      rfl

theorem new_ok {base : Nat} {parents : Parents} (based : 0 < base) (few : parents.length ≤ maxTreeRows)
    (ordered : RowOrdered parents) : new base parents = .ok ⟨base, parents, depthsOf parents, based, few, ordered, rfl⟩ := by
  have surveyed : survey parents [] = .ok (depthsOf parents) := @survey_complete [] parents ordered
  rw [new, dif_neg (Nat.ne_of_gt based), dif_neg (Nat.not_lt.mpr few)]
  split
  · next failed => cases failed.symm.trans surveyed
  · next made =>
      cases made.symm.trans surveyed
      rfl

-- On the wire 0 stands for no parent and k for row k - 1.
def fromWire (base : Nat) (wire : List Nat) : Except String DraftTree :=
  new base (wire.map fun word => if word = 0 then none else some (word - 1))

variable (tree : DraftTree)

def toWire : List Nat := tree.parents.map fun parent => parent.elim 0 (· + 1)

def length (tree : DraftTree) : Nat := tree.parents.length

def parent (row : Nat) : Option Nat := parentOf tree.parents row

def depth (row : Nat) : Nat := tree.depths.getD row 0

def children (row : Option Nat) : List Nat := childrenOf tree.parents row

def isChain : Bool :=
  tree.parents.zipIdx.all fun entry => entry.1 == if entry.2 = 0 then none else some (entry.2 - 1)

def push (parent : Option Nat) : Except String (Nat × DraftTree) :=
  if room : maxTreeRows ≤ tree.parents.length then .error ("a tree may hold " ++ toString maxTreeRows ++ " rows")
  else if before : ∀ row, parent = some row → row < tree.parents.length then
    .ok (tree.parents.length,
      { base := tree.base
        parents := tree.parents ++ [parent]
        depths := tree.depths ++ [depthAfter tree.depths parent]
        based := tree.based
        few := by
          rw [List.length_append, List.length_singleton]
          exact Nat.lt_of_not_le room
        ordered := ordered_snoc tree.ordered before
        measured := by rw [depths_snoc, tree.measured] })
  else .error (misplaced tree.parents.length (parent.getD 0))

theorem push_shape {tree : DraftTree} {parent : Option Nat} {row : Nat} {grown : DraftTree}
    (pushed : tree.push parent = .ok (row, grown)) :
    row = tree.length ∧ grown.base = tree.base ∧ grown.parents = tree.parents ++ [parent] := by
  rw [push] at pushed
  split at pushed
  · cases pushed
  · split at pushed
    · obtain ⟨same, made⟩ := Prod.mk.inj (Except.ok.inj pushed)
      rw [← made]
      exact ⟨same.symm, rfl, rfl⟩
    · cases pushed

def line (row : Nat) : List Nat := path tree.parents row

variable (tree : DraftTree) (row : Nat)

theorem depth_line (inside : row < tree.length) : tree.depth row + 1 = (tree.line row).length := by
  rw [depth, tree.measured]
  exact depth_of_path tree.parents tree.ordered row inside

theorem parent_before (parent : Nat) (follows : tree.parent row = some parent) : parent < row :=
  tree.ordered row parent follows

theorem line_child (parent : Nat) (follows : tree.parent row = some parent) :
    tree.line row = tree.line parent ++ [row] := path_child tree.ordered parent follows

theorem line_root (root : tree.parent row = none) : tree.line row = [row] :=
  path_root tree.ordered row root

theorem mem_children_some (parent row : Nat) : row ∈ tree.children (some parent) ↔ tree.parent row = some parent := by
  rw [children, mem_children, DraftTree.parent, parent_of_get]

theorem children_after (parent row : Nat) (child : row ∈ tree.children (some parent)) : parent < row ∧ row < tree.length := by
  rw [mem_children_some] at child
  exact ⟨parent_before tree row parent child, parent_of_inside child⟩

end DraftTree

end SwarmLlm.Inference
