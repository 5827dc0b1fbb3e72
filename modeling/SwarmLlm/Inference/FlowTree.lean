import SwarmLlm.Inference.DraftTree

namespace SwarmLlm.Inference

open Lib List DraftTree

-- A tree that is walked while it grows: `here` is the row the walk stands on.
structure FlowTree where
  tree : DraftTree
  tokens : List Token
  here : Nat
  filled : tokens.length = tree.length
  inside : here < tree.length

structure Rebased where
  oldBase : Nat
  path : List Token
  kept : List Nat

namespace FlowTree

def new (base : Nat) (root : Token) : Except String FlowTree :=
  match made : DraftTree.new base [none] with
  | .error message => .error message
  | .ok tree =>
    have rows : tree.length = 1 := congrArg List.length (DraftTree.new_shape made).2
    .ok ⟨tree, [root], 0, rows.symm, rows.symm ▸ Nat.one_pos⟩

def length (flow : FlowTree) : Nat := flow.tokens.length

def base (flow : FlowTree) : Nat := flow.tree.base

-- Up the parents while the row is deeper than the walk's. A parent comes before its
-- row, so the row number bounds the steps.
def climbs (flow : FlowTree) : Nat → Nat → Bool
  | 0, row => row == flow.here
  | fuel + 1, row =>
    if flow.tree.depth flow.here < flow.tree.depth row then
      match flow.tree.parent row with
      | none => false
      | some parent => climbs flow fuel parent
    else row == flow.here

variable (flow : FlowTree)

def isLive (row : Nat) : Bool := decide (row < flow.length) && flow.climbs row row

variable (parent : Nat) (token : Token)

def childCarrying : Option Nat :=
  (flow.tree.children (some parent)).find? fun child => flow.tokens.getD child 0 == token

def hasChild : Bool := (flow.childCarrying parent token).isSome

def push (flow : FlowTree) (parent : Nat) (token : Token) : Except String (Nat × FlowTree) :=
  if flow.length ≤ parent then
    .error ("a row after row " ++ toString parent ++ " of a tree of " ++ toString flow.length ++ " rows")
  else if flow.hasChild parent token then
    .error ("row " ++ toString parent ++ " is followed by " ++ toString token ++ " already")
  else
    match pushed : flow.tree.push (some parent) with
    | .error message => .error message
    | .ok (row, grown) =>
      have rows : grown.length = flow.tree.length + 1 := by
        rw [DraftTree.length, (DraftTree.push_shape pushed).2.2, length_append]
        rfl
      .ok (row,
        { tree := grown
          tokens := flow.tokens ++ [token]
          here := flow.here
          filled := by rw [length_append, flow.filled, rows]; rfl
          inside := rows.symm ▸ Nat.lt_succ_of_lt flow.inside })

def advance (row : Nat) : Except String FlowTree :=
  if live : flow.isLive row then
    .ok { flow with
      here := row
      inside := by
        rw [isLive, Bool.and_eq_true, decide_eq_true_eq, length, flow.filled] at live
        exact live.1 }
  else .error ("the walk cannot move from row " ++ toString flow.here ++ " to row " ++ toString row)

def walked : List Token := (flow.tree.line flow.here).dropLast.map fun row => flow.tokens.getD row 0

def keptRows : List Nat := (List.range' flow.here (flow.length - flow.here)).filter flow.isLive

section Live

variable {flow : FlowTree} {row : Nat} {tree : DraftTree}

theorem depth_child (parent : Nat) (follows : tree.parent row = some parent) : tree.depth row = tree.depth parent + 1 := by
  have inside := parent_of_inside follows
  have deep := tree.depth_line row inside
  have above := tree.depth_line parent (Nat.lt_trans (tree.parent_before row parent follows) inside)
  rw [tree.line_child row parent follows, length_append, length_singleton, ← above] at deep
  omega

theorem depth_on_line (other : Nat) (inside : row < tree.length) (member : other ∈ tree.line row) :
    tree.depth other ≤ tree.depth row := by
  have shorter := (path_through tree.ordered row other member).length_le
  have before := path_le tree.ordered row other member
  have deep := tree.depth_line row inside
  have above := tree.depth_line other (by omega)
  rw [line] at deep above
  omega

theorem climbs_iff {fuel : Nat} (row : Nat) (enough : row ≤ fuel) (inside : row < flow.tree.length) :
    flow.climbs fuel row = true ↔ flow.here ∈ flow.tree.line row := by
  have self := mem_path_self flow.tree.ordered
  induction fuel generalizing row with
  | zero =>
    have zero : row = 0 := Nat.le_zero.mp enough
    subst zero
    rw [climbs, beq_iff_eq]
    constructor
    · intro same
      rw [← same]
      exact self 0
    · intro member
      exact (Nat.le_zero.mp (path_le flow.tree.ordered 0 flow.here member)).symm
  | succ fuel ih =>
    rw [climbs]
    by_cases deeper : flow.tree.depth flow.here < flow.tree.depth row
    · rw [if_pos deeper]
      cases follows : flow.tree.parent row with
      | none =>
        have deep := flow.tree.depth_line row inside
        rw [flow.tree.line_root row follows, length_singleton] at deep
        omega
      | some parent =>
        have before := flow.tree.parent_before row parent follows
        have apart : flow.here ≠ row := fun same => by rw [same] at deeper; exact Nat.lt_irrefl _ deeper
        rw [flow.tree.line_child row parent follows, mem_append, mem_singleton]
        simp only [apart, or_false]
        exact ih parent (by omega) (by omega)
    rw [if_neg deeper, beq_iff_eq]
    constructor
    · intro same
      rw [← same]
      exact self row
    intro member
    cases follows : flow.tree.parent row with
    | none =>
      rw [flow.tree.line_root row follows] at member
      exact (mem_singleton.mp member).symm
    | some parent =>
      rw [flow.tree.line_child row parent follows, mem_append, mem_singleton] at member
      rcases member with above | same
      · have before := flow.tree.parent_before row parent follows
        have shallow := depth_on_line flow.here (by omega) above
        have step := depth_child parent follows
        omega
      · exact same.symm

theorem is_live_iff : flow.isLive row = true ↔ row < flow.tree.length ∧ flow.here ∈ flow.tree.line row := by
  rw [isLive, Bool.and_eq_true, decide_eq_true_eq, length, flow.filled]
  constructor
  · rintro ⟨inside, climbed⟩
    exact ⟨inside, (climbs_iff row (Nat.le_refl row) inside).mp climbed⟩
  · rintro ⟨inside, member⟩
    exact ⟨inside, (climbs_iff row (Nat.le_refl row) inside).mpr member⟩

theorem mem_kept : row ∈ flow.keptRows ↔ row < flow.tree.length ∧ flow.here ∈ flow.tree.line row := by
  have low := flow.inside
  rw [keptRows, mem_filter, is_live_iff, mem_range'_1, length, flow.filled]
  constructor
  · exact fun member => member.2
  · intro live
    have before := path_le flow.tree.ordered row flow.here live.2
    exact ⟨⟨before, by omega⟩, live⟩

theorem kept_sorted : flow.keptRows.Pairwise (· < ·) := List.Pairwise.filter _ (pairwise_lt_range' 1 Nat.one_pos)

theorem kept_first : flow.keptRows.head? = some flow.here := by
  have live : flow.isLive flow.here = true :=
    is_live_iff.mpr ⟨flow.inside, mem_path_self flow.tree.ordered flow.here⟩
  have some_rows : flow.length - flow.here = (flow.length - flow.here - 1) + 1 := by
    have inside := flow.inside
    rw [length, flow.filled]
    omega
  rw [keptRows, some_rows, List.range'_succ, filter_cons_of_pos live]
  rfl

theorem kept_closed (row : Nat) (member : row ∈ flow.keptRows) (below : row ≠ flow.here) :
    ∃ parent ∈ flow.keptRows, parentOf flow.tree.parents row = some parent := by
  obtain ⟨inside, through⟩ := mem_kept.mp member
  cases follows : flow.tree.parent row with
  | none =>
    rw [flow.tree.line_root row follows] at through
    exact absurd (mem_singleton.mp through).symm below
  | some parent =>
    have before := flow.tree.parent_before row parent follows
    rw [flow.tree.line_child row parent follows, mem_append, mem_singleton] at through
    rcases through with above | same
    · exact ⟨parent, mem_kept.mpr ⟨by omega, above⟩, follows⟩
    · exact absurd same.symm below

theorem kept_some : 0 < flow.keptRows.length := by
  have first := @kept_first flow
  cases kept : flow.keptRows with
  | nil =>
    rw [kept] at first
    cases first
  | cons row rest => exact Nat.succ_pos _

end Live

-- A row with no parent becomes the root; a row kept is renumbered by its place.
def rebase : Except String (Rebased × FlowTree) :=
  match made : DraftTree.new (flow.base + flow.walked.length) (restrict flow.tree.parents flow.here flow.keptRows) with
  | .error message => .error message
  | .ok tree =>
    have rows : tree.length = flow.keptRows.length := by
      rw [DraftTree.length, (DraftTree.new_shape made).2, restrict, length_map]
    .ok (⟨flow.base, flow.walked, flow.keptRows⟩,
      { tree := tree
        tokens := flow.keptRows.map fun row => flow.tokens.getD row 0
        here := 0
        filled := by rw [length_map, rows]
        inside := rows.symm ▸ kept_some })

-- The forward that reads a rebased tree: the path as a chain, then the tree's rows.
def rebaseForward (rebased : Rebased) : List Token × List Nat :=
  let lead := rebased.path.length
  (rebased.path ++ flow.tokens, List.range lead ++ flow.tree.toWire.map fun word => if word = 0 then lead else word + lead)

def pathTokens (row : Nat) : List Token := (flow.tree.line row).map fun other => flow.tokens.getD other 0

theorem new_spec {base : Nat} {root : Token} {flow : FlowTree} (made : new base root = .ok flow) :
    flow.base = base ∧ flow.tokens = [root] ∧ flow.here = 0 ∧ flow.pathTokens 0 = [root] := by
  rw [new] at made
  split at made
  · cases made
  next tree rows =>
    obtain ⟨based, parents⟩ := new_shape rows
    rw [← Except.ok.inj made]
    refine ⟨based, rfl, rfl, ?_⟩
    rw [pathTokens, line_root tree 0 (by rw [parent, parents]; rfl)]
    rfl

theorem path_tokens_child {row : Nat} (parent : Nat) (follows : flow.tree.parent row = some parent) :
    flow.pathTokens row = flow.pathTokens parent ++ [flow.tokens.getD row 0] := by
  rw [pathTokens, flow.tree.line_child row parent follows, map_append]
  rfl

structure Pushed (flow : FlowTree) (parent : Nat) (token : Token) (row : Nat) (grown : FlowTree) : Prop where
  row : row = flow.length
  base : grown.base = flow.base
  here : grown.here = flow.here
  tokens : grown.tokens = flow.tokens ++ [token]
  parents : grown.tree.parents = flow.tree.parents ++ [some parent]
  inside : parent < flow.length

theorem push_spec (row : Nat) (grown : FlowTree)
    (pushed : flow.push parent token = .ok (row, grown)) : Pushed flow parent token row grown := by
  rw [push] at pushed
  split at pushed
  · cases pushed
  next inside =>
    split at pushed
    · cases pushed
    split at pushed
    · cases pushed
    · next number tree made =>
        obtain ⟨same, whole⟩ := Prod.mk.inj (Except.ok.inj pushed)
        obtain ⟨last, base, parents⟩ := push_shape made
        rw [← whole]
        exact ⟨by rw [← same, last, length, flow.filled], base, rfl, rfl, parents, Nat.lt_of_not_le inside⟩

section Pushed

variable {flow : FlowTree} {parent : Nat} {token : Token} {row : Nat} {grown : FlowTree}
  (pushed : Pushed flow parent token row grown)

include pushed

theorem pushed_length : grown.length = flow.length + 1 := by
  rw [length, pushed.tokens, length_append]
  rfl

theorem pushed_old (other : Nat) (old : other < flow.length) : grown.pathTokens other = flow.pathTokens other := by
  have ordered := grown.tree.ordered
  rw [length, flow.filled] at old
  rw [pushed.parents] at ordered
  rw [pathTokens, pathTokens, line, pushed.parents, path_append flow.tree.ordered [some parent] ordered old]
  apply map_congr_left
  intro above member
  have before := path_le flow.tree.ordered other above member
  rw [pushed.tokens, getD_append _ _ _ _ (by rw [flow.filled]; omega)]

theorem pushed_parent : grown.tree.parent row = some parent := by
  have number := pushed.row
  rw [length, flow.filled] at number
  rw [DraftTree.parent, pushed.parents, number, parentOf, DraftTree.length, getElem?_concat_length]
  rfl

theorem pushed_new : grown.pathTokens row = flow.pathTokens parent ++ [token] := by
  have number := pushed.row
  rw [path_tokens_child grown parent (pushed_parent pushed), pushed_old pushed parent pushed.inside, pushed.tokens, number,
    length, getD_append_right _ _ _ _ (Nat.le_refl _), Nat.sub_self]
  rfl

end Pushed

structure Cut (flow : FlowTree) (rebased : Rebased) (cut : FlowTree) : Prop where
  oldBase : rebased.oldBase = flow.base
  path : rebased.path = flow.walked
  kept : rebased.kept = flow.keptRows
  base : cut.base = flow.base + rebased.path.length
  here : cut.here = 0
  rows : cut.length = rebased.kept.length
  tokens : ∀ index row, rebased.kept[index]? = some row → flow.pathTokens row = rebased.path ++ cut.pathTokens index

theorem rebase_spec {flow : FlowTree} {rebased : Rebased} {cut : FlowTree} (done : flow.rebase = .ok (rebased, cut)) :
    Cut flow rebased cut := by
  rw [rebase] at done
  split at done
  · cases done
  next tree made =>
    obtain ⟨first, second⟩ := Prod.mk.inj (Except.ok.inj done)
    obtain ⟨base, parents⟩ := new_shape made
    rw [← first, ← second]
    refine ⟨rfl, rfl, rfl, base, rfl, List.length_map _, fun index row found => ?_⟩
    obtain ⟨inside, named⟩ := List.getElem?_eq_some_iff.mp found
    have whole := path_restrict flow.here kept_sorted kept_closed flow.tree.ordered inside
    rw [named] at whole
    rw [pathTokens, pathTokens, line, line, whole, parents, map_append, map_map]
    congr 1
    apply map_congr_left
    intro other member
    have ordered := tree.ordered
    rw [parents] at ordered
    have before := path_le ordered index other member
    have within : other < flow.keptRows.length := Nat.lt_of_le_of_lt before inside
    simp only [Function.comp_apply, getD_eq_getElem?_getD, getElem?_map, getElem?_eq_getElem within,
      Option.map_some, Option.getD_some]

end FlowTree

end SwarmLlm.Inference
