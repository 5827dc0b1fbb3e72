import Mathlib.Data.List.Sort
import Mathlib.Logic.Function.Basic

namespace Lib

open List Function

def traceBack (parent : Nat → Option Nat) : Nat → Option Nat → List Nat
  | 0, _ => []
  | _ + 1, none => []
  | fuel + 1, some vertex => vertex :: traceBack parent fuel (parent vertex)

variable {target : Nat}

section Relaxation

variable {L : Type} (extend : Nat → L → Nat → Option L) (better : L → L → Bool)

def relaxEdge (board : Nat → L) (source target : Nat) : Nat → L :=
  match extend source (board source) target with
  | none => board
  | some reached => if better reached (board target) then Function.update board target reached else board

def relaxFrom (targets : List Nat) (board : Nat → L) (source : Nat) : Nat → L :=
  targets.foldl (fun board target => relaxEdge extend better board source target) board

def relaxAll (targets order : List Nat) (board : Nat → L) : Nat → L :=
  order.foldl (relaxFrom extend better targets) board

variable {source : Nat}

theorem relax_edge_cases {board : Nat → L} : (relaxEdge extend better board source target = board ∧
      ∀ reached, extend source (board source) target = some reached → better reached (board target) = false) ∨
      ∃ reached, extend source (board source) target = some reached ∧ better reached (board target) = true ∧
        relaxEdge extend better board source target = Function.update board target reached := by
  unfold relaxEdge
  cases reaches : extend source (board source) target with
  | none => exact .inl ⟨rfl, nofun⟩
  | some reached =>
    dsimp only
    by_cases improves : better reached (board target) = true
    · rw [if_pos improves]
      exact .inr ⟨reached, rfl, improves, rfl⟩
    · rw [if_neg improves]
      refine .inl ⟨rfl, ?_⟩
      intro other same
      cases same
      exact Bool.not_eq_true _ ▸ improves

-- A path and the label its vertices leave at its end.
inductive Path (start : Nat → L) : List Nat → Nat → L → Prop where
  | seed (vertex : Nat) : Path start [vertex] vertex (start vertex)
  | step (before : List Nat) (source : Nat) (label : L) (target : Nat) (reached : L) (path : Path start before source label)
      (reaches : extend source label target = some reached) : Path start (before ++ [target]) target reached

theorem path_last {start : Nat → L} {vertices : List Nat} {vertex : Nat} {label : L}
    (path : Path extend start vertices vertex label) : vertices.getLast? = some vertex := by
  cases path with
  | seed => rfl
  | step before source label _ reached path reaches => exact getLast?_concat

def LeftBy (start : Nat → L) (vertex : Nat) (label : L) : Prop := ∃ vertices, Path extend start vertices vertex label

def FromPaths (start : Nat → L) (Keeps : Nat → L → Prop) (board : Nat → L) : Prop :=
  ∀ vertex, LeftBy extend start vertex (board vertex) ∧ Keeps vertex (board vertex)

section FromPaths

variable (start board : Nat → L) (Keeps : Nat → L → Prop)
  (improved : ∀ vertex old new, better new old = true → LeftBy extend start vertex new → Keeps vertex old → Keeps vertex new)
include improved

-- Every label on the board comes from a path, and what holds of the labels at the
-- start and survives an improvement holds of it.
theorem keeps_edge (comes : FromPaths extend start Keeps board) :
    FromPaths extend start Keeps (relaxEdge extend better board source target) := by
  intro vertex
  rcases relax_edge_cases extend better with ⟨same, -⟩ | ⟨reached, reaches, improves, updated⟩
  · rw [same]
    exact comes vertex
  rw [updated]
  by_cases here : vertex = target
  · rw [here, update_self]
    obtain ⟨before, path⟩ := (comes source).1
    have arrives : LeftBy extend start target reached := ⟨_, Path.step before source _ target reached path reaches⟩
    exact ⟨arrives, improved target _ reached improves arrives (comes target).2⟩
  · rw [update_of_ne here]
    exact comes vertex

theorem keeps_all (targets order : List Nat) (comes : FromPaths extend start Keeps board) :
    FromPaths extend start Keeps (relaxAll extend better targets order board) := by
  have inner : ∀ source board, FromPaths extend start Keeps board →
      FromPaths extend start Keeps (relaxFrom extend better targets board source) := by
    intro source
    induction targets with
    | nil => exact fun _ known => known
    | cons target rest ih =>
      intro board known
      exact ih _ (keeps_edge extend better start board Keeps improved known)
  induction order generalizing board with
  | nil => exact comes
  | cons source rest ih => exact ih _ (inner source board comes)

end FromPaths

-- No edge out of the pairs' first vertices improves on the label of the second.
def Shut (board : Nat → L) (pairs : Nat → Nat → Prop) : Prop :=
  ∀ source target, pairs source target → ∀ reached, extend source (board source) target = some reached →
    better reached (board target) = false

section Layered

variable (rank : Nat → Nat)
  (rising : ∀ source label target reached, extend source label target = some reached → rank source < rank target)

-- Every label is the one the vertex began with, or came along an edge from a vertex
-- that has been gone through and still has the label it had then.
def Rests (start board : Nat → L) (through : List Nat) : Prop :=
  ∀ vertex, board vertex = start vertex ∨ ∃ source ∈ through, extend source (board source) vertex = some (board vertex)

include rising

theorem rests_edge (start board : Nat → L) {through : List Nat}
    (rests : Rests extend start board through) (current : source ∈ through) (lower : ∀ vertex ∈ through, rank vertex ≤ rank source) :
    Rests extend start (relaxEdge extend better board source target) through := by
  rcases relax_edge_cases extend better with ⟨same, -⟩ | ⟨reached, reaches, -, updated⟩
  · rw [same]
    exact rests
  rw [updated]
  have above := rising _ _ _ _ reaches
  have apart : ∀ vertex ∈ through, vertex ≠ target := by
    intro vertex listed same
    have := lower vertex listed
    rw [same] at this
    omega
  intro vertex
  by_cases here : vertex = target
  · right
    refine ⟨source, current, ?_⟩
    rw [here, update_self, update_of_ne (apart source current), reaches]
  rw [update_of_ne here]
  rcases rests vertex with first | ⟨origin, listed, came⟩
  · exact .inl first
  · right
    refine ⟨origin, listed, ?_⟩
    rw [update_of_ne (apart origin listed)]
    exact came

variable {start : Nat → L}

theorem rests_from (board : Nat → L) (through : List Nat) {targets : List Nat}
    (rests : Rests extend start board through) (current : source ∈ through) (lower : ∀ vertex ∈ through, rank vertex ≤ rank source) :
    Rests extend start (relaxFrom extend better targets board source) through := by
  induction targets generalizing board with
  | nil => exact rests
  | cons target rest ih =>
    exact ih _ (rests_edge extend better rank rising start board rests current lower)

theorem rests_all (board : Nat → L) (through targets order : List Nat) (rests : Rests extend start board through)
    (sorted : (through ++ order).Pairwise fun first second => rank first ≤ rank second) :
    Rests extend start (relaxAll extend better targets order board) (through ++ order) := by
  induction order generalizing board through with
  | nil =>
    rw [append_nil]
    exact rests
  | cons source rest ih =>
    have regroup : through ++ source :: rest = (through ++ [source]) ++ rest := by rw [append_assoc]; rfl
    rw [regroup] at sorted ⊢
    apply ih _ (through ++ [source]) _ sorted
    have wider : Rests extend start board (through ++ [source]) := by
      intro vertex
      rcases rests vertex with first | ⟨origin, listed, came⟩
      · exact .inl first
      · exact .inr ⟨origin, mem_append_left _ listed, came⟩
    apply rests_from extend better rank rising board _ wider (mem_append_right _ (mem_singleton_self _))
    intro vertex listed
    rcases mem_append.mp listed with early | last
    · exact (pairwise_append.mp (pairwise_append.mp sorted).1).2.2 vertex early source (mem_singleton_self _)
    · rw [mem_singleton.mp last]

variable {extend}

theorem trace_path {parentOf : L → Option Nat} (board : Nat → L) (order : List Nat)
    (rests : Rests extend start board order) (rootless : ∀ vertex, parentOf (start vertex) = none)
    (named : ∀ source label target reached, extend source label target = some reached → parentOf reached = some source)
    (fuel vertex : Nat) (enough : rank vertex < fuel) :
    Path extend start (traceBack (fun vertex => parentOf (board vertex)) fuel (some vertex)).reverse vertex (board vertex) := by
  induction fuel generalizing vertex with
  | zero => omega
  | succ fuel ih =>
    rw [traceBack, reverse_cons]
    rcases rests vertex with first | ⟨source, -, came⟩
    · rw [first, rootless vertex]
      have ended : traceBack (fun vertex => parentOf (board vertex)) fuel none = [] := by cases fuel <;> rfl
      rw [ended]
      exact Path.seed vertex
    · rw [named _ _ _ _ came]
      have lower := rising _ _ _ _ came
      exact Path.step _ source _ vertex _ (ih source (by omega)) came

section Closed

variable (same : ∀ label, better label label = false)
  (lower : ∀ value old new, better new old = true → better value old = false → better value new = false)

include same lower in
theorem shut_edge {board : Nat → L} (pairs : Nat → Nat → Prop) (target : Nat) (shut : Shut extend better board pairs)
    (below : ∀ first second, pairs first second → rank first ≤ rank source) :
    Shut extend better (relaxEdge extend better board source target)
      (fun first second => pairs first second ∨ (first = source ∧ second = target)) := by
  rcases relax_edge_cases extend better with ⟨kept, idle⟩ | ⟨reached, reaches, improves, updated⟩
  · rw [kept]
    rintro first second (before | ⟨rfl, rfl⟩)
    · exact shut first second before
    · exact idle
  rw [updated]
  have above := rising _ _ _ _ reaches
  rintro first second (before | ⟨rfl, rfl⟩) other came
  · have apart : first ≠ target := by
      intro here
      have := below first second before
      rw [here] at this
      omega
    rw [update_of_ne apart] at came
    by_cases here : second = target
    · rw [here] at before came ⊢
      rw [update_self]
      exact lower _ _ _ improves (shut first target before other came)
    · rw [update_of_ne here]
      exact shut first second before other came
  have apart : first ≠ second := by
    intro here
    rw [here] at above
    omega
  rw [update_of_ne apart, reaches] at came
  cases came
  rw [update_self]
  exact same reached

include same lower in
theorem shut_from (board : Nat → L) (pairs : Nat → Nat → Prop) (targets : List Nat)
    (shut : Shut extend better board pairs) (below : ∀ first second, pairs first second → rank first ≤ rank source) :
    Shut extend better (relaxFrom extend better targets board source)
      (fun first second => pairs first second ∨ (first = source ∧ second ∈ targets)) := by
  induction targets generalizing board pairs with
  | nil =>
    rintro first second (before | ⟨-, none⟩)
    · exact shut first second before
    · cases none
  | cons target rest ih =>
    have once := shut_edge better rank rising same lower pairs target shut below
    have more := ih _ _ once (by
      rintro first second (before | ⟨rfl, -⟩)
      · exact below first second before
      · exact Nat.le_refl _)
    rintro first second (before | ⟨here, listed⟩)
    · exact more first second (.inl (.inl before))
    · rcases mem_cons.mp listed with first' | later
      · exact more first second (.inl (.inr ⟨here, first'⟩))
      · exact more first second (.inr ⟨here, later⟩)

include same lower in
theorem shut_all (board : Nat → L) (through targets : List Nat) {order : List Nat}
    (shut : Shut extend better board fun first second => first ∈ through ∧ second ∈ targets)
    (sorted : (through ++ order).Pairwise fun first second => rank first ≤ rank second) :
    Shut extend better (relaxAll extend better targets order board)
      (fun first second => first ∈ through ++ order ∧ second ∈ targets) := by
  induction order generalizing board through with
  | nil =>
    rw [append_nil]
    exact shut
  | cons source rest ih =>
    have regroup : through ++ source :: rest = (through ++ [source]) ++ rest := by rw [append_assoc]; rfl
    rw [regroup] at sorted ⊢
    apply ih _ (through ++ [source]) _ sorted
    have next := shut_from better rank rising same lower board _ targets shut (by
      rintro first second ⟨early, -⟩
      exact (pairwise_append.mp (pairwise_append.mp sorted).1).2.2 first early source (mem_singleton_self _))
    rintro first second ⟨listed, there⟩
    rcases mem_append.mp listed with early | last
    · exact next first second (.inl ⟨early, there⟩)
    · exact next first second (.inr ⟨mem_singleton.mp last, there⟩)

variable (extend)

include same lower in
-- The label a path leaves is matched by the one on the board, where matching is kept
-- along edges and by improvement.
theorem path_matched (start : Nat → L) (order : List Nat) (Matches : Nat → L → L → Prop)
    (sorted : order.Pairwise fun first second => rank first ≤ rank second)
    (known : ∀ source label target reached, extend source label target = some reached → source ∈ order ∧ target ∈ order)
    (itself : ∀ vertex, Matches vertex (start vertex) (start vertex))
    (improved : ∀ vertex old new label, better new old = true → LeftBy extend start vertex new →
      Matches vertex old label → Matches vertex new label)
    (holdsOut : ∀ vertex old new label, better new old = false → LeftBy extend start vertex old → LeftBy extend start vertex new →
      Matches vertex new label → Matches vertex old label)
    (carries : ∀ source label other target reached, LeftBy extend start source label → LeftBy extend start source other →
      Matches source label other → extend source other target = some reached →
      ∃ next, extend source label target = some next ∧ Matches target next reached)
    (vertices : List Nat) (vertex : Nat) (label : L) (path : Path extend start vertices vertex label) :
    Matches vertex (relaxAll extend better order order start vertex) label := by
  have seeded : ∀ vertex, LeftBy extend start vertex (start vertex) := fun vertex => ⟨_, Path.seed vertex⟩
  have onBoard := keeps_all extend better start start (fun vertex label => Matches vertex label (start vertex))
    (fun vertex old new improves arrives => improved vertex old new (start vertex) improves arrives) order order
    (fun vertex => ⟨seeded vertex, itself vertex⟩)
  have shut := shut_all better rank rising same lower start [] order (by rintro first second ⟨none, -⟩; cases none) sorted
  induction path with
  | seed vertex => exact (onBoard vertex).2
  | step before source other target reached path reaches ih =>
    obtain ⟨next, goes, matching⟩ := carries source _ other target reached (onBoard source).1 ⟨_, path⟩ ih reaches
    obtain ⟨first, second⟩ := known _ _ _ _ goes
    obtain ⟨trail, leads⟩ := (onBoard source).1
    have arrives : LeftBy extend start target next := ⟨_, Path.step trail source _ target next leads goes⟩
    exact holdsOut target _ next reached (shut source target ⟨first, second⟩ next goes) (onBoard target).1 arrives matching

end Closed

end Layered

end Relaxation

end Lib
