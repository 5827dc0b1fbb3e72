import Mathlib.Algebra.BigOperators.Group.List.Basic
import Mathlib.Data.List.Forall2
import SwarmLlm.Lib.Faulty
import SwarmLlm.Lib.Run

namespace Lib

open List

-- A thread of a concurrent program: the atomic sections it runs, one after the
-- other, each chosen from the replies of those before it.
inductive Routine {Op : Type} (Reply : Op → Type) (R : Type) where
  | done (value : R)
  | step (op : Op) (next : Reply op → Routine Reply R)

variable {Op S R Q C : Type} {Reply : Op → Type}

namespace Routine

def bind (routine : Routine Reply Q) (rest : Q → Routine Reply R) : Routine Reply R :=
  match routine with
  | .done value => rest value
  | .step op next => .step op fun reply => (next reply).bind rest

instance : Monad (Routine Reply) where
  pure := .done
  bind := bind

def perform (op : Op) : Routine Reply (Reply op) := .step op .done

def alone (handler : (op : Op) → Prog S (Reply op)) : Routine Reply R → Prog S R
  | .done value => pure value
  | .step op next => handler op >>= fun reply => (next reply).alone handler

def head : Routine Reply R → Option Op
  | .done _ => none
  | .step op _ => some op

end Routine

-- The rules a thread keeps, by a state of its own that its sections move.
structure Protocol (Reply : Op → Type) (C : Type) where
  allowed : Op → C → Prop
  replies : (op : Op) → Reply op → Prop
  move : (op : Op) → Reply op → C → C

def Routine.Follows (protocol : Protocol Reply C) (ends : R → C → Prop) : Routine Reply R → C → Prop
  | .done value, own => ends value own
  | .step op next, own =>
    protocol.allowed op own ∧ ∀ reply, protocol.replies op reply → (next reply).Follows protocol ends (protocol.move op reply own)

structure Event (Reply : Op → Type) where
  thread : Nat
  op : Op
  reply : Reply op

structure World {Op : Type} (Reply : Op → Type) (S R : Type) where
  store : S
  threads : List (Routine Reply R)
  trace : List (Event Reply)

open World

structure Turn where
  thread : Nat
  error : Option String

def Turn.fates (turn : Turn) : List WriteFate :=
  match turn.error with
  | none => []
  | some error => [.fails error]

def Turn.lands (thread : Nat) : Turn := ⟨thread, none⟩

namespace World

def nextOp (world : World Reply S R) (thread : Nat) : Option Op := world.threads[thread]?.bind Routine.head

def start (store : S) (threads : List (Routine Reply R)) : World Reply S R := ⟨store, threads, []⟩

def step (handler : (op : Op) → Prog S (Reply op)) (world : World Reply S R) (turn : Turn) : World Reply S R :=
  match world.threads[turn.thread]? with
  | some (.step op next) =>
    match handler op ⟨world.store, turn.fates⟩ with
    | (.done reply, after) =>
      ⟨after.store, world.threads.set turn.thread (next reply), world.trace ++ [⟨turn.thread, op, reply⟩]⟩
    | (.crashed, _) => world
  | _ => world

def Returned (world : World Reply S R) (results : List R) : Prop := world.threads = results.map .done

end World

namespace Routine

section

variable (handler : (op : Op) → Prog S (Reply op))

include handler

@[simp] theorem alone_pure (value : R) :
    (pure value : Routine Reply R).alone handler = pure value := rfl

@[simp] theorem alone_perform (op : Op) :
    (perform op).alone handler = handler op := Prog.bind_pure

@[simp] theorem alone_bind (routine : Routine Reply Q) (rest : Q → Routine Reply R) :
    (routine >>= rest).alone handler = routine.alone handler >>= fun value => (rest value).alone handler := by
  induction routine with
  | done value => rfl
  | step op next ih =>
    change (handler op >>= fun reply => ((next reply) >>= rest).alone handler) =
      (handler op >>= fun reply => (next reply).alone handler) >>= fun value => (rest value).alone handler
    rw [Prog.bind_assoc]
    exact congrArg (handler op >>= ·) (funext ih)

end

theorem follows_weaken {protocol : Protocol Reply C} {middle ends : R → C → Prop} {routine : Routine Reply R} {own : C}
    (follows : routine.Follows protocol middle own) (weaken : ∀ value own, middle value own → ends value own) :
    routine.Follows protocol ends own := by
  induction routine generalizing own with
  | done value => exact weaken value own follows
  | step op next ih => exact ⟨follows.1, fun reply possible => ih reply (follows.2 reply possible)⟩

theorem follows_bind (protocol : Protocol Reply C) (middle : Q → C → Prop) {ends : R → C → Prop} (routine : Routine Reply Q)
    (rest : Q → Routine Reply R) (own : C) (first : routine.Follows protocol middle own)
    (second : ∀ value own, middle value own → (rest value).Follows protocol ends own) :
    (routine >>= rest).Follows protocol ends own := by
  induction routine generalizing own with
  | done value => exact second value own first
  | step op next ih => exact ⟨first.1, fun reply possible => ih reply _ (first.2 reply possible)⟩

end Routine

theorem set_held {owns : List C} {thread : Nat} {own : C} (held : owns[thread]? = some own) : owns.set thread own = owns := by
  obtain ⟨inside, rfl⟩ := List.getElem?_eq_some_iff.mp held
  exact List.set_getElem_self inside

theorem total_split {M : Type} [AddCommMonoid M] (amount : C → M) (owns : List C) (thread : Nat) {own : C}
    (held : owns[thread]? = some own) :
    ∃ others, (owns.map amount).sum = others + amount own ∧
      ∀ after, ((owns.set thread after).map amount).sum = others + amount after := by
  induction owns generalizing thread with
  | nil => cases held
  | cons first rest ih =>
    cases thread with
    | zero =>
      cases held
      exact ⟨(rest.map amount).sum, by simp [add_comm], fun after => by simp [add_comm]⟩
    | succ thread =>
      obtain ⟨others, before, later⟩ := ih thread held
      refine ⟨amount first + others, ?_, ?_⟩
      · rw [map_cons, sum_cons, before, add_assoc]
      · intro after
        rw [set_cons_succ, map_cons, sum_cons, later, add_assoc]

section Rules

variable {handler : (op : Op) → Prog S (Reply op)} (protocol : Protocol Reply C) (ends : R → C → Prop) (world : World Reply S R)

theorem step_cases (turn : Turn) :
    world.step handler turn = world ∨ ∃ op next reply after, world.threads[turn.thread]? = some (.step op next) ∧
        handler op ⟨world.store, turn.fates⟩ = (.done reply, after) ∧
        world.step handler turn =
          ⟨after.store, world.threads.set turn.thread (next reply), world.trace ++ [⟨turn.thread, op, reply⟩]⟩ := by
  unfold step
  cases current : world.threads[turn.thread]? with
  | none => exact Or.inl rfl
  | some routine =>
    cases routine with
    | done value => exact Or.inl rfl
    | step op next =>
      simp only
      cases result : handler op ⟨world.store, turn.fates⟩ with
      | mk outcome after =>
        cases outcome with
        | crashed => exact Or.inl rfl
        | done reply => exact Or.inr ⟨op, next, reply, after, rfl, result, rfl⟩

theorem step_store (turn : Turn) (op : Op) (reply : Reply op) (after : Machine S) (head : world.nextOp turn.thread = some op)
    (ran : handler op ⟨world.store, turn.fates⟩ = (.done reply, after)) : (world.step handler turn).store = after.store := by
  obtain ⟨routine, current, first⟩ := Option.bind_eq_some_iff.mp head
  cases routine with
  | done value => cases first
  | step op next =>
    cases first
    simp only [step, current, ran]

def World.Abides (world : World Reply S R) (owns : List C) : Prop :=
  world.threads.length = owns.length ∧ ∀ (thread : Nat) (routine : Routine Reply R) (own : C),
    world.threads[thread]? = some routine → owns[thread]? = some own → routine.Follows protocol ends own

variable {protocol} {world}

theorem step_follows {turn : Turn} {owns : List C} (abides : world.Abides protocol ends owns) : world.step handler turn = world ∨
      ∃ op own reply after, world.nextOp turn.thread = some op ∧ owns[turn.thread]? = some own ∧ protocol.allowed op own ∧
        handler op ⟨world.store, turn.fates⟩ = (.done reply, after) ∧ (world.step handler turn).store = after.store ∧
        (world.step handler turn).trace = world.trace ++ [⟨turn.thread, op, reply⟩] ∧
        (protocol.replies op reply →
          (world.step handler turn).Abides protocol ends (owns.set turn.thread (protocol.move op reply own))) := by
  rcases step_cases world turn with idle | ⟨op, next, reply, after, current, result, stepped⟩
  · exact Or.inl idle
  obtain ⟨sameLength, follows⟩ := abides
  have inside : turn.thread < owns.length := by
    rw [← sameLength]
    exact (List.getElem?_eq_some_iff.mp current).1
  have own : owns[turn.thread]? = some owns[turn.thread] := List.getElem?_eq_getElem inside
  have going := follows turn.thread _ _ current own
  have head : world.nextOp turn.thread = some op := by
    rw [nextOp, current]
    rfl
  rw [stepped]
  refine Or.inr ⟨op, owns[turn.thread], reply, after, head, own, going.1, result, rfl, rfl, fun possible => ?_⟩
  refine ⟨by simpa using sameLength, ?_⟩
  intro thread routine other routineAt ownAt
  by_cases same : thread = turn.thread
  · subst same
    rw [getElem?_set_self (by simpa [sameLength] using inside)] at routineAt
    rw [getElem?_set_self inside] at ownAt
    rw [← Option.some.inj routineAt, ← Option.some.inj ownAt]
    exact going.2 reply possible
  · rw [getElem?_set_ne (Ne.symm same)] at routineAt ownAt
    exact follows thread routine other routineAt ownAt

def World.Keeps (handler : (op : Op) → Prog S (Reply op)) (protocol : Protocol Reply C)
    (Inv : S → List (Event Reply) → List C → Prop) (Ok : World Reply S R → Turn → Prop) : Prop :=
  ∀ world turn owns own op reply after, Inv world.store world.trace owns → Ok world turn →
    world.nextOp turn.thread = some op → owns[turn.thread]? = some own → protocol.allowed op own →
    handler op ⟨world.store, turn.fates⟩ = (.done reply, after) → protocol.replies op reply ∧
      Inv after.store (world.trace ++ [⟨turn.thread, op, reply⟩]) (owns.set turn.thread (protocol.move op reply own))

-- The rule for interleavings: an invariant of the store, the trace and the
-- threads' own states that every allowed section keeps holds after every turn.
theorem step_abides {Inv : S → List (Event Reply) → List C → Prop} {Ok : World Reply S R → Turn → Prop}
    (keeps : World.Keeps handler protocol Inv Ok) {turn : Turn} (ok : Ok world turn)
    (holds : ∃ owns, world.Abides protocol ends owns ∧ Inv world.store world.trace owns) :
    ∃ owns, (world.step handler turn).Abides protocol ends owns ∧
      Inv (world.step handler turn).store (world.step handler turn).trace owns := by
  obtain ⟨owns, abides, inv⟩ := holds
  rcases step_follows ends abides with
    idle | ⟨op, own, reply, after, head, held, allowed, ran, stored, traced, follows⟩
  · rw [idle]
    exact ⟨owns, abides, inv⟩
  · have ⟨possible, kept⟩ := keeps world turn owns own op reply after inv ok head held allowed ran
    rw [stored, traced]
    exact ⟨_, follows possible, kept⟩

theorem run_abides {ends : R → C → Prop} (Inv : S → List (Event Reply) → List C → Prop) (Ok : World Reply S R → Turn → Prop)
    (keeps : World.Keeps handler protocol Inv Ok) (world : World Reply S R) (turns : List Turn) (owns : List C)
    (abides : world.Abides protocol ends owns) (inv : Inv world.store world.trace owns)
    (meets : RunMeets (step handler) Ok world turns) :
    ∃ owns, (run (step handler) world turns).Abides protocol ends owns ∧
      Inv (run (step handler) world turns).store (run (step handler) world turns).trace owns :=
  run_invariant Ok (fun world => ∃ owns, world.Abides protocol ends owns ∧ Inv world.store world.trace owns)
    (fun _ _ holds ok => step_abides ends keeps ok holds) world turns ⟨owns, abides, inv⟩ meets

theorem start_abides {K : Type} (store : S) (calls : List K) {code : K → Routine Reply R} (own : K → C)
    (follows : ∀ call, (code call).Follows protocol ends (own call)) :
    (start store (calls.map code)).Abides protocol ends (calls.map own) := by
  refine ⟨by simp [start], ?_⟩
  intro thread routine state routineAt ownAt
  simp only [start, getElem?_map, Option.map_eq_some_iff] at routineAt ownAt
  obtain ⟨call, callAt, rfl⟩ := routineAt
  obtain ⟨other, otherAt, rfl⟩ := ownAt
  rw [callAt] at otherAt
  rw [← Option.some.inj otherAt]
  exact follows call

theorem returned_ends {owns : List C} (results : List R) (abides : world.Abides protocol ends owns)
    (returned : world.Returned results) : List.Forall₂ ends results owns := by
  have threads : world.threads = results.map .done := returned
  rw [List.forall₂_iff_get]
  have sameLength : results.length = owns.length := by
    rw [← abides.1, threads, length_map]
  refine ⟨sameLength, ?_⟩
  intro thread inside insideOwns
  have routineAt : world.threads[thread]? = some (.done (results.get ⟨thread, inside⟩)) := by
    rw [threads, getElem?_map, getElem?_eq_getElem inside]
    rfl
  exact abides.2 thread _ _ routineAt (getElem?_eq_getElem insideOwns)

end Rules

section Completion

variable {handler : (op : Op) → Prog S (Reply op)}

theorem step_returns (world : World Reply S R) (thread : Nat) (op : Op) (next : Reply op → Routine Reply R) (reply : Reply op)
    (after : Machine S) (current : world.threads[thread]? = some (.step op next))
    (ran : handler op ⟨world.store, []⟩ = (.done reply, after)) :
    (world.step handler (.lands thread)).threads = world.threads.set thread (next reply) := by
  have landing : (Turn.lands thread).fates = [] := rfl
  have chosen : (Turn.lands thread).thread = thread := rfl
  simp only [step, chosen, current, landing, ran]

variable (returns : ∀ op store, ∃ reply after, handler op ⟨store, []⟩ = (.done reply, after))

include returns

theorem thread_finishes {thread : Nat}
    {routine : Routine Reply R} (world : World Reply S R) (current : world.threads[thread]? = some routine) :
    ∃ (schedule : List Nat) (value : R), (run (step handler) world (schedule.map Turn.lands)).threads =
      world.threads.set thread (.done value) := by
  induction routine generalizing world with
  | done value => exact ⟨[], value, (set_held current).symm⟩
  | step op next ih =>
    obtain ⟨reply, after, ran⟩ := returns op world.store
    have moved := step_returns world thread op next reply after current ran
    have inside : thread < world.threads.length := (List.getElem?_eq_some_iff.mp current).1
    obtain ⟨schedule, value, finished⟩ := ih reply (world.step handler (.lands thread)) (by
      rw [moved]
      exact getElem?_set_self inside)
    refine ⟨thread :: schedule, value, ?_⟩
    rw [map_cons, run_cons, finished, moved, set_set]

theorem run_completes {world : World Reply S R}
    : ∃ (schedule : List Nat) (results : List R), (run (step handler) world (schedule.map Turn.lands)).Returned results := by
  have first : ∀ count, count ≤ world.threads.length → ∃ (schedule : List Nat) (results : List R), results.length = count ∧
      (run (step handler) world (schedule.map Turn.lands)).threads = results.map .done ++ world.threads.drop count := by
    intro count
    induction count with
    | zero => exact fun _ => ⟨[], [], rfl, rfl⟩
    | succ count ih =>
      intro within
      obtain ⟨schedule, results, size, threads⟩ := ih (Nat.le_of_succ_le within)
      have rest := drop_eq_getElem_cons within
      rw [rest] at threads
      have before : (results.map (.done : R → Routine Reply R)).length = count := by rw [length_map, size]
      have current : (run (step handler) world (schedule.map Turn.lands)).threads[count]? = some world.threads[count] := by
        rw [threads, getElem?_append_right (Nat.le_of_eq before), before, Nat.sub_self]
        rfl
      obtain ⟨more, value, finished⟩ := thread_finishes returns _ current
      refine ⟨schedule ++ more, results ++ [value], ?_, ?_⟩
      · rw [length_append, length_singleton, size]
      · rw [map_append, run_append, finished, threads, set_append_right count _ (Nat.le_of_eq before), before,
          Nat.sub_self, set_cons_zero, map_append, append_assoc]
        rfl
  obtain ⟨schedule, results, _, threads⟩ := first world.threads.length (Nat.le_refl _)
  rw [drop_length, append_nil] at threads
  exact ⟨schedule, results, threads⟩

end Completion

end Lib
