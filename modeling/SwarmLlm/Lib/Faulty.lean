import Mathlib.Data.List.Basic

namespace Lib

-- What the medium does with one durable write. A crash may fall just before or
-- just after the write reaches the disk.
inductive WriteFate where
  | lands
  | fails (error : String)
  | crashBefore
  | crashAfter
  deriving DecidableEq, Repr

structure Machine (S : Type) where
  store : S
  fates : List WriteFate

inductive Outcome (R : Type) where
  | done (value : R)
  | crashed
  deriving DecidableEq, Repr

-- A program over a store that is part memory, part disk. Each write consumes one
-- fate; once the list is used up every further write lands.
def Prog (S R : Type) := Machine S → Outcome R × Machine S

namespace Prog

variable {S T R Q I V : Type}

instance : Monad (Prog S) where
  pure value := fun machine => (.done value, machine)
  bind first next := fun machine =>
    match first machine with
    | (.done value, after) => next value after
    | (.crashed, after) => (.crashed, after)

def get : Prog S S := fun machine => (.done machine.store, machine)

def modify (change : S → S) : Prog S Unit := fun machine => (.done (), ⟨change machine.store, machine.fates⟩)

def write (change : S → S) : Prog S (Except String Unit) := fun machine =>
  match machine.fates.headD .lands with
  | .lands => (.done (.ok ()), ⟨change machine.store, machine.fates.tail⟩)
  | .fails error => (.done (.error error), ⟨machine.store, machine.fates.tail⟩)
  | .crashBefore => (.crashed, ⟨machine.store, machine.fates.tail⟩)
  | .crashAfter => (.crashed, ⟨change machine.store, machine.fates.tail⟩)

def zoom (view : S → T) (update : S → T → S) (prog : Prog T R) : Prog S R := fun machine =>
  let result := prog ⟨view machine.store, machine.fates⟩
  (result.1, ⟨update machine.store result.2.store, result.2.fates⟩)

def countEach (items : List I) (body : I → Prog S Bool) : Prog S Nat :=
  match items with
  | [] => pure 0
  | item :: rest => do
    let counted ← body item
    let others ← countEach rest body
    pure (if counted then others + 1 else others)

def forEach (items : List I) (body : I → Prog S Unit) : Prog S Unit :=
  match items with
  | [] => pure ()
  | item :: rest => do
    body item
    forEach rest body

variable (prog : Prog S R) {next : Q → Prog S R} (first : Prog S Q) (change : S → S)
  (post : Except String Unit → Machine S → Prop) (inv crash : S → Prop) {after machine : Machine S}

theorem bind_assoc (second : Q → Prog S R) (third : R → Prog S V) :
    (first >>= second) >>= third = first >>= fun value => second value >>= third := by
  funext machine
  change (match (match first machine with
    | (.done value, after) => second value after
    | (.crashed, after) => (.crashed, after)) with
    | (.done value, after) => third value after
    | (.crashed, after) => (.crashed, after)) = (match first machine with
    | (.done value, after) => (match second value after with
      | (.done value, after) => third value after
      | (.crashed, after) => (.crashed, after))
    | (.crashed, after) => (.crashed, after))
  cases first machine with
  | mk outcome after => cases outcome <;> rfl

theorem bind_at {first other : Prog S Q} (same : first machine = other machine) :
    (first >>= next) machine = (other >>= next) machine := by
  change (match first machine with
    | (.done value, after) => next value after
    | (.crashed, after) => (.crashed, after)) = _
  rw [same]
  rfl

theorem bind_done {first : Prog S Q} {value : Q} (ran : first machine = (.done value, after)) :
    (first >>= next) machine = next value after := by
  change (match first machine with
    | (.done value, after) => next value after
    | (.crashed, after) => (.crashed, after)) = next value after
  rw [ran]

theorem bind_pure {prog : Prog S R} : (prog >>= fun value => pure value) = prog := by
  funext machine
  change (match prog machine with
    | (.done value, after) => (Outcome.done value, after)
    | (.crashed, after) => (Outcome.crashed, after)) = prog machine
  cases prog machine with
  | mk outcome after => cases outcome <;> rfl

theorem write_store {change : S → S} {outcome : Outcome (Except String Unit)}
    (ran : write change machine = (outcome, after)) : after.store = machine.store ∨ after.store = change machine.store := by
  unfold write at ran
  cases fate : machine.fates.headD .lands <;> simp only [fate] at ran <;> cases ran
  · exact Or.inr rfl
  · exact Or.inl rfl
  · exact Or.inl rfl
  · exact Or.inr rfl

-- The program ends in a machine that meets `post`, or it is cut off in a store
-- that meets `crash`.
def wp (prog : Prog S R) (post : R → Machine S → Prop) (crash : S → Prop) (machine : Machine S) : Prop :=
  match prog machine with
  | (.done value, after) => post value after
  | (.crashed, after) => crash after.store

@[simp] theorem wp_pure (value : R) (post : R → Machine S → Prop) (crash : S → Prop) (machine : Machine S) :
    wp (pure value : Prog S R) post crash machine ↔ post value machine := Iff.rfl

@[simp] theorem wp_bind (next : Q → Prog S R) (post : R → Machine S → Prop) (crash : S → Prop) (machine : Machine S) :
    wp (first >>= next) post crash machine ↔ wp first (fun value after => wp (next value) post crash after) crash machine := by
  change (match (match first machine with
    | (.done value, after) => next value after
    | (.crashed, after) => (.crashed, after)) with
    | (.done value, after) => post value after
    | (.crashed, after) => crash after.store) ↔ _
  unfold wp
  cases first machine with
  | mk outcome after => cases outcome <;> rfl

@[simp] theorem wp_get (post : S → Machine S → Prop) (crash : S → Prop) (machine : Machine S) :
    wp get post crash machine ↔ post machine.store machine := Iff.rfl

@[simp] theorem wp_modify (post : Unit → Machine S → Prop) (crash : S → Prop) (machine : Machine S) :
    wp (modify change) post crash machine ↔ post () ⟨change machine.store, machine.fates⟩ := Iff.rfl

@[simp] theorem wp_zoom (view : S → T) (update : S → T → S) (prog : Prog T R) (post : R → Machine S → Prop)
    (crash : S → Prop) (machine : Machine S) :
    wp (zoom view update prog) post crash machine ↔
      wp prog (fun value after => post value ⟨update machine.store after.store, after.fates⟩)
        (fun store => crash (update machine.store store)) ⟨view machine.store, machine.fates⟩ := by
  unfold wp zoom
  cases prog ⟨view machine.store, machine.fates⟩ with
  | mk outcome after => cases outcome <;> rfl

@[simp] theorem wp_write_lands (store : S) : wp (write change) post crash ⟨store, []⟩ ↔ post (.ok ()) ⟨change store, []⟩ := Iff.rfl

theorem wp_write (machine : Machine S) (landed : post (.ok ()) ⟨change machine.store, machine.fates.tail⟩)
    (failed : ∀ error, machine.fates.headD .lands = .fails error → post (.error error) ⟨machine.store, machine.fates.tail⟩)
    (cutBefore : crash machine.store) (cutAfter : crash (change machine.store)) : wp (write change) post crash machine := by
  unfold wp write
  cases fate : machine.fates.headD .lands with
  | lands => exact landed
  | fails error => exact failed error fate
  | crashBefore => exact cutBefore
  | crashAfter => exact cutAfter

variable {prog}

theorem wp_mono (post post' : R → Machine S → Prop) (crash crash' : S → Prop) (machine : Machine S)
    (holds : wp prog post crash machine) (weaken : ∀ value after, post value after → post' value after)
    (weakenCrash : ∀ store, crash store → crash' store) : wp prog post' crash' machine := by
  unfold wp at holds ⊢
  cases result : prog machine with
  | mk outcome after =>
    rw [result] at holds
    cases outcome with
    | done value => exact weaken value after holds
    | crashed => exact weakenCrash after.store holds

theorem wp_always (machine : Machine S) (holds : wp prog (fun _ after => inv after.store) inv machine) :
    inv (prog machine).2.store := by
  rw [wp] at holds
  cases result : prog machine with
  | mk outcome after =>
    rw [result] at holds
    cases outcome with
    | done | crashed => exact holds

theorem wp_count_each (items : List I) (body : I → Prog S Bool) {inv : S → Prop} (crash : S → Prop)
    (keeps : ∀ item machine, inv machine.store → wp (body item) (fun _ after => inv after.store) crash machine)
    (machine : Machine S) (start : inv machine.store) :
    wp (countEach items body) (fun _ after => inv after.store) crash machine := by
  induction items generalizing machine with
  | nil => exact start
  | cons item rest ih =>
    simp only [countEach, wp_bind, wp_pure]
    exact wp_mono _ _ _ _ machine (keeps item machine start) (fun _ after inside => ih after inside) (fun _ cut => cut)

end Prog

end Lib
