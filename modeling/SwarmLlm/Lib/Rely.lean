import SwarmLlm.Lib.Interleave

namespace Lib

open List

variable {Op S R Q A : Type} {Reply : Op → Type}

section Rely

variable (handler : (op : Op) → Prog S (Reply op)) (rely : S → S → Prop) (own : (op : Op) → Reply op → Prop)

-- The thread ends in its postcondition whatever the others do between its sections,
-- as long as they keep to the rely; its own sections are of the given kind.
def Routine.Withstands (post : R → S → Prop) : Routine Reply R → S → Prop
  | .done value, store => ∀ later, rely store later → post value later
  | .step op next, store => ∀ later, rely store later → ∀ fates reply after,
      handler op ⟨later, fates⟩ = (.done reply, after) → own op reply ∧ (next reply).Withstands post after.store

variable {handler}

theorem withstands_rely (trans : ∀ first second third, rely first second → rely second third → rely first third)
    {post : R → S → Prop} {routine : Routine Reply R} {store later : S} (moved : rely store later)
    (withstands : routine.Withstands handler rely own post store) : routine.Withstands handler rely own post later := by
  cases routine with
  | done | step => exact fun last further => withstands last (trans _ _ _ moved further)

theorem withstands_mono {middle : R → S → Prop} (post : R → S → Prop) (routine : Routine Reply R) (store : S)
    (weaken : ∀ value store, middle value store → post value store)
    (withstands : routine.Withstands handler rely own middle store) : routine.Withstands handler rely own post store := by
  induction routine generalizing store with
  | done value => exact fun later moved => weaken value later (withstands later moved)
  | step op next ih =>
    intro later moved fates reply after ran
    obtain ⟨kind, going⟩ := withstands later moved fates reply after ran
    exact ⟨kind, ih reply after.store going⟩

variable (refl : ∀ store, rely store store)

include refl

theorem withstands_bind (middle : Q → S → Prop) (post : R → S → Prop) (routine : Routine Reply Q)
    (rest : Q → Routine Reply R) (store : S) (first : routine.Withstands handler rely own middle store)
    (second : ∀ value store, middle value store → (rest value).Withstands handler rely own post store) :
    (routine >>= rest).Withstands handler rely own post store := by
  induction routine generalizing store with
  | done value => exact second value store (first store (refl store))
  | step op next ih =>
    intro later moved fates reply after ran
    obtain ⟨kind, going⟩ := first later moved fates reply after ran
    exact ⟨kind, ih reply after.store going⟩

theorem run_withstands
    (trans : ∀ first second third, rely first second → rely second third → rely first third) (post : R → S → Prop)
    (thread : Nat) (world : World Reply S R) {turns : List Turn} (routine : Routine Reply R)
    (current : world.threads[thread]? = some routine) (withstands : routine.Withstands handler rely own post world.store)
    (others : RunMeets (World.step handler)
      (fun world turn => turn.thread ≠ thread → rely world.store (world.step handler turn).store) world turns) :
    ∃ later added, (run (World.step handler) world turns).threads[thread]? = some later ∧
      later.Withstands handler rely own post (run (World.step handler) world turns).store ∧
      (run (World.step handler) world turns).trace = world.trace ++ added ∧
      ∀ event ∈ added, event.thread = thread → own event.op event.reply := by
  induction turns generalizing world routine with
  | nil => exact ⟨routine, [], current, withstands, (append_nil _).symm, nofun⟩
  | cons turn rest ih =>
    obtain ⟨meets, later⟩ := others
    rw [run_cons]
    rcases step_cases world turn with idle | ⟨op, next, reply, after, running, ran, stepped⟩
    · rw [idle] at later ⊢
      exact ih world routine current withstands later
    have goes : ∃ routine, (world.step handler turn).threads[thread]? = some routine ∧
        routine.Withstands handler rely own post (world.step handler turn).store ∧ (turn.thread = thread → own op reply) := by
      by_cases same : turn.thread = thread
      · rw [same, current] at running
        cases running
        obtain ⟨kind, going⟩ := withstands world.store (refl _) turn.fates reply after ran
        refine ⟨next reply, ?_, by rwa [stepped], fun _ => kind⟩
        rw [stepped, same]
        exact List.getElem?_set_self (List.getElem?_eq_some_iff.mp current).1
      · have going := withstands_rely rely own trans (meets same) withstands
        refine ⟨routine, ?_, going, fun here => absurd here same⟩
        rw [stepped, ← current]
        exact getElem?_set_ne same
    obtain ⟨following, moved, going, kind⟩ := goes
    obtain ⟨last, added, lastAt, lastWithstands, grown, each⟩ := ih _ following moved going later
    refine ⟨last, ⟨turn.thread, op, reply⟩ :: added, lastAt, lastWithstands, ?_, ?_⟩
    · rw [grown, stepped, append_assoc]
      rfl
    · intro event listed own_event
      rcases mem_cons.mp listed with rfl | behind
      · exact kind own_event
      · exact each event behind own_event

def gather (read : Nat → Routine Reply (List A)) : List Nat → Routine Reply (List A)
  | [] => .done []
  | part :: rest => (read part).bind fun got => (gather read rest).bind fun more => .done (got ++ more)

theorem withstands_gather (read : Nat → Routine Reply (List A))
    (Known : List Nat → List A → S → Prop)
    (stable : ∀ left got first second, rely first second → Known left got first → Known left got second)
    (each : ∀ part rest got store, Known (part :: rest) got store →
      (read part).Withstands handler rely own (fun more later => Known rest (got ++ more) later) store)
    (parts : List Nat) (got : List A) (store : S) (known : Known parts got store) :
    (gather read parts).Withstands handler rely own (fun all later => Known [] (got ++ all) later) store := by
  induction parts generalizing got store with
  | nil =>
    intro later moved
    rw [append_nil]
    exact stable [] got store later moved known
  | cons part rest ih =>
    apply withstands_bind rely own refl _ _ (read part) _ store (each part rest got store known)
    intro first after more
    apply withstands_bind rely own refl _ _ (gather read rest) _ after (ih (got ++ first) after more)
    intro second last all later moved
    rw [← append_assoc]
    exact stable [] _ last later moved all

end Rely

theorem run_trace (handler : (op : Op) → Prog S (Reply op)) (world : World Reply S R) (turns : List Turn) :
    ∃ added, (run (World.step handler) world turns).trace = world.trace ++ added := by
  induction turns generalizing world with
  | nil => exact ⟨[], (append_nil _).symm⟩
  | cons turn rest ih =>
    obtain ⟨later, grown⟩ := ih (world.step handler turn)
    rw [run_cons, grown]
    rcases step_cases world turn with idle | ⟨op, next, reply, after, _, _, stepped⟩
    · rw [idle]
      exact ⟨later, rfl⟩
    · rw [stepped]
      exact ⟨⟨turn.thread, op, reply⟩ :: later, append_assoc _ _ _⟩

end Lib
