import SwarmLlm.Crypto.Reflection

namespace SwarmLlm.Crypto

open Lib List

variable (prims : Primitives)

inductive KeySlot where
  | live
  | unconfirmed
  | previous
  | retired

def KeySlots.keyAt (slots : KeySlots) (now : Instant) : KeySlot → Option HeldKey
  | .live => slots.session.map fun session => (session.cipherKey, session.replayWindow)
  | .unconfirmed => slots.unconfirmed.map fun key => (key.cipherKey, key.replayWindow)
  | .previous => ((slots.session.bind (·.previous)).filter (inGrace now)).map fun key => (key.cipherKey, key.replayWindow)
  | .retired => (slots.retired.filter (inGrace now)).map fun key => (key.cipherKey, key.replayWindow)

def KeySlots.recordAt (slots : KeySlots) (nonce : Nat) : KeySlot → KeySlots
  | .live => { slots with session := slots.session.map fun session =>
      { session with replayWindow := session.replayWindow.record nonce } }
  | .unconfirmed => { slots with unconfirmed := slots.unconfirmed.map fun key =>
      { key with replayWindow := key.replayWindow.record nonce } }
  | .previous => { slots with session := slots.session.map fun session =>
      { session with previous := session.previous.map fun key =>
        { key with replayWindow := key.replayWindow.record nonce } } }
  | .retired => { slots with retired := slots.retired.map fun key =>
      { key with replayWindow := key.replayWindow.record nonce } }

-- Where a call of `open` stands between its critical sections.
inductive Stage where
  | trying (slot : KeySlot) (hadSession : Bool)
  | admitted (slot : KeySlot) (hadSession : Bool) (key : Key32)
  | opened (slot : KeySlot) (plaintext : Bytes)
  | promoting (plaintext : Bytes)
  | returned (result : Except SwarmError Bytes)

open Stage

def Stage.succeeded : Stage → Bool
  | .returned (.ok _) => true
  | _ => false

structure OpenArgs where
  peer : NodeId
  message : Bytes
  aad : Bytes

variable (args : OpenArgs)

def OpenArgs.decrypt (key : Key32) : Option Bytes :=
  prims.decrypt key (args.message.take 12) args.aad (args.message.drop 12)

def moveOn (hadSession : Bool) : KeySlot → Stage
  | .live => .trying .unconfirmed hadSession
  | .unconfirmed => .trying (if hadSession then .previous else .retired) hadSession
  | .previous => .trying .retired hadSession
  | .retired => .returned (.error (if hadSession then .decryptionFailed else .noSession args.peer))

def seesSession (slots : KeySlots) (hadSession : Bool) : KeySlot → Bool
  | .live => slots.session.isSome
  | _ => hadSession

-- `record` marks the nonce whatever another call did to the window since the check; the guard a
-- call holds on its slot is shared by readers.
def Stage.next (slots : KeySlots) (now : Instant) : Stage → Stage × KeySlots
  | .trying slot hadSession =>
    match slots.keyAt now slot with
    | some (key, window) =>
      if window.check (recvNonce args.message) then (.admitted slot (seesSession slots hadSession slot) key, slots)
      else (moveOn args (seesSession slots hadSession slot) slot, slots)
    | none => (moveOn args (seesSession slots hadSession slot) slot, slots)
  | .admitted slot hadSession key =>
    match args.decrypt prims key with
    | some plaintext => (.opened slot plaintext, slots)
    | none => (moveOn args hadSession slot, slots)
  | .opened .unconfirmed plaintext => (.promoting plaintext, slots.recordAt (recvNonce args.message) .unconfirmed)
  | .opened slot plaintext => (.returned (.ok plaintext), slots.recordAt (recvNonce args.message) slot)
  | .promoting plaintext =>
    (.returned (.ok plaintext), match slots.unconfirmed with
      | some key => KeySlots.install { slots with unconfirmed := none } key.cipherKey key.replayWindow now
      | none => slots)
  | .returned result => (.returned result, slots)

structure Opening where
  slots : KeySlots
  calls : List Stage

open Opening

def Opening.start (manager : SessionManager) (count : Nat) : Opening :=
  ⟨manager.slots args.peer, replicate count
    (if args.message.length < 12 then .returned (.error .decryptionFailed) else .trying .live false)⟩

def Opening.step (opening : Opening) (turn : Nat × Instant) : Opening :=
  match opening.calls[turn.1]? with
  | some stage =>
    let (stage, slots) := stage.next prims args opening.slots turn.2
    ⟨slots, opening.calls.set turn.1 stage⟩
  | none => opening

variable {prims args} {slots : KeySlots} {calls : List Stage} {now : Instant} {thread : Nat} {stage : Stage}

theorem step_opening (current : calls[thread]? = some stage) : step prims args ⟨slots, calls⟩ (thread, now) =
      ⟨(stage.next prims args slots now).2, calls.set thread (stage.next prims args slots now).1⟩ := by
  simp only [step, current]

theorem step_idle (absent : calls[thread]? = none) : step prims args ⟨slots, calls⟩ (thread, now) = ⟨slots, calls⟩ := by
  simp only [step, absent]

theorem opens_with_eq (entry : HeldKey) : opensWith prims args.message args.aad entry =
    (entry.2.check (recvNonce args.message) && (args.decrypt prims entry.1).isSome) := by
  rw [opensWith, tryOpenWith]
  split <;> simp_all [OpenArgs.decrypt]

variable {turns : List (Nat × Instant)}

theorem calls_length : (run (step prims args) ⟨slots, calls⟩ turns).calls.length = calls.length := by
  induction turns generalizing slots calls with
  | nil => rfl
  | cons turn rest ih =>
    rw [run_cons]
    cases current : calls[turn.1]? with
    | none => rw [step_idle current, ih]
    | some stage => rw [step_opening current, ih, length_set]

section Hopeless

variable (prims args slots)

def NoKeyOpens : Prop := ∀ now slot, (slots.keyAt now slot).any (opensWith prims args.message args.aad) = false

def Hopeless : Stage → Prop
  | .trying _ _ => NoKeyOpens prims args slots
  | .admitted _ _ key => NoKeyOpens prims args slots ∧ args.decrypt prims key = none
  | .returned (.error _) => True
  | _ => False

variable {prims args slots}

theorem move_on_hopeless {hadSession : Bool} {slot : KeySlot} (none : NoKeyOpens prims args slots) :
    Hopeless prims args slots (moveOn args hadSession slot) := by
  cases slot with
  | retired => trivial
  | _ => exact none

theorem next_hopeless (hopeless : Hopeless prims args slots stage) :
    (stage.next prims args slots now).2 = slots ∧ Hopeless prims args slots (stage.next prims args slots now).1 := by
  cases stage with
  | trying slot hadSession =>
    have refused := hopeless now slot
    cases held : slots.keyAt now slot with
    | none => simpa only [Stage.next, held, true_and] using move_on_hopeless hopeless
    | some entry =>
      simp only [Stage.next, held]
      split
      · rename_i accepted
        refine ⟨rfl, hopeless, ?_⟩
        simpa [held, opens_with_eq, accepted] using refused
      · exact ⟨rfl, move_on_hopeless hopeless⟩
  | admitted slot hadSession key =>
    simpa only [Stage.next, hopeless.2, true_and] using move_on_hopeless hopeless.1
  | opened | promoting => exact hopeless.elim
  | returned result => exact ⟨rfl, hopeless⟩

theorem run_hopeless (hopeless : ∀ stage ∈ calls, Hopeless prims args slots stage) :
    ∀ stage ∈ (run (step prims args) ⟨slots, calls⟩ turns).calls, Hopeless prims args slots stage := by
  induction turns generalizing calls with
  | nil => exact hopeless
  | cons turn rest ih =>
    rw [run_cons]
    cases current : calls[turn.1]? with
    | none =>
      rw [step_idle current]
      exact ih hopeless
    | some stage =>
      obtain ⟨same, still⟩ := next_hopeless (hopeless stage (mem_of_getElem? current))
      rw [step_opening current, same]
      refine ih fun other listed => ?_
      rcases mem_or_eq_of_mem_set listed with old | rfl
      · exact hopeless other old
      · exact still

end Hopeless

section Reaching

variable (prims args slots thread)

-- The call gets past its check and its decryption before any call records.
def Reaches (stage : Stage) : Prop :=
  ∀ calls : List Stage, calls[thread]? = some stage → ∃ turns slot plaintext,
    run (step prims args) ⟨slots, calls⟩ turns = ⟨slots, calls.set thread (.opened slot plaintext)⟩

variable {prims args slots thread}

theorem reaches_next (now : Instant) {after : Stage} (quiet : stage.next prims args slots now = (after, slots))
    (reaches : Reaches prims args slots thread after) : Reaches prims args slots thread stage := by
  intro calls current
  have inside : thread < calls.length := (List.getElem?_eq_some_iff.mp current).1
  obtain ⟨turns, slot, plaintext, ran⟩ := reaches (calls.set thread after) (getElem?_set_self inside)
  refine ⟨(thread, now) :: turns, slot, plaintext, ?_⟩
  rw [run_cons, step_opening current, quiet, ran, set_set]

theorem reaches_opened (slot : KeySlot) (plaintext : Bytes) : Reaches prims args slots thread (.opened slot plaintext) := by
  intro calls current
  obtain ⟨inside, same⟩ := List.getElem?_eq_some_iff.mp current
  exact ⟨[], slot, plaintext, by rw [← same, set_getElem_self, run_nil]⟩

theorem reaches_trying (now : Instant) {slot : KeySlot} {hadSession : Bool}
    (ahead : (slots.keyAt now slot).any (opensWith prims args.message args.aad) = false →
      Reaches prims args slots thread (moveOn args (seesSession slots hadSession slot) slot)) :
    Reaches prims args slots thread (.trying slot hadSession) := by
  cases held : slots.keyAt now slot with
  | none => exact reaches_next now (by simp only [Stage.next, held]) (ahead (by simp [held]))
  | some entry =>
    rw [held, Option.any_some, opens_with_eq] at ahead
    by_cases accepted : entry.2.check (recvNonce args.message)
    · have admitted : next prims args slots now (.trying slot hadSession) =
          (.admitted slot (seesSession slots hadSession slot) entry.1, slots) := by
        simp only [Stage.next, held, if_pos accepted]
      refine reaches_next now admitted ?_
      cases decrypted : args.decrypt prims entry.1 with
      | none => exact reaches_next now (by simp only [Stage.next, decrypted]) (ahead (by simp [decrypted]))
      | some plaintext => exact reaches_next now (by simp only [Stage.next, decrypted]) (reaches_opened slot plaintext)
    · exact reaches_next now (by simp only [Stage.next, held, if_neg accepted]) (ahead (by simp [accepted]))

theorem call_reaches (thread : Nat) {slot : KeySlot}
    (opens : (slots.keyAt now slot).any (opensWith prims args.message args.aad) = true) :
    Reaches prims args slots thread (.trying .live false) := by
  refine reaches_trying now fun notLive => reaches_trying now fun notUnconfirmed => ?_
  have last : ∀ hadSession, ((slots.keyAt now .previous).any (opensWith prims args.message args.aad) = false) →
      Reaches prims args slots thread (.trying .retired hadSession) := by
    intro hadSession notPrevious
    refine reaches_trying now fun notRetired => ?_
    cases slot <;> simp_all
  have onward : ∀ hadSession, slots.session.isSome = hadSession →
      Reaches prims args slots thread (moveOn args hadSession .unconfirmed) := by
    intro hadSession session
    cases hadSession with
    | true => exact reaches_trying now (last true)
    | false => exact last false (by simp_all [KeySlots.keyAt])
  exact onward _ rfl

variable (prims args) in
theorem both_succeed {first second : KeySlot} {one other : Bytes} {rest : List Stage} :
    ∃ turns, (run (step prims args) ⟨slots, .opened first one :: .opened second other :: rest⟩ turns).calls =
      .returned (.ok one) :: .returned (.ok other) :: rest := by
  refine ⟨[(0, 0), (1, 0), (0, 0), (1, 0)], ?_⟩
  cases first <;> cases second <;> simp [step, Stage.next]

end Reaching

-- A call that has passed the check is not asked again, so any message that opens at all opens
-- for two calls that both check before either records.
theorem opened_once_iff (manager : SessionManager) (count : Nat) :
    (∀ turns, (run (step prims args) (.start args manager count) turns).calls.countP Stage.succeeded ≤ 1) ↔
      count ≤ 1 ∨ args.message.length < 12 ∨ NoKeyOpens prims args (manager.slots args.peer) := by
  constructor
  · intro once
    by_contra fails
    simp only [not_or, NoKeyOpens, not_forall, Bool.not_eq_false] at fails
    obtain ⟨two, long, now, slot, opens⟩ := fails
    obtain ⟨others, rfl⟩ := Nat.exists_eq_add_of_le' (Nat.lt_of_not_le two)
    simp only [start, if_neg long, replicate_succ] at once
    obtain ⟨first, slot, one, ran⟩ := call_reaches 0 opens (_ :: _ :: replicate others _) rfl
    obtain ⟨second, after, other, alsoRan⟩ := call_reaches 1 opens (.opened slot one :: _ :: replicate others _) rfl
    obtain ⟨records, both⟩ := both_succeed prims args
    have counted := once (first ++ second ++ records)
    rw [run_append, run_append, ran, set_cons_zero, alsoRan, set_cons_succ, set_cons_zero, both] at counted
    simp [countP_cons, Stage.succeeded] at counted
  rintro (few | hopeless) turns
  · exact countP_le_length.trans ((calls_length).trans_le (by simpa using few))
  have each : ∀ stage ∈ (start args manager count).calls,
      Hopeless prims args (manager.slots args.peer) stage := by
    intro stage listed
    rw [eq_of_mem_replicate listed]
    split
    · trivial
    · exact hopeless.resolve_left ‹_›
  have none : countP Stage.succeeded (run (step prims args) (.start args manager count) turns).calls = 0 := by
    refine countP_eq_zero.mpr fun stage listed success => ?_
    have still := run_hopeless each stage listed
    cases stage with
    | returned result => cases result <;> simp_all [Hopeless, Stage.succeeded]
    | _ => cases success
  exact none.trans_le (Nat.zero_le 1)

theorem two_calls_open_one_message :
    (run (step samplePrims ⟨NodeId.ofByte 2, sampleMessage (sampleKey 3) 0, []⟩)
      (.start ⟨NodeId.ofByte 2, sampleMessage (sampleKey 3) 0, []⟩
        ((SessionManager.fromSecret samplePrims (sampleKey 1)).establishSession samplePrims (NodeId.ofByte 2) (sampleKey 2) 0).1 2)
      [(0, 1), (1, 1), (0, 1), (1, 1), (0, 1), (1, 1)]).calls.countP Stage.succeeded = 2 := by
  decide +kernel

end SwarmLlm.Crypto
