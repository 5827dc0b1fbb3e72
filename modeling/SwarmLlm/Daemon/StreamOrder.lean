import SwarmLlm.Daemon.ForwardStreams

namespace SwarmLlm.Daemon

open Lib List StreamThread

structure Settled (skipBelow : Nat) (running : Bool) (refused : Finset Nat) (next : Nat) (result : Finset Nat × Nat) : Prop where
  forward : next ≤ result.2
  unrefused : result.2 ∉ result.1
  fewer : result.1 ⊆ refused
  skipped : running = false → skipBelow ≤ result.2
  stays : running = true → next ∉ refused → result.2 = next

theorem settle_next_spec (skipBelow : Nat) (running : Bool) (fuel : Nat) (refused : Finset Nat) (next : Nat)
    (enough : refused.card + (if running = false ∧ next < skipBelow then 1 else 0) < fuel) :
    Settled skipBelow running refused next (settleNext skipBelow running fuel refused next) := by
  induction fuel generalizing refused next with
  | zero => exact absurd enough (Nat.not_lt_zero _)
  | succ fuel ih =>
    rw [settleNext]
    by_cases recorded : next ∈ refused
    · rw [if_pos recorded]
      have smaller := Finset.card_erase_add_one recorded
      have later := ih (refused.erase next) (next + 1) (by
        split
        · next below =>
            rw [if_pos ⟨below.1, Nat.lt_of_succ_lt below.2⟩] at enough
            omega
        · omega)
      exact ⟨Nat.le_of_succ_le later.forward, later.unrefused, later.fewer.trans (Finset.erase_subset _ _), later.skipped,
        fun _ absent => absurd recorded absent⟩
    rw [if_neg recorded]
    by_cases jumps : running = false ∧ next < skipBelow
    · have jump : (!running && decide (next < skipBelow)) = true := by simp [jumps.1, jumps.2]
      rw [if_pos jump]
      rw [if_pos jumps] at enough
      have later := ih refused skipBelow (by
        rw [if_neg (by omega)]
        omega)
      refine { later with forward := le_trans (le_of_lt jumps.2) later.forward, stays := ?_ }
      intro busy
      rw [jumps.1] at busy
      cases busy
    have stays : (!running && decide (next < skipBelow)) = false := by
      cases running with
      | true => rfl
      | false => simpa using jumps
    rw [stays]
    refine ⟨le_refl next, recorded, Finset.Subset.refl _, fun idle => ?_, fun _ _ => rfl⟩
    by_contra below
    exact jumps ⟨idle, Nat.lt_of_not_le below⟩

structure Advanced (stream : Stream) (after : Nat) (moved : Stream) : Prop where
  forward : stream.next ≤ moved.next
  past : after ≤ moved.next
  unrefused : moved.next ∉ moved.order.refused
  skipBelow : moved.skipBelow = stream.skipBelow
  running : moved.order.running = stream.order.running
  refusal : moved.order.refusal = stream.order.refusal
  taken : moved.order.taken = stream.order.taken
  stays : stream.order.running = true → after ≤ stream.next → stream.next ∉ stream.order.refused → moved.next = stream.next

theorem advance_spec (stream : Stream) (after : Nat) : Advanced stream after (stream.advanceLocked after) := by
  have spec := settle_next_spec stream.skipBelow stream.order.running (stream.order.refused.card + 2) stream.order.refused
    (max stream.next after) (by split <;> omega)
  have forward := spec.forward
  refine ⟨?_, ?_, ?_, rfl, rfl, rfl, rfl, ?_⟩
  · exact le_trans (le_max_left _ _) forward
  · exact le_trans (le_max_right _ _) forward
  · exact fun member => spec.unrefused (Finset.mem_filter.mp member).1
  · intro busy low absent
    have same : max stream.next after = stream.next := max_eq_left low
    rw [← same] at absent
    exact (spec.stays busy absent).trans same

inductive Admitted (order : Order) (turn : Nat) (tailSkip : Bool) : TurnKind → Order → Prop where
  | follows (stands : order.stoodOn turn tailSkip = none) : Admitted order turn tailSkip .follows order
  | restarts : Admitted order turn tailSkip .restarts { order with refusal := none, taken := none }
  | spare (of kept token : Nat) (wanted : order.refusal = some ⟨of, kept, token⟩)
      (first : ∀ taken, order.taken = some taken → taken.of ≠ of) :
      Admitted order turn tailSkip (.spare of kept token) { order with taken := some ⟨turn, of⟩ }
  | afterSpare (taken : TakenSpare) (ran : order.taken = some taken)
      (through : ∀ refusal, order.refusal = some refusal → refusal.turn < taken.spare) :
      Admitted order turn tailSkip (.afterSpare taken.spare) { order with refusal := none }

variable {number thread : Nat} {owns : List (Option Nat)} {tailSkip : Bool} {kind : TurnKind} {moved stream : Stream}

theorem admit_ok {order admitted : Order} {turn : Nat} (passed : order.admitTurn turn kind tailSkip = .ok admitted) :
    Admitted order turn tailSkip kind admitted := by
  cases kind with
  | follows =>
    rw [Order.admitTurn] at passed
    split at passed
    · cases passed
    · rename_i stands
      cases passed
      exact .follows stands
  | restarts =>
    cases passed
    exact .restarts
  | spare of kept token =>
    rw [Order.admitTurn] at passed
    split at passed
    · cases passed
    rename_i runs
    cases passed
    simp only [ne_eq, Bool.or_eq_true, decide_eq_true_eq, not_or, Decidable.not_not] at runs
    refine .spare of kept token runs.1 ?_
    intro taken some same
    simp [some, same] at runs
  | afterSpare spare =>
    rw [Order.admitTurn] at passed
    split at passed
    · cases passed
    rename_i through
    split at passed
    · cases passed
    rename_i ran
    cases passed
    obtain ⟨taken, some, rfl⟩ := Option.map_eq_some_iff.mp (Decidable.not_not.mp ran)
    refine .afterSpare taken some ?_
    intro refusal recorded
    rw [recorded, Option.filter_some] at through
    simpa using through

theorem admitted_keeps {order admitted : Order} {turn : Nat} (passed : Admitted order turn tailSkip kind admitted) :
    admitted.refused = order.refused := by
  cases passed <;> rfl

theorem claim_cases {turn : Nat} : (∃ order, stream.next = turn ∧ stream.order.running = false ∧ stream.skipBelow ≤ turn ∧
        Admitted stream.order turn tailSkip kind order ∧ stream.claim tailSkip turn kind = (.ok (), stream.grant order)) ∨
      ∃ refused moved, stream.claim tailSkip turn kind = (.error refused, moved) ∧
        (moved = stream ∨ stream.order.running = false ∧ moved = stream.advanceLocked (turn + 1)) := by
  rw [Stream.claim]
  by_cases due : stream.next = turn ∧ stream.order.running = false
  · rw [if_pos due]
    by_cases superseded : turn < stream.skipBelow
    · rw [if_pos superseded]
      exact .inr ⟨_, _, rfl, .inr ⟨due.2, rfl⟩⟩
    · rw [if_neg superseded]
      cases admitted : stream.order.admitTurn turn kind tailSkip with
      | error refused => exact .inr ⟨_, _, rfl, .inr ⟨due.2, rfl⟩⟩
      | ok order => exact .inl ⟨order, due.1, due.2, Nat.le_of_not_lt superseded, admit_ok admitted, rfl⟩
  rw [if_neg due]
  split
  · exact .inr ⟨_, _, rfl, .inl rfl⟩
  · split
    · exact .inr ⟨_, _, rfl, .inl rfl⟩
    · exact .inr ⟨_, _, rfl, .inl rfl⟩

structure Quiet (before after : Stream) : Prop where
  forward : before.next ≤ after.next
  skipBelow : after.skipBelow = before.skipBelow
  running : after.order.running = before.order.running
  refusal : after.order.refusal = before.order.refusal
  taken : after.order.taken = before.order.taken
  unrefused : before.next ∉ before.order.refused → after.next ∉ after.order.refused
  stays : before.order.running = true → before.next ∉ before.order.refused → after.next = before.next

theorem quiet_refl : Quiet stream stream := ⟨le_refl _, rfl, rfl, rfl, rfl, id, fun _ _ => rfl⟩

theorem quiet_advance {after : Nat} (low : stream.order.running = true → after ≤ stream.next) :
    Quiet stream (stream.advanceLocked after) := by
  have spec := advance_spec stream after
  refine { spec with unrefused := fun _ => spec.unrefused, stays := ?_ }
  exact fun busy absent => spec.stays busy (low busy) absent

theorem quiet_claim {turn : Nat} {refused : TurnRefused} (turnedDown : (stream.claim tailSkip turn kind).1 = .error refused) :
    Quiet stream (stream.claim tailSkip turn kind).2 := by
  rcases claim_cases with ⟨order, _, _, _, _, granted⟩ | ⟨_, moved, result, same | ⟨idle, stepped⟩⟩
  · rw [granted] at turnedDown
    cases turnedDown
  · rw [result, same]
    exact quiet_refl
  · rw [result, stepped]
    refine quiet_advance ?_
    intro busy
    rw [idle] at busy
    cases busy

-- A copy of the running turn is not recorded, so `next` stays on the running turn.
theorem quiet_record_arrival {stream : Stream} {turn : Nat} : Quiet stream (stream.recordArrival turn) := by
  rw [Stream.recordArrival]
  split
  · rename_i record
    have spec := advance_spec { stream with order := { stream.order with refused := insert turn stream.order.refused } } 0
    refine { spec with unrefused := fun _ => spec.unrefused, stays := ?_ }
    intro busy absent
    refine spec.stays busy (Nat.zero_le _) ?_
    intro member
    rcases Finset.mem_insert.mp member with same | recorded
    · exact record.2.1 ⟨same.symm, busy⟩
    · exact absent recorded
  · exact quiet_advance fun _ => Nat.zero_le _

-- What a stream's history tells: a restart arrives when it raises what is skipped.
inductive StreamMark where
  | arrived (restart : Nat)
  | granted (turn : Nat) (kind : TurnKind)
  | recorded (refusal : Refusal)
  | ended (turn : Nat)
  deriving DecidableEq

def streamMark : Event StreamOp.Reply → Option StreamMark
  | ⟨_, .raiseSkip turn, _⟩ => some (.arrived turn)
  | ⟨_, .claim turn kind, .ok ()⟩ => some (.granted turn kind)
  | ⟨_, .refusedAGuess turn kept token, _⟩ => some (.recorded ⟨turn, kept, token⟩)
  | ⟨_, .endTurn turn, _⟩ => some (.ended turn)
  | _ => none

def StreamMark.grant : StreamMark → Option Nat
  | .granted turn _ => some turn
  | _ => none

variable (history : List StreamMark)

def turnsGranted : List Nat := history.filterMap StreamMark.grant

def heldAfter (held : List Nat) : StreamMark → List Nat
  | .granted turn _ => held ++ [turn]
  | .ended turn => held.erase turn
  | _ => held

def turnsHeld : List Nat := history.foldl heldAfter []

def NotSuperseded : StreamMark → StreamMark → Prop
  | .arrived restart, .granted turn _ => restart ≤ turn
  | _, _ => True

theorem granted_append (mark : StreamMark) : turnsGranted (history ++ [mark]) = turnsGranted history ++ mark.grant.toList := by
  rw [turnsGranted, filterMap_append, filterMap_cons]
  cases mark.grant with
  | none | some => rfl

theorem held_append (mark : StreamMark) : turnsHeld (history ++ [mark]) = heldAfter (turnsHeld history) mark := by
  rw [turnsHeld, foldl_append]
  rfl

def streamProtocol : Protocol StreamOp.Reply (Option Nat) where
  allowed op own :=
    match op with
    | .advanceTo after => after = 0
    | .claim _ _ => own = none
    | .refusedAGuess turn _ _ => own = some turn
    | .endTurn turn => own = some turn
    | _ => True
  replies _ _ := True
  move op reply own :=
    match op, reply with
    | .claim turn _, .ok () => some turn
    | .endTurn _, _ => none
    | _, _ => own

theorem hold_follows {refusals : List (Nat × Nat)} :
    (hold number refusals).Follows streamProtocol (fun _ own => own = none) (some number) := by
  induction refusals with
  | nil => exact ⟨rfl, fun _ _ => rfl⟩
  | cons refusal rest ih => exact ⟨rfl, fun _ _ => ih⟩

theorem turn_follows : (turn number kind).Follows streamProtocol
      (fun taken own => own = if taken = .ok () then some number else none) none := by
  have waits : (enter (.waitFor number) >>= fun reached =>
      if reached then enter (.claim number kind) else pure (.error .waited)).Follows streamProtocol
      (fun taken own => own = if taken = .ok () then some number else none) none := by
    refine ⟨trivial, fun reached _ => ?_⟩
    cases reached with
    | false => rfl
    | true =>
      refine ⟨rfl, fun claimed _ => ?_⟩
      cases claimed with
      | error | ok => rfl
  unfold turn
  cases kind.supersedes with
  | false => exact waits
  | true => exact ⟨trivial, fun _ _ => ⟨rfl, fun _ _ => waits⟩⟩

theorem refused_on_arrival_follows : (refusedOnArrival number kind).Follows streamProtocol (fun _ own => own = none) none := by
  unfold refusedOnArrival
  cases kind.supersedes with
  | false => exact ⟨trivial, fun _ _ => rfl⟩
  | true => exact ⟨trivial, fun _ _ => ⟨trivial, fun _ _ => rfl⟩⟩

theorem call_follows (call : StreamCall) : call.thread.Follows streamProtocol (fun _ own => own = none) none := by
  cases call with
  | forward turn kind refusals =>
    refine Routine.follows_bind _ _ _ _ _ turn_follows ?_
    rintro taken own rfl
    cases taken with
    | error refused => rfl
    | ok _ => exact Routine.follows_bind _ _ _ _ _ hold_follows fun _ _ free => free
  | turnedAway turn kind =>
    exact Routine.follows_bind _ _ _ _ _ refused_on_arrival_follows fun _ _ free => free

inductive Effect (tailSkip : Bool) (stream : Stream) (own : Option Nat) : Option StreamMark → Stream → Option Nat → Prop where
  | grants (turn : Nat) (kind : TurnKind) (order : Order) (free : own = none) (due : stream.next = turn)
      (idle : stream.order.running = false) (kept : stream.skipBelow ≤ turn)
      (admitted : Admitted stream.order turn tailSkip kind order) :
      Effect tailSkip stream own (some (.granted turn kind)) (stream.grant order) (some turn)
  | ends (turn : Nat) (holds : own = some turn) :
      Effect tailSkip stream own (some (.ended turn)) (stream.endTurn turn) none
  | records (turn kept token : Nat) (holds : own = some turn) :
      Effect tailSkip stream own (some (.recorded ⟨turn, kept, token⟩)) (stream.refusedAGuess turn kept token) own
  | arrives (turn : Nat) : Effect tailSkip stream own (some (.arrived turn)) (stream.raiseSkip turn) own
  | moves (moved : Stream) (quiet : Quiet stream moved) : Effect tailSkip stream own none moved own

theorem section_effect {op : StreamOp} {machine after : Machine Stream} {reply : op.Reply} {own : Option Nat}
    (allowed : streamProtocol.allowed op own) (ran : StreamOp.handle tailSkip op machine = (.done reply, after)) :
    Effect tailSkip machine.store own (streamMark ⟨thread, op, reply⟩) after.store (streamProtocol.move op reply own) := by
  cases op with
  | raiseSkip turn =>
    cases ran
    exact .arrives turn
  | advanceTo after =>
    cases ran
    have none : after = 0 := allowed
    exact .moves _ (quiet_advance fun _ => none ▸ Nat.zero_le _)
  | waitFor turn =>
    simp only [StreamOp.handle] at ran
    split at ran
    · cases ran
      exact .moves _ quiet_refl
    · split at ran
      · cases ran
        exact .moves _ quiet_refl
      · cases ran
  | claim turn kind =>
    cases ran
    rcases claim_cases with ⟨order, due, idle, kept, admitted, granted⟩ | ⟨refused, moved, result, _⟩
    · rw [granted]
      exact .grants turn kind order allowed due idle kept admitted
    · have quiet := quiet_claim (by rw [result])
      rw [result] at quiet ⊢
      exact .moves moved quiet
  | recordArrival turn =>
    cases ran
    exact .moves _ quiet_record_arrival
  | refusedAGuess turn kept token =>
    cases ran
    exact .records turn kept token allowed
  | endTurn turn =>
    cases ran
    exact .ends turn allowed

def streamHistory (trace : List (Event StreamOp.Reply)) : List StreamMark := trace.filterMap streamMark

theorem history_append (trace : List (Event StreamOp.Reply)) (event : Event StreamOp.Reply) :
    streamHistory (trace ++ [event]) = streamHistory trace ++ (streamMark event).toList := by
  rw [streamHistory, filterMap_append, filterMap_cons]
  cases streamMark event with
  | none | some => rfl

def streamRun (tailSkip : Bool) (calls : List StreamCall) (schedule : List Lib.Turn) :
    World StreamOp.Reply Stream (Except TurnRefused Unit) :=
  run (World.step (StreamOp.handle tailSkip)) (World.start Stream.new (calls.map StreamCall.thread)) schedule

theorem stream_run_keeps {Inv : Stream → List StreamMark → List (Option Nat) → Prop}
    (starts : ∀ owns, (∀ own ∈ owns, own = none) → Inv Stream.new [] owns)
    (keeps : ∀ stream history owns thread own mark moved after, Inv stream history owns → owns[thread]? = some own → Effect tailSkip stream own mark moved after → Inv moved (history ++ mark.toList) (owns.set thread after))
    {calls : List StreamCall} {schedule : List Lib.Turn} :
    ∃ owns, Inv (streamRun tailSkip calls schedule).store (streamHistory (streamRun tailSkip calls schedule).trace) owns := by
  have abides := start_abides (fun _ own => own = none) Stream.new calls (fun _ => none) call_follows
  obtain ⟨owns, _, holds⟩ := run_abides (fun stream trace owns => Inv stream (streamHistory trace) owns) (fun _ _ => True)
    (by
      intro world turn owns own op reply after holds _ _ held allowed ran
      refine ⟨trivial, ?_⟩
      simp only [history_append]
      exact keeps _ _ owns turn.thread own _ _ _ holds held (section_effect allowed ran))
    (World.start Stream.new (calls.map StreamCall.thread)) schedule _ abides (starts _ (by simp))
    (run_meets_of _ _ _ fun _ _ _ => trivial)
  exact ⟨owns, holds⟩

theorem holds_after {other turn : Nat} {after : Option Nat} (holds : (owns.set thread after)[other]? = some (some turn)) :
    other = thread ∧ after = some turn ∨ other ≠ thread ∧ owns[other]? = some (some turn) := by
  by_cases same : other = thread
  · subst same
    refine .inl ⟨rfl, ?_⟩
    rw [getElem?_set, if_pos rfl] at holds
    split at holds
    · exact Option.some.inj holds
    · cases holds
  · refine .inr ⟨same, ?_⟩
    rwa [getElem?_set_ne (Ne.symm same)] at holds

structure InOrder (stream : Stream) (history : List StreamMark) (owns : List (Option Nat)) : Prop where
  unrefused : stream.next ∉ stream.order.refused
  due : ∀ thread turn : Nat, owns[thread]? = some (some turn) → stream.order.running = true ∧ turn = stream.next
  single : ∀ first second turn other : Nat, owns[first]? = some (some turn) → owns[second]? = some (some other) → first = second
  held : turnsHeld history = if stream.order.running then [stream.next] else []
  granted : ∀ turn ∈ turnsGranted history, turn < stream.next ∨ stream.order.running = true ∧ turn = stream.next
  increasing : (turnsGranted history).Pairwise (· < ·)
  raised : ∀ restart, .arrived restart ∈ history → restart ≤ stream.skipBelow
  respected : history.Pairwise NotSuperseded

variable {mark : StreamMark} {history : List StreamMark}

theorem not_superseded_append (respected : history.Pairwise NotSuperseded)
    (last : ∀ restart, .arrived restart ∈ history → NotSuperseded (.arrived restart) mark) :
    (history ++ [mark]).Pairwise NotSuperseded := by
  refine pairwise_append.mpr ⟨respected, pairwise_singleton _ _, ?_⟩
  intro earlier member later isLast
  rw [mem_singleton.mp isLast]
  cases earlier with
  | arrived restart => exact last restart member
  | granted | recorded | ended => trivial

section

variable (inv : InOrder stream history owns)

include inv

theorem idle_granted (idle : stream.order.running = false) :
    ∀ earlier ∈ turnsGranted history, earlier < stream.next := by
  intro earlier member
  rcases inv.granted earlier member with below | ⟨busy, _⟩
  · exact below
  · rw [idle] at busy
    cases busy

theorem grant_in_order {turn : Nat} {order : Order} (due : stream.next = turn)
    (idle : stream.order.running = false) (kept : stream.skipBelow ≤ turn) (refused : order.refused = stream.order.refused) :
    InOrder (stream.grant order) (history ++ [.granted turn kind]) (owns.set thread (some turn)) := by
  have nobody : ∀ other number : Nat, owns[other]? ≠ some (some number) := by
    intro other number holds
    have busy := (inv.due other number holds).1
    rw [idle] at busy
    cases busy
  have before : ∀ earlier ∈ turnsGranted history, earlier < turn := due ▸ idle_granted inv idle
  refine ⟨?_, ?_, ?_, ?_, ?_, ?_, ?_, ?_⟩
  · change stream.next ∉ order.refused
    rw [refused]
    exact inv.unrefused
  · intro other number holds
    rcases holds_after holds with ⟨_, same⟩ | ⟨_, holds⟩
    · exact ⟨rfl, (Option.some.inj same).symm.trans due.symm⟩
    · exact absurd holds (nobody other number)
  · intro first second number other one two
    rcases holds_after one with ⟨first, _⟩ | ⟨_, holds⟩
    · rcases holds_after two with ⟨second, _⟩ | ⟨_, holds⟩
      · exact first.trans second.symm
      · exact absurd holds (nobody _ _)
    · exact absurd holds (nobody _ _)
  · have empty : turnsHeld history = [] := by
      rw [inv.held, idle]
      rfl
    rw [held_append, empty, ← due]
    rfl
  · rw [granted_append]
    intro earlier member
    rcases mem_append.mp member with member | member
    · exact .inl (due.symm ▸ before earlier member)
    · exact .inr ⟨rfl, (mem_singleton.mp member).trans due.symm⟩
  · rw [granted_append]
    refine pairwise_append.mpr ⟨inv.increasing, pairwise_singleton _ _, ?_⟩
    intro earlier member later isLast
    rw [mem_singleton.mp isLast]
    exact before earlier member
  · intro restart member
    rcases mem_append.mp member with member | member
    · exact inv.raised restart member
    · cases mem_singleton.mp member
  · exact not_superseded_append inv.respected fun restart member => le_trans (inv.raised restart member) kept

theorem end_in_order {turn : Nat} (holds : owns[thread]? = some (some turn)) :
    InOrder (stream.endTurn turn) (history ++ [.ended turn]) (owns.set thread none) := by
  obtain ⟨busy, due⟩ := inv.due thread turn holds
  have spec := advance_spec { stream with order := { stream.order with running := false } } (turn + 1)
  have idle : (stream.endTurn turn).order.running = false := spec.running
  have nobody : ∀ other number : Nat, (owns.set thread none)[other]? ≠ some (some number) := by
    intro other number later
    rcases holds_after later with ⟨_, same⟩ | ⟨different, earlier⟩
    · cases same
    · exact different (inv.single other thread number turn earlier holds)
  refine ⟨spec.unrefused, ?_, ?_, ?_, ?_, ?_, ?_, ?_⟩
  · exact fun other number later => absurd later (nobody other number)
  · exact fun first _ number _ later _ => absurd later (nobody first number)
  · have one : turnsHeld history = [turn] := by
      rw [inv.held, busy, due]
      rfl
    rw [held_append, one, idle]
    simp [heldAfter]
  · rw [granted_append]
    intro earlier member
    have past : turn < (stream.endTurn turn).next := spec.past
    rcases mem_append.mp member with member | member
    · rcases inv.granted earlier member with below | ⟨_, same⟩
      · exact .inl (lt_trans (due ▸ below) past)
      · exact .inl (same.trans due.symm ▸ past)
    · cases member
  · rw [granted_append]
    exact (append_nil _).symm ▸ inv.increasing
  · intro restart member
    rcases mem_append.mp member with member | member
    · exact le_trans (inv.raised restart member) (le_of_eq spec.skipBelow.symm)
    · cases mem_singleton.mp member
  · exact not_superseded_append inv.respected fun _ _ => trivial

theorem mark_in_order (next : moved.next = stream.next)
    (refused : moved.order.refused = stream.order.refused) (running : moved.order.running = stream.order.running)
    (grants : mark.grant = none) (holding : ∀ held, heldAfter held mark = held) (skips : stream.skipBelow ≤ moved.skipBelow)
    (arrives : ∀ restart, mark = .arrived restart → restart ≤ moved.skipBelow) : InOrder moved (history ++ [mark]) owns := by
  have same : turnsGranted (history ++ [mark]) = turnsGranted history := by
    rw [granted_append, grants]
    exact append_nil _
  refine ⟨?_, ?_, inv.single, ?_, ?_, ?_, ?_, ?_⟩
  · rw [next, refused]
    exact inv.unrefused
  · rw [running, next]
    exact inv.due
  · rw [held_append, holding, running, next]
    exact inv.held
  · rw [same, running, next]
    exact inv.granted
  · rw [same]
    exact inv.increasing
  · intro restart member
    rcases mem_append.mp member with member | member
    · exact le_trans (inv.raised restart member) skips
    · exact arrives restart (mem_singleton.mp member).symm
  · refine not_superseded_append inv.respected fun restart _ => ?_
    cases mark with
    | granted turn kind => cases grants
    | arrived | recorded | ended => trivial

theorem quiet_in_order (quiet : Quiet stream moved) : InOrder moved history owns := by
  refine ⟨quiet.unrefused inv.unrefused, ?_, inv.single, ?_, ?_, inv.increasing, ?_, inv.respected⟩
  · intro thread turn holds
    obtain ⟨busy, due⟩ := inv.due thread turn holds
    exact ⟨quiet.running.trans busy, due.trans (quiet.stays busy inv.unrefused).symm⟩
  · rw [inv.held, quiet.running]
    cases busy : stream.order.running with
    | false => rfl
    | true => rw [quiet.stays busy inv.unrefused]
  · intro turn member
    rcases inv.granted turn member with below | ⟨busy, due⟩
    · exact .inl (lt_of_lt_of_le below quiet.forward)
    · exact .inr ⟨quiet.running.trans busy, due.trans (quiet.stays busy inv.unrefused).symm⟩
  · rw [quiet.skipBelow]
    exact inv.raised

end

theorem effect_in_order {tailSkip : Bool} (stream : Stream) (history : List StreamMark) (owns : List (Option Nat)) (thread : Nat)
    (own : Option Nat) (mark : Option StreamMark) (moved : Stream) (after : Option Nat) (inv : InOrder stream history owns)
    (held : owns[thread]? = some own) (effect : Effect tailSkip stream own mark moved after) :
    InOrder moved (history ++ mark.toList) (owns.set thread after) := by
  cases effect with
  | grants turn kind order free due idle kept admitted =>
    exact grant_in_order inv due idle kept (admitted_keeps admitted)
  | ends turn holds => exact end_in_order inv (holds ▸ held)
  | records turn kept token holds =>
    rw [set_held held]
    exact mark_in_order inv rfl rfl rfl rfl (fun _ => rfl) (le_refl _) nofun
  | arrives turn =>
    rw [set_held held]
    refine mark_in_order inv rfl rfl rfl rfl (fun _ => rfl) (le_max_left _ _) ?_
    intro restart same
    cases same
    exact le_max_right _ _
  | moves moved quiet =>
    rw [set_held held, Option.toList_none, append_nil]
    exact quiet_in_order inv quiet

theorem new_in_order (owns : List (Option Nat)) (free : ∀ own ∈ owns, own = none) : InOrder Stream.new [] owns := by
  have nobody : ∀ thread turn : Nat, owns[thread]? ≠ some (some turn) := by
    intro thread turn holds
    cases free _ (mem_of_getElem? holds)
  refine ⟨Finset.notMem_empty _, ?_, ?_, rfl, nofun, .nil, nofun, .nil⟩
  · exact fun thread turn holds => absurd holds (nobody thread turn)
  · exact fun first _ turn _ holds _ => absurd holds (nobody first turn)

theorem one_forward_at_a_time (tailSkip : Bool) (calls : List StreamCall) (schedule : List Lib.Turn) :
    (turnsHeld (streamHistory (streamRun tailSkip calls schedule).trace)).length ≤ 1 ∧
      (turnsGranted (streamHistory (streamRun tailSkip calls schedule).trace)).Pairwise (· < ·) ∧
      (streamHistory (streamRun tailSkip calls schedule).trace).Pairwise NotSuperseded := by
  obtain ⟨owns, inv⟩ := stream_run_keeps new_in_order (effect_in_order)
  refine ⟨?_, inv.increasing, inv.respected⟩
  rw [inv.held]
  split
  · exact Nat.le_refl 1
  · exact Nat.zero_le 1

-- A second copy of the running turn, and a restart that comes while it runs.
example : streamHistory (streamRun true
    [.forward 0 .follows [], .forward 0 .follows [], .forward 1 .follows [], .forward 2 .restarts []]
    ([0, 1, 0, 1, 3, 3, 0, 2, 2, 3, 3, 3].map .lands)).trace =
      [.granted 0 .follows, .arrived 2, .ended 0, .granted 2 .restarts, .ended 2] := by decide +kernel

end SwarmLlm.Daemon
