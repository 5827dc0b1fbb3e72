import Mathlib.Data.List.Induction
import SwarmLlm.Daemon.StreamOrder

namespace SwarmLlm.Daemon

open Lib List

namespace StreamMark

def clears : StreamMark → Bool
  | .granted _ .restarts => true
  | .granted _ (.afterSpare _) => true
  | _ => false

def isRecord : StreamMark → Bool
  | .recorded _ => true
  | _ => false

def isRestart : StreamMark → Bool
  | .granted _ .restarts => true
  | _ => false

def isSpare : StreamMark → Bool
  | .granted _ (.spare _ _ _) => true
  | _ => false

def recordsFrom (spare : Nat) : StreamMark → Bool
  | .recorded refusal => decide (spare ≤ refusal.turn)
  | _ => false

end StreamMark

def keepSinceClear (kept : List StreamMark) (mark : StreamMark) : List StreamMark :=
  if mark.clears then [mark] else kept ++ [mark]

def sinceClear (history : List StreamMark) : List StreamMark := history.foldl keepSinceClear []

variable (before : List StreamMark)

def NothingRefusedSinceClear : Prop :=
  ∀ turn kind, .granted turn kind ∈ sinceClear before → ∀ refusal, .recorded refusal ∈ before → refusal.turn ≠ turn

def NamesStandingRefusal (of kept token : Nat) : Prop :=
  of ∈ turnsGranted before ∧
    Since (.recorded ⟨of, kept, token⟩) (fun later => later.isRecord = false ∧ later.clears = false) before ∧
    ∀ turn kept token, .granted turn (.spare of kept token) ∉ before

def FollowsStandingSpare (spare : Nat) : Prop :=
  ∃ of kept token, Since (.granted spare (.spare of kept token))
    (fun later => later.isRestart = false ∧ later.isSpare = false ∧ later.recordsFrom spare = false) before

-- What a mark of the history tells of those before it. A refusal is recorded by
-- the turn that is held.
def BuiltOn : StreamMark → Prop
  | .granted _ .follows => NothingRefusedSinceClear before
  | .granted _ (.spare of kept token) => NamesStandingRefusal before of kept token
  | .granted _ (.afterSpare spare) => FollowsStandingSpare before spare
  | .recorded refusal => refusal.turn ∈ turnsHeld before
  | _ => True

structure Remembers (order : Order) (history : List StreamMark) : Prop where
  recorders : ∀ refusal, .recorded refusal ∈ history → refusal.turn ∈ turnsGranted history
  spares : ∀ turn of kept token, .granted turn (.spare of kept token) ∈ history → of < turn
  cleared : order.refusal = none → NothingRefusedSinceClear history
  standing : ∀ refusal, order.refusal = some refusal →
    Since (.recorded refusal) (fun later => later.isRecord = false ∧ later.clears = false) history
  served : ∀ turn refusal kept token, order.refusal = some refusal →
    .granted turn (.spare refusal.turn kept token) ∈ history → ∃ taken, order.taken = some taken ∧ taken.of = refusal.turn
  taken : ∀ taken, order.taken = some taken → ∃ kept token, Since (.granted taken.spare (.spare taken.of kept token))
    (fun later => later.isRestart = false ∧ later.isSpare = false ∧
      (later.recordsFrom taken.spare = true → ∃ refusal, order.refusal = some refusal ∧ taken.spare ≤ refusal.turn)) history

theorem since_clear_append (history : List StreamMark) (mark : StreamMark) :
    sinceClear (history ++ [mark]) = keepSinceClear (sinceClear history) mark := by
  rw [sinceClear, foldl_append]
  rfl

variable {history : List StreamMark}

theorem mem_before {mark last : StreamMark} (member : mark ∈ history ++ [last]) (different : mark ≠ last) : mark ∈ history := by
  rcases mem_append.mp member with member | member
  · exact member
  · exact absurd (mem_singleton.mp member) different

variable {order : Order}

theorem bystander_remembers {mark : StreamMark}
    (remembers : Remembers order history) (noGrant : ∀ turn kind, StreamMark.granted turn kind ≠ mark)
    (noRecord : ∀ refusal, StreamMark.recorded refusal ≠ mark) : Remembers order (history ++ [mark]) := by
  have grants : mark.grant = none := by
    cases mark with
    | granted turn kind => exact absurd rfl (noGrant turn kind)
    | arrived | recorded | ended => rfl
  have clears : mark.clears = false := by
    cases mark with
    | granted turn kind => exact absurd rfl (noGrant turn kind)
    | arrived | recorded | ended => rfl
  have spare : mark.isRestart = false ∧ mark.isSpare = false := by
    cases mark with
    | granted turn kind => exact absurd rfl (noGrant turn kind)
    | arrived | recorded | ended => exact ⟨rfl, rfl⟩
  have records : mark.isRecord = false ∧ ∀ turn, mark.recordsFrom turn = false := by
    cases mark with
    | recorded refusal => exact absurd rfl (noRecord refusal)
    | arrived | granted | ended => exact ⟨rfl, fun _ => rfl⟩
  refine ⟨?_, ?_, ?_, ?_, ?_, ?_⟩
  · intro refusal member
    rw [granted_append, grants]
    replace member := mem_before member (noRecord refusal)
    exact mem_append_left _ (remembers.recorders refusal member)
  · intro turn of kept token member
    replace member := mem_before member (noGrant _ _)
    exact remembers.spares turn of kept token member
  · intro none turn kind member refusal recorded
    rw [since_clear_append, keepSinceClear, clears] at member
    replace recorded := mem_before recorded (noRecord refusal)
    exact remembers.cleared none turn kind (mem_before member (noGrant turn kind)) refusal recorded
  · exact fun refusal some => since_append (remembers.standing refusal some) ⟨records.1, clears⟩
  · intro turn refusal kept token some member
    replace member := mem_before member (noGrant _ _)
    exact remembers.served turn refusal kept token some member
  · intro taken some
    obtain ⟨kept, token, since⟩ := remembers.taken taken some
    refine ⟨kept, token, since_append since ⟨spare.1, spare.2, ?_⟩⟩
    rw [records.2]
    nofun

theorem granted_mem {turn : Nat} {kind : TurnKind} (member : .granted turn kind ∈ history) :
    turn ∈ turnsGranted history := mem_filterMap.mpr ⟨_, member, rfl⟩

theorem held_granted {turn : Nat} (held : turn ∈ turnsHeld history) : turn ∈ turnsGranted history := by
  induction history using List.reverseRecOn with
  | nil => cases held
  | append_singleton history mark ih =>
    rw [held_append] at held
    rw [granted_append]
    cases mark with
    | granted number kind =>
      rcases mem_append.mp held with held | held
      · exact mem_append_left _ (ih held)
      · exact mem_append_right _ held
    | ended number => exact mem_append_left _ (ih (mem_of_mem_erase held))
    | arrived | recorded => exact mem_append_left _ (ih held)

theorem record_remembers {refusal : Refusal} (remembers : Remembers order history)
    (granted : refusal.turn ∈ turnsGranted history) (latest : ∀ turn ∈ turnsGranted history, turn ≤ refusal.turn) :
    Remembers { order with refusal := some refusal } (history ++ [.recorded refusal]) := by
  have same : turnsGranted (history ++ [.recorded refusal]) = turnsGranted history := by
    rw [granted_append]
    exact append_nil _
  refine ⟨?_, ?_, nofun, ?_, ?_, ?_⟩
  · intro other member
    rw [same]
    rcases mem_append.mp member with member | member
    · exact remembers.recorders other member
    · cases mem_singleton.mp member
      exact granted
  · intro turn of kept token member
    replace member := mem_before member nofun
    exact remembers.spares turn of kept token member
  · intro other recorded
    cases recorded
    exact since_last
  · intro turn other kept token recorded member
    cases recorded
    replace member := mem_before member nofun
    have before := remembers.spares turn _ kept token member
    exact absurd before (not_lt.mpr (latest turn (granted_mem member)))
  · intro taken some
    obtain ⟨kept, token, since⟩ := remembers.taken taken some
    have after := latest _ (granted_mem (since_mem since))
    refine ⟨kept, token, since_append (since_mono since ?_) ⟨rfl, rfl, fun _ => ⟨refusal, rfl, after⟩⟩⟩
    exact fun later _ quiet => ⟨quiet.1, quiet.2.1, fun _ => ⟨refusal, rfl, after⟩⟩

theorem remembers_congr {other : Order} (remembers : Remembers order history)
    (refusal : other.refusal = order.refusal) (taken : other.taken = order.taken) : Remembers other history := by
  refine ⟨remembers.recorders, remembers.spares, ?_, ?_, ?_, ?_⟩
  · exact refusal ▸ remembers.cleared
  · exact refusal ▸ remembers.standing
  · rw [refusal, taken]
    exact remembers.served
  · rw [refusal, taken]
    exact remembers.taken

section Granting

variable {order admitted : Order} {history : List StreamMark} {turn : Nat} {kind : TurnKind} (remembers : Remembers order history)
include remembers

theorem granted_recorders (refusal : Refusal) (member : .recorded refusal ∈ history ++ [.granted turn kind]) :
    refusal.turn ∈ turnsGranted (history ++ [.granted turn kind]) := by
  replace member := mem_before member nofun
  rw [granted_append]
  exact mem_append_left _ (remembers.recorders refusal member)

theorem other_spares (notSpare : (StreamMark.granted turn kind).isSpare = false)
    {number of kept token : Nat} (member : .granted number (.spare of kept token) ∈ history ++ [.granted turn kind]) :
    .granted number (.spare of kept token) ∈ history ∧ of < number := by
  replace member := mem_before member (by
    intro same
    rw [← same] at notSpare
    cases notSpare)
  exact ⟨member, remembers.spares number of kept token member⟩

variable (fresh : ∀ earlier ∈ turnsGranted history, earlier < turn)
include fresh

theorem fresh_turn {refusal : Refusal} (member : .recorded refusal ∈ history ++ [.granted turn kind]) : refusal.turn ≠ turn := by
  replace member := mem_before member nofun
  exact Nat.ne_of_lt (fresh _ (remembers.recorders refusal member))

theorem clearing_turn (clears : (StreamMark.granted turn kind).clears = true) :
    NothingRefusedSinceClear (history ++ [.granted turn kind]) := by
  intro other its member refusal recorded
  rw [since_clear_append, keepSinceClear, if_pos clears] at member
  cases mem_singleton.mp member
  exact fresh_turn remembers fresh recorded

theorem follows_remembers : Remembers order (history ++ [.granted turn .follows]) := by
  refine ⟨granted_recorders remembers, ?_, ?_, ?_, ?_, ?_⟩
  · exact fun number of kept token member => (other_spares remembers rfl member).2
  · intro none other its member refusal recorded
    rw [since_clear_append] at member
    rcases mem_append.mp member with member | member
    · replace recorded := mem_before recorded nofun
      exact remembers.cleared none other its member refusal recorded
    · cases mem_singleton.mp member
      exact fresh_turn remembers fresh recorded
  · exact fun refusal some => since_append (remembers.standing refusal some) ⟨rfl, rfl⟩
  · intro number refusal kept token some member
    exact remembers.served number refusal kept token some
      (other_spares remembers rfl member).1
  · intro taken some
    obtain ⟨kept, token, since⟩ := remembers.taken taken some
    exact ⟨kept, token, since_append since ⟨rfl, rfl, nofun⟩⟩

theorem restarts_remembers : Remembers { order with refusal := none, taken := none } (history ++ [.granted turn .restarts]) := by
  refine ⟨granted_recorders remembers, ?_, fun _ => ?_, nofun, nofun, nofun⟩
  · exact fun number of kept token member => (other_spares remembers rfl member).2
  · exact clearing_turn remembers fresh rfl

theorem spare_remembers {of kept token : Nat} (wanted : order.refusal = some ⟨of, kept, token⟩) :
    Remembers { order with taken := some ⟨turn, of⟩ } (history ++ [.granted turn (.spare of kept token)]) := by
  have standing := remembers.standing _ wanted
  have earlier : of < turn := fresh of (remembers.recorders _ (since_mem standing))
  refine ⟨granted_recorders remembers, ?_, ?_, ?_, ?_, ?_⟩
  · intro number its itsKept itsToken member
    rcases mem_append.mp member with member | member
    · exact remembers.spares number its itsKept itsToken member
    · cases mem_singleton.mp member
      exact earlier
  · intro none
    cases wanted.symm.trans none
  · exact fun refusal some => since_append (remembers.standing refusal some) ⟨rfl, rfl⟩
  · intro number refusal itsKept itsToken some _
    cases wanted.symm.trans some
    exact ⟨⟨turn, of⟩, rfl, rfl⟩
  · intro taken some
    cases some
    exact ⟨kept, token, since_last⟩

theorem after_spare_remembers {taken : TakenSpare} (ran : order.taken = some taken)
    (through : ∀ refusal, order.refusal = some refusal → refusal.turn < taken.spare) :
    Remembers { order with refusal := none } (history ++ [.granted turn (.afterSpare taken.spare)]) := by
  refine ⟨granted_recorders remembers, ?_, fun _ => ?_, nofun, nofun, ?_⟩
  · exact fun number of kept token member => (other_spares remembers rfl member).2
  · exact clearing_turn remembers fresh rfl
  intro its some
  cases ran.symm.trans some
  obtain ⟨kept, token, since⟩ := remembers.taken taken ran
  refine ⟨kept, token, since_append (since_mono since ?_) ⟨rfl, rfl, nofun⟩⟩
  intro later _ quiet
  refine ⟨quiet.1, quiet.2.1, fun records => ?_⟩
  obtain ⟨refusal, standing, after⟩ := quiet.2.2 records
  exact absurd (through refusal standing) (not_lt.mpr after)

theorem admitted_remembers {tailSkip : Bool}
    (passed : Admitted order turn tailSkip kind admitted) : Remembers admitted (history ++ [.granted turn kind]) := by
  cases passed with
  | follows stands => exact follows_remembers remembers fresh
  | restarts => exact restarts_remembers remembers fresh
  | spare of kept token wanted first => exact spare_remembers remembers fresh wanted
  | afterSpare taken ran through => exact after_spare_remembers remembers fresh ran through

-- With the tail skip on, a turn that follows the line is let run only when no refusal stands.
theorem admitted_built (passed : Admitted order turn true kind admitted) : BuiltOn history (.granted turn kind) := by
  cases passed with
  | follows stands =>
    refine remembers.cleared ?_
    cases standing : order.refusal with
    | none => rfl
    | some refusal =>
      have since := remembers.standing refusal standing
      have earlier : refusal.turn < turn := fresh _ (remembers.recorders refusal (since_mem since))
      have late : turn ≤ refusal.turn := by simpa [Order.stoodOn, standing] using stands
      exact absurd earlier (not_lt.mpr late)
  | restarts => trivial
  | spare of kept token wanted first =>
    have since := remembers.standing _ wanted
    refine ⟨remembers.recorders _ (since_mem since), since, ?_⟩
    intro number itsKept itsToken member
    obtain ⟨taken, some, same⟩ := remembers.served number _ itsKept itsToken wanted member
    exact first taken some same
  | afterSpare taken ran through =>
    obtain ⟨kept, token, since⟩ := remembers.taken taken ran
    refine ⟨taken.of, kept, token, since_mono since ?_⟩
    intro later _ quiet
    refine ⟨quiet.1, quiet.2.1, ?_⟩
    cases records : later.recordsFrom taken.spare with
    | false => rfl
    | true =>
      obtain ⟨refusal, standing, after⟩ := quiet.2.2 records
      exact absurd (through refusal standing) (not_lt.mpr after)

end Granting

structure Refusing (stream : Stream) (history : List StreamMark) (owns : List (Option Nat)) : Prop where
  inOrder : InOrder stream history owns
  remembers : Remembers stream.order history
  built : AtEach BuiltOn history

theorem effect_refusing (stream : Stream) (history : List StreamMark) (owns : List (Option Nat)) (thread : Nat)
    (own : Option Nat) (mark : Option StreamMark) (moved : Stream) (after : Option Nat) (inv : Refusing stream history owns)
    (held : owns[thread]? = some own) (effect : Effect true stream own mark moved after) :
    Refusing moved (history ++ mark.toList) (owns.set thread after) := by
  have ordered := effect_in_order stream history owns thread own mark moved after inv.inOrder held effect
  cases effect with
  | grants turn kind order free due idle kept admitted =>
    have fresh : ∀ earlier ∈ turnsGranted history, earlier < turn :=
      due ▸ idle_granted inv.inOrder idle
    refine ⟨ordered, ?_, ?_⟩
    · exact remembers_congr (admitted_remembers inv.remembers fresh admitted) rfl rfl
    · exact at_each_append inv.built (admitted_built inv.remembers fresh admitted)
  | ends turn holds =>
    have spec := advance_spec { stream with order := { stream.order with running := false } } (turn + 1)
    refine ⟨ordered, ?_, at_each_append inv.built trivial⟩
    exact bystander_remembers (remembers_congr inv.remembers spec.refusal spec.taken) nofun nofun
  | records turn kept token holds =>
    obtain ⟨busy, due⟩ := inv.inOrder.due thread turn (holds ▸ held)
    have holding : turnsHeld history = [turn] := by
      rw [inv.inOrder.held, busy, due]
      rfl
    have latest : ∀ earlier ∈ turnsGranted history, earlier ≤ turn := by
      intro earlier member
      rcases inv.inOrder.granted earlier member with below | ⟨_, same⟩
      · exact le_of_lt (due ▸ below)
      · exact le_of_eq (same.trans due.symm)
    refine ⟨ordered, record_remembers inv.remembers ?_ latest, ?_⟩
    · exact held_granted (holding ▸ .head [])
    · refine at_each_append inv.built ?_
      change turn ∈ turnsHeld history
      rw [holding]
      exact .head []
  | arrives turn =>
    refine ⟨ordered, ?_, at_each_append inv.built trivial⟩
    exact bystander_remembers (remembers_congr inv.remembers rfl rfl) nofun nofun
  | moves moved quiet =>
    rw [Option.toList_none, append_nil] at ordered ⊢
    exact ⟨ordered, remembers_congr inv.remembers quiet.refusal quiet.taken, inv.built⟩

theorem new_refusing (owns : List (Option Nat)) (free : ∀ own ∈ owns, own = none) : Refusing Stream.new [] owns :=
  ⟨new_in_order owns free, ⟨nofun, nofun, fun _ _ _ => nofun, nofun, nofun, nofun⟩, at_each_nil _⟩

theorem checks_built_on_their_rows (calls : List StreamCall) (schedule : List Lib.Turn) :
    AtEach BuiltOn (streamHistory (streamRun true calls schedule).trace) := by
  obtain ⟨owns, inv⟩ := stream_run_keeps new_refusing effect_refusing
  exact inv.built

-- Turn 0 refuses a guess; turn 1 stood on it, the spare restart for it runs, and
-- turn 3 is built on the spare.
example : streamHistory (streamRun true
    [.forward 0 .follows [(0, 7)], .forward 1 .follows [], .forward 2 (.spare 0 0 7) [], .forward 3 (.afterSpare 2) [],
      .forward 4 .follows []]
    ([0, 0, 0, 0, 1, 1, 2, 2, 2, 3, 3, 3, 4, 4].map .lands)).trace =
      [.granted 0 .follows, .recorded ⟨0, 0, 7⟩, .ended 0, .granted 2 (.spare 0 0 7), .ended 2, .granted 3 (.afterSpare 2),
        .ended 3, .granted 4 .follows] := by decide +kernel

end SwarmLlm.Daemon
