import Mathlib.Data.Finset.Card
import SwarmLlm.Lib.Interleave

namespace SwarmLlm.Daemon

open Lib

structure Refusal where
  turn : Nat
  kept : Nat
  token : Nat
  deriving DecidableEq

structure TakenSpare where
  spare : Nat
  of : Nat
  deriving DecidableEq

inductive TurnKind where
  | follows
  | restarts
  | spare (of kept token : Nat)
  | afterSpare (spare : Nat)
  deriving DecidableEq

def TurnKind.supersedes (kind : TurnKind) : Bool := kind == .restarts

inductive TurnRefused where
  | alreadyRan (next : Nat)
  | waited
  | skipped
  | stoodOnARefusal (refusedAt : Nat)
  | spareNotNeeded (of : Nat)
  | spareMissing (spare : Nat)
  deriving DecidableEq

structure Order where
  refused : Finset Nat
  running : Bool
  refusal : Option Refusal
  taken : Option TakenSpare
  deriving DecidableEq

structure Stream where
  next : Nat
  skipBelow : Nat
  order : Order
  deriving DecidableEq

def maxRefusedTurns : Nat := 64

def Stream.new : Stream := ⟨0, 0, ⟨∅, false, none, none⟩⟩

namespace Order

def stoodOn (order : Order) (turn : Nat) (tailSkip : Bool) : Option Refusal :=
  order.refusal.filter fun refusal =>
    decide (refusal.turn < turn) && (tailSkip || order.taken.any fun taken => taken.of == refusal.turn)

def admitTurn (order : Order) (turn : Nat) (kind : TurnKind) (tailSkip : Bool) : Except TurnRefused Order :=
  match kind with
  | .follows =>
    match order.stoodOn turn tailSkip with
    | some refusal => .error (.stoodOnARefusal refusal.turn)
    | none => .ok order
  | .restarts => .ok { order with refusal := none, taken := none }
  | .spare of kept token =>
    if order.refusal ≠ some ⟨of, kept, token⟩ || order.taken.any fun taken => taken.of == of then
      .error (.spareNotNeeded of)
    else .ok { order with taken := some ⟨turn, of⟩ }
  | .afterSpare spare =>
    match order.refusal.filter fun refusal => decide (spare ≤ refusal.turn) with
    | some refusal => .error (.stoodOnARefusal refusal.turn)
    | none =>
      if (order.taken.map TakenSpare.spare) ≠ some spare then .error (.spareMissing spare)
      else .ok { order with refusal := none }

end Order

-- The loop over `next`: each turn of it takes a record out or jumps to `skipBelow`,
-- which it does once.
def settleNext (skipBelow : Nat) (running : Bool) : Nat → Finset Nat → Nat → Finset Nat × Nat
  | 0, refused, next => (refused, next)
  | fuel + 1, refused, next =>
    if next ∈ refused then settleNext skipBelow running fuel (refused.erase next) (next + 1)
    else if !running && decide (next < skipBelow) then settleNext skipBelow running fuel refused skipBelow
    else (refused, next)

namespace Stream

def advanceLocked (stream : Stream) (after : Nat) : Stream :=
  let settled := settleNext stream.skipBelow stream.order.running (stream.order.refused.card + 2) stream.order.refused
    (max stream.next after)
  { stream with
    next := settled.2
    order := { stream.order with refused := settled.1.filter fun turn => settled.2 ≤ turn } }

variable (stream : Stream) (turn : Nat)

def raiseSkip : Stream := { stream with skipBelow := max stream.skipBelow turn }

def grant (order : Order) : Stream := { stream with order := { order with running := true } }

def claim (tailSkip : Bool) (turn : Nat) (kind : TurnKind) (stream : Stream) : Except TurnRefused Unit × Stream :=
  if stream.next = turn ∧ stream.order.running = false then
    if turn < stream.skipBelow then (.error .skipped, stream.advanceLocked (turn + 1))
    else
      match stream.order.admitTurn turn kind tailSkip with
      | .error refused => (.error refused, stream.advanceLocked (turn + 1))
      | .ok order => (.ok (), stream.grant order)
  else if turn < stream.skipBelow then (.error .skipped, stream)
  else
    match if kind = .follows then stream.order.stoodOn turn tailSkip else none with
    | some refusal => (.error (.stoodOnARefusal refusal.turn), stream)
    | none => (.error (.alreadyRan stream.next), stream)

def recordArrival : Stream :=
  let recorded :=
    if stream.next ≤ turn ∧ ¬(turn = stream.next ∧ stream.order.running = true) ∧
        stream.order.refused.card < maxRefusedTurns then
      { stream with order := { stream.order with refused := insert turn stream.order.refused } }
    else stream
  recorded.advanceLocked 0

def refusedAGuess (kept token : Nat) : Stream :=
  { stream with order := { stream.order with refusal := some ⟨turn, kept, token⟩ } }

def endTurn : Stream :=
  { stream with order := { stream.order with running := false } }.advanceLocked (turn + 1)

end Stream

inductive StreamOp where
  | raiseSkip (turn : Nat)
  | advanceTo (after : Nat)
  | waitFor (turn : Nat)
  | claim (turn : Nat) (kind : TurnKind)
  | recordArrival (turn : Nat)
  | refusedAGuess (turn kept token : Nat)
  | endTurn (turn : Nat)

abbrev StreamOp.Reply : StreamOp → Type
  | .waitFor _ => Bool
  | .claim _ _ => Except TurnRefused Unit
  | _ => Unit

-- A wait that is not over blocks its thread, until `next` has come far enough or
-- the schedule lets it time out.
def StreamOp.handle (tailSkip : Bool) : (op : StreamOp) → Prog Stream op.Reply
  | .raiseSkip turn => fun machine => (.done (), ⟨machine.store.raiseSkip turn, machine.fates⟩)
  | .advanceTo after => fun machine => (.done (), ⟨machine.store.advanceLocked after, machine.fates⟩)
  | .waitFor turn => fun machine =>
    if machine.fates ≠ [] then (.done false, machine)
    else if turn ≤ machine.store.next then (.done true, machine)
    else (.crashed, machine)
  | .claim turn kind => fun machine =>
    let result := machine.store.claim tailSkip turn kind
    (.done result.1, ⟨result.2, machine.fates⟩)
  | .recordArrival turn => fun machine => (.done (), ⟨machine.store.recordArrival turn, machine.fates⟩)
  | .refusedAGuess turn kept token => fun machine =>
    (.done (), ⟨machine.store.refusedAGuess turn kept token, machine.fates⟩)
  | .endTurn turn => fun machine => (.done (), ⟨machine.store.endTurn turn, machine.fates⟩)

abbrev StreamThread (R : Type) := Routine StreamOp.Reply R

namespace StreamThread

def enter (op : StreamOp) : StreamThread op.Reply := Routine.perform op

def turn (number : Nat) (kind : TurnKind) : StreamThread (Except TurnRefused Unit) := do
  if kind.supersedes then
    enter (.raiseSkip number)
    enter (.advanceTo 0)
  let reached ← enter (.waitFor number)
  if reached then enter (.claim number kind) else pure (.error .waited)

def refusedOnArrival (number : Nat) (kind : TurnKind) : StreamThread Unit := do
  if kind.supersedes then
    enter (.raiseSkip number)
  enter (.recordArrival number)

def hold (number : Nat) : List (Nat × Nat) → StreamThread Unit
  | [] => enter (.endTurn number)
  | (kept, token) :: rest => do
    enter (.refusedAGuess number kept token)
    hold number rest

end StreamThread

inductive StreamCall where
  | forward (turn : Nat) (kind : TurnKind) (refusals : List (Nat × Nat))
  | turnedAway (turn : Nat) (kind : TurnKind)

def StreamCall.thread : StreamCall → StreamThread (Except TurnRefused Unit)
  | .forward turn kind refusals => do
    let taken ← StreamThread.turn turn kind
    match taken with
    | .error refused => pure (.error refused)
    | .ok () =>
      StreamThread.hold turn refusals
      pure (.ok ())
  | .turnedAway turn kind => do
    StreamThread.refusedOnArrival turn kind
    pure (.ok ())

end SwarmLlm.Daemon
