import SwarmLlm.Inference.FlowTree
import SwarmLlm.Lib.Decoding
import SwarmLlm.Lib.Run

namespace SwarmLlm.Inference

open Lib

inductive WalkEnd where
  | waiting (row : Nat)
  | missed (row : Nat) (token : Token)
  deriving DecidableEq

-- A child comes after its parent, so the tree's rows bound the steps.
def walkDraws (tree : DraftTree) (tokens : List Token) (draws : List (Option Token)) : Nat → Nat → List Token × WalkEnd
  | 0, row => ([], .waiting row)
  | fuel + 1, row =>
    match (draws[row]?).join with
    | none => ([], .waiting row)
    | some draw =>
      match (tree.children (some row)).find? fun child => tokens[child]? == some draw with
      | none => ([draw], .missed row draw)
      | some next =>
        let later := walkDraws tree tokens draws fuel next
        (draw :: later.1, later.2)

structure Rows where
  indexPos : Nat
  tokens : List Token
  wire : List Nat
  start : Nat
  lead : Nat
  firstRow : Nat
  rebasesTo : Option Nat

structure Sent where
  epoch : Nat
  lead : Nat
  firstRow : Nat
  rows : Nat
  rebasesTo : Option Nat

structure Waiting where
  sent : Sent
  drawn : List Token

structure FlowRun where
  turn : Nat
  flow : FlowTree
  draws : List (Option Token)
  sent : Nat
  epoch : Nat
  remap : Option (Nat × List (Option Nat))
  out : List Waiting
  settledBase : Nat
  unsettled : Bool
  bonusWaiting : Option Token
  generated : List Token
  -- Every segment's cache, which a forward cuts to its place and adds its rows to.
  cache : List Token
  emitted : List Token

structure FlowConfig where
  maxTokens : Nat
  eos : List Token

inductive Taken where
  | carryOn
  | done
  | failed (message : String)
  deriving DecidableEq

-- The far end's side of a forward: the rows it reads end the tree, which starts at
-- `start` of the cache.
def Rows.held (rows : Rows) (cache : List Token) : List Token := cache.take rows.indexPos ++ rows.tokens

variable (next : List Token → Token)

def Rows.drawn (rows : Rows) (cache : List Token) : List Token :=
  let parents : Parents := rows.wire.map fun word => if word = 0 then none else some (word - 1)
  (List.range' (rows.indexPos - rows.start) rows.tokens.length).map fun row =>
    next ((rows.held cache).take rows.start ++ (path parents row).map fun other => (rows.held cache).getD (rows.start + other) 0)

def maxTurn : Nat := 1048575

namespace FlowRun

variable (run : FlowRun)

def send (rows : Rows) : Except String FlowRun :=
  if maxTurn < run.turn then .error "a tree that flows ran past its forwards' numbering"
  else
    .ok { run with
      turn := run.turn + 1
      sent := run.flow.length
      cache := rows.held run.cache
      out := run.out ++ [⟨⟨run.epoch, rows.lead, rows.firstRow, rows.tokens.length, rows.rebasesTo⟩, rows.drawn next run.cache⟩] }

def rowsUnsent : Rows where
  indexPos := run.flow.base + run.sent
  tokens := run.flow.tokens.drop run.sent
  wire := run.flow.tree.toWire
  start := run.flow.base
  lead := 0
  firstRow := run.sent
  rebasesTo := none

def newIndex (rows : Nat) (kept : List Nat) : List (Option Nat) :=
  (List.range rows).map fun old => if old ∈ kept then some (kept.idxOf old) else none

def cutTo (rebased : Rebased) (cut : FlowTree) : FlowRun :=
  { run with
    flow := cut
    draws := rebased.kept.map fun old => (run.draws[old]?).join
    remap := some (run.epoch, newIndex run.flow.length rebased.kept)
    epoch := run.epoch + 1 }

def rowsRebased (rebased : Rebased) (cut : FlowTree) : Rows where
  indexPos := rebased.oldBase
  tokens := (cut.rebaseForward rebased).1
  wire := (cut.rebaseForward rebased).2
  start := rebased.oldBase
  lead := rebased.path.length
  firstRow := 0
  rebasesTo := some cut.base

def rebase (next : List Token → Token) (run : FlowRun) : Except String FlowRun :=
  match run.flow.rebase with
  | .error message => .error message
  | .ok (rebased, cut) =>
    match (run.cutTo rebased cut).send next (rowsRebased rebased cut) with
    | .error message => .error message
    | .ok sent => .ok { sent with unsettled := true }

def grow (parent : Nat) (token : Token) : Except String (Nat × FlowRun) :=
  match run.flow.push parent token with
  | .error message => .error message
  | .ok (row, grown) => .ok (row, { run with flow := grown, draws := run.draws ++ [none] })

def advance (run : FlowRun) (row : Nat) : Except String FlowRun :=
  if row = run.flow.here then .ok run
  else
    match run.flow.advance row with
    | .error message => .error message
    | .ok moved => .ok { run with flow := moved }

def pushBonus (token : Token) : Except String FlowRun :=
  match run.grow run.flow.here token with
  | .error message => .error message
  | .ok (row, grown) => grown.advance row

def pushWaitingBonus : Except String FlowRun :=
  match run.bonusWaiting with
  | none => .ok run
  | some token =>
    let taken := { run with bonusWaiting := none }
    if maxTreeRows < taken.flow.length + 1 then
      match taken.rebase next with
      | .error message => .error message
      | .ok cut => cut.pushBonus token
    else taken.pushBonus token

def settle : WalkEnd → Except String FlowRun
  | .waiting row => run.advance row
  | .missed row token =>
    match run.advance row with
    | .error message => .error message
    | .ok moved =>
      if maxTreeRows < moved.flow.length + 1 then
        if moved.unsettled then .ok { moved with bonusWaiting := some token }
        else
          match moved.rebase next with
          | .error message => .error message
          | .ok cut => cut.pushBonus token
      else moved.pushBonus token

variable (config : FlowConfig) (run : FlowRun)

def replyTokens (walked : List Token) : List Token :=
  let ended :=
    match walked.findIdx? fun token => config.eos.contains token with
    | none => walked
    | some last => walked.take (last + 1)
  ended.take (max (config.maxTokens - run.generated.length) 1)

def emit (tokens : List Token) : FlowRun := { run with emitted := run.emitted ++ tokens }

def keep (tokens : List Token) : FlowRun := { run with generated := run.generated ++ tokens }

def walk (closed : Bool) : FlowRun × Taken :=
  let walked := walkDraws run.flow.tree run.flow.tokens run.draws run.flow.length run.flow.here
  if walked.1.isEmpty then (run, .carryOn)
  else
    let reply := replyTokens config run walked.1
    if closed then (run.emit reply, .done)
    else
      let kept := (run.emit reply).keep reply
      if config.eos.contains (reply.getLastD 0) || config.maxTokens ≤ kept.generated.length then (kept, .done)
      else
        match kept.settle next walked.2 with
        | .error message => (kept, .failed message)
        | .ok moved => (moved, .carryOn)

def record (place : Nat → Option Nat) : Nat → List Token → List (Option Token) → List (Option Token)
  | _, [], draws => draws
  | row, draw :: rest, draws =>
    record place (row + 1) rest
      (match place row with
      | none => draws
      | some slot => draws.modify slot fun held => some (held.getD draw))

inductive Reply where
  | refused (why : String)
  | drawn (tokenIds : List Token)

def places (sent : Sent) : Option (Nat → Option Nat) :=
  if sent.epoch = run.epoch then some some
  else
    match run.remap with
    | none => none
    | some (epoch, rows) =>
      if epoch + 1 = run.epoch ∧ epoch = sent.epoch then some fun row => (rows[row]?).join else none

def answered (sent : Sent) : FlowRun :=
  match sent.rebasesTo with
  | none => run
  | some base => { run with settledBase := base, unsettled := false }

def takeAnswer (sent : Sent) (reply : Reply) (closed : Bool) :
    FlowRun × Taken :=
  match reply with
  | .refused why => if sent.epoch = run.epoch then (run, .failed why) else (run, .carryOn)
  | .drawn tokenIds =>
    if tokenIds.length ≠ sent.rows then
      if sent.epoch = run.epoch then
        (run, .failed ("a tree that flows: " ++ toString sent.rows ++ " rows answered with " ++ toString tokenIds.length ++
          " draws"))
      else (run, .carryOn)
    else
      let heard := run.answered sent
      match heard.places sent with
      | none => (heard, .carryOn)
      | some place =>
        let noted := { heard with draws := record place sent.firstRow (tokenIds.drop sent.lead) heard.draws }
        if noted.bonusWaiting.isSome then (noted, .carryOn) else noted.walk next config closed

end FlowRun

inductive FlowEvent where
  | propose (parent : Nat) (token : Token)
  | copy (parent : Nat) (token : Token)
  | send
  | rebase
  | pushWaitingBonus
  | answer (index : Nat) (reply : FlowRun.Reply) (closed : Bool)

structure FlowState where
  run : FlowRun
  stopped : Bool

def FlowState.after (state : FlowState) : Except String FlowRun → FlowState
  | .error _ => { state with stopped := true }
  | .ok run => { state with run := run }

def FlowState.act (config : FlowConfig) (state : FlowState) : FlowEvent → FlowState
  | .propose parent token => state.after ((state.run.grow parent token).map Prod.snd)
  | .copy parent token =>
    match state.run.grow parent token with
    | .error _ => state
    | .ok (_, grown) => state.after (.ok grown)
  | .send => state.after (state.run.send next state.run.rowsUnsent)
  | .rebase => state.after (state.run.rebase next)
  | .pushWaitingBonus => state.after (state.run.pushWaitingBonus next)
  | .answer index reply closed =>
    match state.run.out[index]? with
    | none => state
    | some waiting =>
      let taken := { state.run with out := state.run.out.eraseIdx index }.takeAnswer next config waiting.sent reply closed
      ⟨taken.1, taken.2 != .carryOn⟩

def FlowState.step (config : FlowConfig) (state : FlowState) (event : FlowEvent) : FlowState :=
  if state.stopped then state else state.act next config event

def FlowState.Honest (state : FlowState) : FlowEvent → Prop
  | .answer index (.drawn tokenIds) _ =>
    ∀ waiting ∈ state.run.out[index]?, tokenIds.length = waiting.sent.rows → tokenIds = waiting.drawn
  | _ => True

instance honestDecidable (state : FlowState) (event : FlowEvent) : Decidable (state.Honest event) :=
  match event with
  | .answer index (.drawn tokenIds) _ =>
    inferInstanceAs
      (Decidable (∀ waiting ∈ state.run.out[index]?, tokenIds.length = waiting.sent.rows → tokenIds = waiting.drawn))
  | .answer _ (.refused _) _ => isTrue trivial
  | .propose _ _ => isTrue trivial
  | .copy _ _ => isTrue trivial
  | .send => isTrue trivial
  | .rebase => isTrue trivial
  | .pushWaitingBonus => isTrue trivial

def FlowRun.start (flow : FlowTree) (context generated : List Token) : FlowRun where
  turn := 0
  flow := flow
  draws := [none]
  sent := 0
  epoch := 0
  remap := none
  out := []
  settledBase := flow.base
  unsettled := false
  bonusWaiting := none
  generated := generated
  cache := context
  emitted := []

end SwarmLlm.Inference
