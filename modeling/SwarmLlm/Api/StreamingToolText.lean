import SwarmLlm.Api.ToolMarkers

namespace SwarmLlm.Api

open Lib Inference

inductive Reasoning where
  | undecided
  | inside
  | absent
  deriving DecidableEq

inductive ReasoningOut where
  | separate
  | withheld
  deriving DecidableEq

-- The buffer of a streamed reply, past the harmony rewriter. The slot of the prompt's
-- verdict is read once, when the reply has a character that is not blank.
structure Buffer where
  text : Text
  emitted : Nat
  reasoning : Reasoning
  toolsRequested : Bool
  reasoningOut : ReasoningOut
  reasoningFrom : Option Nat
  reasoningTo : Option Nat
  reasoningReleased : Nat
  contentFrom : Nat
  block : ReasoningBlock
  promptOpened : Option PromptOpened
  deriving DecidableEq

namespace Buffer

def new (toolsRequested : Bool) (reasoningOut : ReasoningOut) (opened : PromptOpened) : Buffer where
  text := []
  emitted := 0
  reasoning := .undecided
  toolsRequested := toolsRequested
  reasoningOut := reasoningOut
  reasoningFrom := none
  reasoningTo := none
  reasoningReleased := 0
  contentFrom := 0
  block := ⟨"<think>".toList, "</think>".toList⟩
  promptOpened := some opened

variable (buffer : Buffer)

def releasableLen : Nat :=
  if buffer.toolsRequested then
    max (buffer.contentFrom + contentPrefixLen (buffer.text.drop buffer.contentFrom)) buffer.emitted
  else buffer.text.length

def putBack : Buffer :=
  match buffer.promptOpened with
  | some opened =>
    if trim buffer.text = [] then buffer
    else { buffer with text := opened.putInFrontOf buffer.text, promptOpened := none }
  | none => buffer

def withholdInside : Bool × Buffer :=
  match search buffer.block.close buffer.text with
  | none => (true, buffer)
  | some place =>
    let after := place + buffer.block.close.length
    let tail := buffer.text.drop after
    let blank := leadLen isWhitespace tail
    if blank = tail.length then (true, { buffer with reasoningTo := some place })
    else (false, { buffer with
      reasoningTo := some place
      emitted := max buffer.emitted (after + blank)
      contentFrom := after + blank
      reasoning := .absent })

def withholdUndecided : Bool × Buffer :=
  let lead := leadLen isWhitespace buffer.text
  let rest := buffer.text.drop lead
  match openingReasoningBlock rest with
  | some block =>
    let start := lead + block.opener.length
    { buffer with
      reasoning := .inside
      block := block
      reasoningFrom := some start
      reasoningReleased := start }.withholdInside
  | none =>
    if reasoningBlocks.any fun block => decide (rest <+: block.opener) then (true, buffer)
    else (false, { buffer with
      emitted := max buffer.emitted (leadLen isReplyLeadingWhitespace buffer.text)
      reasoning := .absent })

def withholdingReasoning : Bool × Buffer :=
  match buffer.reasoning with
  | .absent => (false, buffer)
  | .undecided => buffer.putBack.withholdUndecided
  | .inside => buffer.withholdInside

def release : Text × Buffer :=
  let safe := buffer.releasableLen
  if buffer.emitted < safe then (between buffer.text buffer.emitted safe, { buffer with emitted := safe }) else ([], buffer)

-- The texts returned here are empty where the source returns `None`.
def released : Text × Buffer :=
  match buffer.withholdingReasoning with
  | (true, held) => ([], held)
  | (false, free) => free.release

def push (piece : Text) : Text × Buffer := { buffer with text := buffer.text ++ piece }.released

def releaseReasoning (limit : Nat) : Text × Buffer :=
  if buffer.reasoningOut ≠ .separate then ([], buffer)
  else
    match buffer.reasoningFrom with
    | none => ([], buffer)
    | some start =>
      let resumed := min buffer.reasoningReleased limit
      let first := if resumed = start then resumed + leadLen isWhitespace (between buffer.text resumed limit) else resumed
      let text := trimEnd isWhitespace (between buffer.text first limit)
      if text = [] then ([], buffer) else (text, { buffer with reasoningReleased := first + text.length })

def thinkingLimit (start : Nat) : Nat :=
  let unclosed := buffer.text.length - partialMarkerOverlap buffer.text buffer.block.close
  if buffer.toolsRequested then start + beforeAnyMarker (between buffer.text start unclosed) framedCallMarkers else unclosed

def takeReasoning : Text × Buffer :=
  match buffer.reasoningTo, buffer.reasoningFrom with
  | some stop, _ => buffer.releaseReasoning stop
  | none, some start =>
    if buffer.reasoning = .inside then buffer.releaseReasoning (buffer.thinkingLimit start) else ([], buffer)
  | none, none => ([], buffer)

def finishReasoning (aCallEndsIt : Bool) : Text × Buffer :=
  match buffer.reasoningTo, buffer.reasoningFrom with
  | some stop, _ => buffer.releaseReasoning stop
  | none, some start =>
    if aCallEndsIt then buffer.releaseReasoning (start + contentPrefixLen (buffer.text.drop start))
    else buffer.releaseReasoning buffer.text.length
  | none, none => ([], buffer)

def dropOpening : Buffer :=
  if buffer.emitted = 0 then { buffer with emitted := leadLen isReplyLeadingWhitespace buffer.text } else buffer

def pendingAll : Text × Buffer :=
  if buffer.reasoning = .inside ∧ (buffer.reasoningTo.isSome ∨ buffer.reasoningOut = .separate) then
    ([], { buffer with emitted := buffer.text.length })
  else
    let opened := buffer.dropOpening
    if opened.emitted < opened.text.length then
      (opened.text.drop opened.emitted, { opened with emitted := opened.text.length })
    else ([], opened)

end Buffer

inductive HarmonyRead where
  | undecided
  | off
  | on (reply : Harmony.Reply)
  deriving DecidableEq

structure StreamingToolText where
  buffer : Buffer
  harmony : HarmonyRead
  deriving DecidableEq

-- `none`: the harmony rewriter has not come to its end.
variable (isJson : Text → Bool) (fuel : Nat)

namespace StreamingToolText

def new (toolsRequested : Bool) (reasoningOut : ReasoningOut) (opened : PromptOpened) : StreamingToolText :=
  ⟨Buffer.new toolsRequested reasoningOut opened, .undecided⟩

variable (reply : StreamingToolText)

def settleHarmony (token : Text) : StreamingToolText :=
  if reply.harmony = .undecided ∧ ¬(trim reply.buffer.text = [] ∧ trim token = []) then
    { reply with
      harmony := if reply.buffer.promptOpened = some .harmony then .on Harmony.Reply.new else .off }
  else reply

def readPiece (token : Text) : Option (Text × StreamingToolText) :=
  let settled := reply.settleHarmony token
  match settled.harmony with
  | .on rewriter => (rewriter.push isJson fuel token).map fun read => (read.1, { settled with harmony := .on read.2 })
  | _ => some (token, settled)

def push (reply : StreamingToolText) (token : Text) : Option (Text × StreamingToolText) :=
  (reply.readPiece isJson fuel token).map fun read =>
    let pushed := read.2.buffer.push read.1
    (pushed.1, { read.2 with buffer := pushed.2 })

def endOfReply : StreamingToolText :=
  match reply.harmony with
  | .on rewriter =>
    let ended := rewriter.finish isJson
    if ended.1 = [] then ⟨reply.buffer, .on ended.2⟩
    else ⟨{ reply.buffer with text := reply.buffer.text ++ ended.1 }.withholdingReasoning.2, .on ended.2⟩
  | _ => reply

def pendingContent : Text × StreamingToolText :=
  let ended := reply.endOfReply isJson
  let pending := ended.buffer.released
  (pending.1, { ended with buffer := pending.2 })

def takeReasoning (reply : StreamingToolText) : Text × StreamingToolText :=
  let taken := reply.buffer.takeReasoning
  (taken.1, { reply with buffer := taken.2 })

def finishReasoning (reply : StreamingToolText) (aCallEndsIt : Bool) : Text × StreamingToolText :=
  let ended := reply.endOfReply isJson
  let finished := ended.buffer.finishReasoning aCallEndsIt
  (finished.1, { ended with buffer := finished.2 })

def pendingAll (reply : StreamingToolText) : Text × StreamingToolText :=
  let ended := reply.endOfReply isJson
  let pending := ended.buffer.pendingAll
  (pending.1, { ended with buffer := pending.2 })

end StreamingToolText

end SwarmLlm.Api
