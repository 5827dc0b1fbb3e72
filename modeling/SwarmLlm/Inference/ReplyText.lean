import SwarmLlm.Inference.Harmony

namespace SwarmLlm.Inference

open Lib

def isReplyLeadingWhitespace (symbol : Char) : Bool := symbol == '\n' || symbol == '\r' || symbol == ' '

def controlTokenNames : List Text :=
  ["im_end".toList, "im_start".toList, "eot_id".toList, "eom_id".toList, "start_header_id".toList, "end_header_id".toList,
    "endoftext".toList, "python_tag".toList, "end_of_turn".toList, "start_of_turn".toList, "end".toList, "user".toList,
    "assistant".toList, "system".toList]

def isAsciiAlphanumeric (symbol : Char) : Bool :=
  (48 ≤ symbol.toNat && symbol.toNat ≤ 57) || (65 ≤ symbol.toNat && symbol.toNat ≤ 90) ||
    (97 ≤ symbol.toNat && symbol.toNat ≤ 122)

-- What is left of a text that opens with the spelling of a control token, past the
-- run of terminators behind its name.
def pastControlToken : Text → Option Text
  | '<' :: '|' :: rest =>
    let name := rest.takeWhile fun symbol => isAsciiAlphanumeric symbol || symbol == '_'
    if name ∈ controlTokenNames then
      some ((rest.drop name.length).dropWhile fun symbol => symbol == '|' || symbol == '>')
    else none
  | _ => none

def stripLoop : Nat → Text → Text
  | 0, _ => []
  | _, [] => []
  | fuel + 1, symbol :: rest =>
    match pastControlToken (symbol :: rest) with
    | some left => stripLoop fuel left
    | none => symbol :: stripLoop fuel rest

variable (text : Text)

def stripControlTokenArtifacts : Text :=
  if search "<|".toList text = none then text else stripLoop text.length text

structure ReasoningBlock where
  opener : Text
  close : Text
  deriving DecidableEq

def reasoningBlocks : List ReasoningBlock :=
  [⟨"<think>".toList, "</think>".toList⟩, ⟨"<|channel>thought".toList, "<channel|>".toList⟩]

def openingReasoningBlock : Option ReasoningBlock :=
  reasoningBlocks.find? fun block => decide (block.opener <+: text)

inductive PromptOpened where
  | nothing
  | inside (block : ReasoningBlock)
  | harmony
  deriving DecidableEq

def PromptOpened.putInFrontOf (opened : PromptOpened) (reply : Text) : Text :=
  match opened with
  | .inside block => if trim reply = [] then reply else block.opener ++ reply
  | _ => reply

def takeLeadingReasoningBlock : Text × Option Text :=
  let lead := leadLen isWhitespace text
  match openingReasoningBlock (text.drop lead) with
  | none => (text, none)
  | some block =>
    match search block.close (text.drop lead) with
    | none => (text, none)
    | some place =>
      let inner := trim ((text.take (lead + place)).drop (lead + block.opener.length))
      let after := lead + place + block.close.length
      (text.drop (after + leadLen isWhitespace (text.drop after)), if inner = [] then none else some inner)

def truncateAtStop (text : Text) : List Text → Text × Option Text
  | [] => (text, none)
  | stop :: rest =>
    match search stop text with
    | some place => (text.take place, some stop)
    | none => truncateAtStop text rest

-- Of each stop the longest proper beginning the text ends in.
def trimTrailingPartialStop (text : Text) : List Text → Text
  | [] => text
  | stop :: rest =>
    if overlapLen [stop] text = 0 then trimTrailingPartialStop text rest
    else text.take (text.length - overlapLen [stop] text)

structure FinishedReply where
  stop : Option Text
  reasoning : Option Text
  deriving DecidableEq

def finalizeText (stops : List Text) (opened : PromptOpened) : Text × FinishedReply :=
  let taken := takeLeadingReasoningBlock (opened.putInFrontOf (stripControlTokenArtifacts text))
  let truncated := truncateAtStop taken.1 stops
  let trimmed := trimTrailingPartialStop truncated.1 stops
  (trimStart isReplyLeadingWhitespace trimmed, ⟨truncated.2, taken.2⟩)

def finalizeReplyText (isJson : Text → Bool) (fuel : Nat) (text : Text) (stops : List Text) (opened : PromptOpened) :
    Option (Text × FinishedReply) :=
  if opened = .harmony then (Harmony.rewrite isJson fuel text).map fun text => finalizeText text stops opened
  else some (finalizeText text stops opened)

end SwarmLlm.Inference
