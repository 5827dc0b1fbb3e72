import SwarmLlm.Inference.ReplyText

namespace SwarmLlm.Api

open Lib Inference

def framedCallMarkers : List Text :=
  ["<tool_call>".toList, "[TOOL_CALLS]".toList, "<|python_tag|>".toList, "<|tool_calls|>".toList, "functools".toList,
    "<|tool_call>".toList, "<function=".toList]

def callMarkers : List Text := framedCallMarkers ++ ["\x7b".toList]

variable (text : Text)

def partialMarkerOverlap (marker : Text) : Nat := overlapLen [marker] text

variable (safe : Nat)

def beforeMarker (marker : Text) : Nat :=
  match search marker text with
  | some place => min safe place
  | none => min safe (text.length - partialMarkerOverlap text marker)

def beforeAnyMarker (markers : List Text) : Nat := markers.foldl (beforeMarker text) text.length

def isTagName (name : Text) : Bool :=
  !name.isEmpty && name.all fun symbol => isAsciiAlphanumeric symbol || symbol == '_' || symbol == '-' || symbol == ':'

def lastPlace (symbol : Char) (text : Text) : Option Nat :=
  (search [symbol] text.reverse).map fun place => text.length - 1 - place

def fence : Text := "```".toList

-- Where the last fence stands: the first of the reversed text.
def lastFence : Option Nat :=
  (search fence text.reverse).map fun place => text.length - fence.length - place

def trailingFenceOpener (head : Text) : Option Nat :=
  match lastFence head with
  | none => none
  | some place => if (head.drop (place + fence.length)).all isAsciiAlphanumeric then some place else none

def trailingOpenTag (head : Text) : Option Nat :=
  if head.getLast? = some '>' then
    match lastPlace '<' head.dropLast with
    | none => none
    | some place => if isTagName (head.dropLast.drop (place + 1)) then some place else none
  else none

def retractOverArrayOpener : Nat :=
  let head := trimEnd isWhitespace (text.take safe)
  if head.getLast? = some '[' then head.length - 1 else safe

def retractOverAngleOpener : Nat :=
  if (text.take safe).getLast? = some '<' ∧ (text.drop safe).head? = some '\x7b' then safe - 1 else safe

def retractOverTagOpener : Nat :=
  (trailingOpenTag (trimEnd isWhitespace (text.take safe))).getD safe

def retractOverFenceOpener : Nat :=
  (trailingFenceOpener (trimEnd (fun symbol => symbol == '\n' || symbol == '\r') (text.take safe))).getD safe

def fenceBefore (place : Nat) : Nat :=
  (trailingFenceOpener (trimEnd isWhitespace (text.take place))).getD place

-- The tag still being spelled at the end of the text.
def unfinishedTag : Option Nat :=
  match lastPlace '<' text with
  | none => none
  | some place =>
    let name := text.drop (place + 1)
    if name.isEmpty || isTagName name then some place else none

def unfinishedOpenerStart : Option Nat :=
  match unfinishedTag text with
  | some place => some (fenceBefore text place)
  | none =>
    let ticks := text.length - (trimEnd (fun symbol => symbol == '\x60') text).length
    if ticks = 1 ∨ ticks = 2 then some (text.length - ticks)
    else
      let head := trimEnd isWhitespace text
      match trailingOpenTag head with
      | some place => some (fenceBefore text place)
      | none => trailingFenceOpener head

def retract : Nat :=
  let safe := retractOverArrayOpener text safe
  let safe := retractOverAngleOpener text safe
  let safe := retractOverTagOpener text safe
  retractOverFenceOpener text safe

-- Places are counted in characters, so none is inside one.
def contentPrefixLen : Nat :=
  let safe := beforeAnyMarker text callMarkers
  if safe < text.length then retract text safe else (unfinishedOpenerStart text).getD safe

end SwarmLlm.Api
