import SwarmLlm.Lib.Passes
import SwarmLlm.Lib.Text

namespace SwarmLlm.Inference.Harmony

open Lib

def startMarker : Text := "<|start|>".toList
def endMarker : Text := "<|end|>".toList
def messageMarker : Text := "<|message|>".toList
def channelMarker : Text := "<|channel|>".toList
def constrainMarker : Text := "<|constrain|>".toList
def returnMarker : Text := "<|return|>".toList
def callMarker : Text := "<|call|>".toList

def bodyEnds : List Text := [endMarker, startMarker, returnMarker, callMarker]

def headerOpeners : List Text := [channelMarker, startMarker, " to=".toList, constrainMarker, messageMarker]

def headerLimit : Nat := 256

inductive Body where
  | reasoning
  | content
  | call
  | unseen
  deriving DecidableEq

inductive State where
  | header
  | body (kind : Body)
  | plain
  deriving DecidableEq

inductive Header where
  | reasoning
  | content
  | call (name : Text)
  | unseen
  deriving DecidableEq

def word (text : Text) : Text := text.takeWhile fun symbol => !(isWhitespace symbol || symbol == '<')

def afterEach (pattern text : Text) : List Text := text.tails.filterMap fun rest => rest.dropPrefix? pattern

def fromOther (header : Text) : Bool :=
  match header.dropPrefix? startMarker with
  | none => false
  | some rest => word rest != "assistant".toList

def recipient (header : Text) : Option Text :=
  (((afterEach "to=".toList header).map word).filter fun name => !name.isEmpty && name != "assistant".toList).getLast?

def channel (header : Text) : Text := (((afterEach channelMarker header).getLast?).map word).getD []

def readHeader (header : Text) : Header :=
  if fromOther header then .unseen
  else
    match recipient header with
    | some recipient =>
      match recipient.dropPrefix? "functions.".toList with
      | some name => if name.isEmpty then .unseen else .call name
      | none => .unseen
    | none => if channel header = "analysis".toList then .reasoning else .content

def hexDigit (value : Nat) : Char := if value < 10 then Char.ofNat (48 + value) else Char.ofNat (87 + value)

def escaped (symbol : Char) : Text :=
  match symbol.toNat with
  | 0x08 => "\\b".toList
  | 0x09 => "\\t".toList
  | 0x0A => "\\n".toList
  | 0x0C => "\\f".toList
  | 0x0D => "\\r".toList
  | 0x22 => "\\\"".toList
  | 0x5C => "\\\\".toList
  | code => if code < 0x20 then "\\u00".toList ++ [hexDigit (code / 16), hexDigit (code % 16)] else [symbol]

def quoted (text : Text) : Text := "\"".toList ++ (text.flatMap escaped ++ "\"".toList)

structure Progress where
  state : State
  first : Bool
  call : Option (Text × Text)
  thinking : Bool
  reasoningEnded : Bool
  answered : Bool
  wroteContent : Bool
  fresh : Bool
  finished : Bool
  deriving DecidableEq

structure Reply where
  held : Text
  progress : Progress
  deriving DecidableEq

def Reply.new : Reply := ⟨[], ⟨.header, true, none, false, false, false, false, true, false⟩⟩

variable (isJson : Text → Bool)

namespace Progress

variable (progress : Progress)

def write (kind : Body) (text : Text) : Text × Progress :=
  if text = [] then ([], progress)
  else
    match kind with
    | .reasoning =>
      let mark := if !progress.thinking then "<think>".toList else if progress.fresh then "\n\n".toList else []
      (mark ++ text, { progress with thinking := true, fresh := false })
    | .content =>
      let mark := if progress.fresh && progress.wroteContent then "\n\n".toList else []
      (mark ++ text, { progress with wroteContent := true, fresh := false })
    | .call => ([], { progress with call := progress.call.map fun call => (call.1, call.2 ++ text), fresh := false })
    | .unseen => ([], { progress with fresh := false })

def endThinking : Text × Progress :=
  if progress.thinking then ("</think>\n\n".toList, { progress with thinking := false }) else ([], progress)

def writeCall : Text × Progress :=
  match progress.call with
  | none => ([], progress)
  | some (name, args) =>
    let args := trim args
    let arguments := if isJson args then args else quoted args
    ("<tool_call>\n\x7b\"name\": ".toList ++ (quoted name ++ (", \"arguments\": ".toList ++ (arguments ++
      "\x7d\n</tool_call>".toList))), { progress with call := none })

def close (kind : Body) (ended : Bool) : Text × Progress :=
  match kind with
  | .reasoning => ([], { progress with reasoningEnded := ended })
  | .call => progress.writeCall isJson
  | .content | .unseen => ([], progress)

def openBody (header : Text) : Text × Progress :=
  let fresh := { progress with fresh := true }
  match readHeader header with
  | .reasoning =>
    if progress.answered then ([], { fresh with state := .body .unseen })
    else ([], { fresh with reasoningEnded := false, state := .body .reasoning })
  | .content =>
    let ended := fresh.endThinking
    (ended.1, { ended.2 with answered := true, state := .body .content })
  | .call name =>
    let ended := fresh.endThinking
    (ended.1, { ended.2 with answered := true, call := some (name, []), state := .body .call })
  | .unseen => ([], { fresh with state := .body .unseen })

def endBody (kind : Body) (text : Text) (ended : Bool) : Text × Progress :=
  let written := progress.write kind text
  let closed := written.2.close isJson kind ended
  (written.1 ++ closed.1, closed.2)

end Progress

def markerPrefixLen (text : Text) : Nat := overlapLen bodyEnds text

def isLeadingWhitespace (symbol : Char) : Bool := symbol == '\n' || symbol == '\r' || symbol == ' '

-- The text opens as a header does: as written, or past newlines and spaces.
def opens (held : Text) : Bool :=
  headerOpeners.any fun opener => decide (opener <+: held) || decide (opener <+: trimStart isLeadingWhitespace held)

def mayOpen (held : Text) : Bool :=
  headerOpeners.any fun opener => decide (held <+: opener) || decide (trimStart isLeadingWhitespace held <+: opener)

def awaits (held : Text) : Bool := (opens held && decide (utf8Len held ≤ headerLimit)) || mayOpen held

namespace Reply

def headerPass (reply : Reply) : Pass Char Reply :=
  match search messageMarker reply.held with
  | some place =>
    let opened := { reply.progress with first := false }.openBody (reply.held.take place)
    .again opened.1 ⟨reply.held.drop (place + messageMarker.length), opened.2⟩
  | none =>
    if awaits reply.held then .returns [] reply
    else if reply.progress.first then .again [] ⟨reply.held, { reply.progress with state := .plain }⟩
    else
      let opened := reply.progress.openBody []
      .again opened.1 ⟨reply.held, opened.2⟩

def bodyPass (reply : Reply) (kind : Body) : Pass Char Reply :=
  match firstOf bodyEnds reply.held with
  | some (place, marker) =>
    let consumed := if marker = startMarker then place else place + marker.length
    let ended := reply.progress.endBody isJson kind (reply.held.take place) (marker == endMarker)
    .again ended.1 ⟨reply.held.drop consumed, { ended.2 with state := .header }⟩
  | none =>
    let ready := reply.held.length - markerPrefixLen reply.held
    let written := reply.progress.write kind (reply.held.take ready)
    .returns written.1 ⟨reply.held.drop ready, written.2⟩

def pass (reply : Reply) : Pass Char Reply :=
  match reply.progress.state with
  | .plain => .returns reply.held ⟨[], reply.progress⟩
  | .header => reply.headerPass
  | .body kind => reply.bodyPass isJson kind

def more (reply : Reply) (raw : Text) : Reply := ⟨reply.held ++ raw, reply.progress⟩

def push (fuel : Nat) (reply : Reply) (raw : Text) : Option (Text × Reply) := passes (pass isJson) fuel (reply.more raw)

def closeThinking (out : Text) (reply : Reply) : Text × Reply :=
  if reply.progress.thinking && reply.progress.reasoningEnded then
    (out ++ "</think>".toList, ⟨reply.held, { reply.progress with thinking := false }⟩)
  else (out, reply)

def finish (reply : Reply) : Text × Reply :=
  if reply.progress.finished then ([], reply)
  else
    let progress := { reply.progress with finished := true }
    match progress.state with
    | .plain => closeThinking reply.held ⟨[], progress⟩
    | .header => closeThinking (if progress.first then reply.held else []) ⟨[], progress⟩
    | .body kind =>
      let ended := progress.endBody isJson kind reply.held false
      closeThinking ended.1 ⟨[], ended.2⟩

end Reply

def streamed (fuel : Nat) (pieces : List Text) : Option Text :=
  (pushEach (Reply.pass isJson) Reply.more fuel Reply.new pieces).map fun pushed => pushed.1 ++ (pushed.2.finish isJson).1

def rewrite (fuel : Nat) (raw : Text) : Option Text :=
  (Reply.new.push isJson fuel raw).map fun pushed => pushed.1 ++ (pushed.2.finish isJson).1

end SwarmLlm.Inference.Harmony
