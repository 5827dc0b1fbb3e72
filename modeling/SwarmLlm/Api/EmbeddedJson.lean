import SwarmLlm.Lib.Text

namespace SwarmLlm.Api

open Lib

inductive Json where
  | null
  | bool (value : Bool)
  | number (text : Text)
  | string (text : Text)
  | array (items : List Json)
  | object (fields : List (Text × Json))

namespace Json

def get (value : Json) (key : Text) : Option Json :=
  match value with
  | .object fields => (fields.find? fun field => decide (field.1 = key)).map Prod.snd
  | _ => none

def asStr : Json → Option Text
  | .string text => some text
  | _ => none

def asArray : Json → Option (List Json)
  | .array items => some items
  | _ => none

def isObject : Json → Bool
  | .object _ => true
  | _ => false

-- An object, or an array with one among its items.
def holdsObject : Json → Bool
  | .object _ => true
  | .array items => items.any isObject
  | _ => false

theorem get_object {value member : Json} {key : Text} (found : value.get key = some member) : value.isObject = true := by
  cases value with
  | object fields => rfl
  | null | bool | number | string | array => cases found

theorem object_held {value : Json} (object : value.isObject = true) : value.holdsObject = true := by
  cases value with
  | object fields => rfl
  | null | bool | number | string | array => cases object

end Json

-- The JSON library. An object is only ever read from a text with its brace.
structure JsonReader where
  fromStr : Text → Option Json
  toText : Json → Text
  braced : ∀ text value, fromStr text = some value → value.holdsObject = true → '\x7b' ∈ text

-- The scan that balances braces outside strings: how many characters there are up to
-- the brace that closes the first.
def objectLen (depth : Nat) (inString escaped : Bool) : Text → Option Nat
  | [] => none
  | symbol :: rest =>
    if escaped then (objectLen depth inString false rest).map Nat.succ
    else if symbol = '\\' ∧ inString = true then (objectLen depth inString true rest).map Nat.succ
    else if symbol = '"' then (objectLen depth (!inString) false rest).map Nat.succ
    else if symbol = '\x7b' ∧ inString = false then (objectLen (depth + 1) inString false rest).map Nat.succ
    else if symbol = '\x7d' ∧ inString = false then
      if depth - 1 = 0 then some 1 else (objectLen (depth - 1) inString false rest).map Nat.succ
    else (objectLen depth inString false rest).map Nat.succ

def closer (delimiter : Char) : Char := if delimiter = '[' then ']' else '\x7d'

-- The delimiters still open at the end, the innermost first, and whether the end is
-- inside a string; nothing where one is closed by the wrong closer.
def openDelimiters (stack : List Char) (inString escaped : Bool) : Text → Option (List Char × Bool)
  | [] => some (stack, inString)
  | symbol :: rest =>
    if escaped then openDelimiters stack inString false rest
    else if symbol = '\\' ∧ inString = true then openDelimiters stack inString true rest
    else if symbol = '"' then openDelimiters stack (!inString) false rest
    else if (symbol = '\x7b' ∨ symbol = '[') ∧ inString = false then openDelimiters (symbol :: stack) inString false rest
    else if symbol = '\x7d' ∧ inString = false then
      if stack.head? = some '\x7b' then openDelimiters stack.tail inString false rest else none
    else if symbol = ']' ∧ inString = false then
      if stack.head? = some '[' then openDelimiters stack.tail inString false rest else none
    else openDelimiters stack inString false rest

def maxClosers : Nat := 4

def closeOpenDelimiters (slice : Text) : Option Text :=
  match openDelimiters [] false false slice with
  | none => none
  | some (stack, inString) =>
    if inString = true ∨ stack = [] ∨ maxClosers < stack.length then none
    else
      match (trimEnd isWhitespace slice).getLast? with
      | none => none
      | some last =>
        if last = ',' ∨ last = ':' then none else some (trimEnd isWhitespace slice ++ stack.map closer)

def maxRepairs : Nat := 4

def bytesAsChars (symbol : Char) : Text := (String.utf8EncodeChar symbol).map fun byte => Char.ofNat byte.toNat

-- The closers of the delimiters skipped over, the repairs made, and the stack left with the wanted one on top.
def closeSkipped (want : Char) : List Char → Nat → Option (Text × Nat × List Char)
  | [], repairs => some ([], repairs, [])
  | top :: stack, repairs =>
    if top = want then some ([], repairs, top :: stack)
    else if maxRepairs < repairs + 1 then none
    else (closeSkipped want stack (repairs + 1)).map fun closed => (closer top :: closed.1, closed.2)

def repairLoop (stack : List Char) (inString escaped : Bool) (repairs : Nat) : Text → Option (Text × List Char × Nat)
  | [] => some ([], stack, repairs)
  | symbol :: rest =>
    let push (pushed : Text) (read : Option (Text × List Char × Nat)) : Option (Text × List Char × Nat) :=
      read.map fun later => (pushed ++ later.1, later.2)
    if escaped then push (bytesAsChars symbol) (repairLoop stack inString false repairs rest)
    else if symbol = '\\' ∧ inString = true then push [symbol] (repairLoop stack inString true repairs rest)
    else if symbol = '"' then push [symbol] (repairLoop stack (!inString) false repairs rest)
    else if (symbol = '\x7b' ∨ symbol = '[') ∧ inString = false then
      push [symbol] (repairLoop (symbol :: stack) inString false repairs rest)
    else if (symbol = '\x7d' ∨ symbol = ']') ∧ inString = false then
      match closeSkipped (if symbol = '\x7d' then '\x7b' else '[') stack repairs with
      | none => none
      | some (_, _, []) => none
      | some (closed, repaired, _ :: left) => push (closed ++ [symbol]) (repairLoop left inString false repaired rest)
    else push (bytesAsChars symbol) (repairLoop stack inString false repairs rest)

def repairUnbalancedClose (slice : Text) : Option Text :=
  match repairLoop [] false false 0 slice with
  | none => none
  | some (out, stack, repairs) => if stack ≠ [] ∨ repairs = 0 then none else some out

def parseEmbeddedJson (json : JsonReader) (text : Text) : Option Json :=
  match json.fromStr text with
  | some value => some value
  | none =>
    match search ['\x7b'] text with
    | none => none
    | some start =>
      match objectLen 0 false false (text.drop start) with
      | some count =>
        let slice := (text.drop start).take count
        match json.fromStr slice with
        | some value => some value
        | none => (repairUnbalancedClose slice).bind json.fromStr
      | none => (closeOpenDelimiters (text.drop start)).bind json.fromStr

theorem embedded_json_braced {json : JsonReader} {text : Text} {value : Json}
    (parsed : parseEmbeddedJson json text = some value) (object : value.holdsObject = true) : '\x7b' ∈ text := by
  unfold parseEmbeddedJson at parsed
  cases whole : json.fromStr text with
  | some read =>
    rw [whole] at parsed
    cases parsed
    exact json.braced text value whole object
  | none =>
    rw [whole] at parsed
    dsimp only at parsed
    cases found : search ['\x7b'] text with
    | none =>
      rw [found] at parsed
      cases parsed
    | some start =>
      obtain ⟨here, -⟩ := search_some _ _ found
      apply List.mem_of_mem_drop
      exact here.2.subset List.mem_cons_self

end SwarmLlm.Api
