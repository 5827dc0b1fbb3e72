import SwarmLlm.Api.EmbeddedJson
import SwarmLlm.Api.ToolMarkers

namespace SwarmLlm.Api

open Lib Inference List Json

structure ParsedToolCall where
  id : Text
  name : Text
  arguments : Text
  deriving DecidableEq

def synthId (index : Nat) : Text := "call_".toList ++ (Nat.repr (index + 1)).toList

def unwrapSchemaEcho (value : Json) : Json :=
  match value with
  | .object [(key, inner)] =>
    if (key = "properties".toList ∨ key = "parameters".toList) ∧ inner.isObject = true then inner else value
  | _ => value

def argumentsToString (json : JsonReader) (value : Json) : Text :=
  match ((value.get "arguments".toList).or (value.get "parameters".toList)).or (value.get "input".toList) with
  | some (.string text) =>
    match json.fromStr text with
    | some parsed => json.toText (unwrapSchemaEcho parsed)
    | none => text
  | some other => json.toText (unwrapSchemaEcho other)
  | none => "\x7b\x7d".toList

def entryIsACallNotADefinition (entry : Json) : Bool :=
  match entry.get "function".toList with
  | some (.object fields) =>
    ((object fields).get "arguments".toList).isSome || ((object fields).get "parameters".toList).isNone
  | _ => true

def callEntry (json : JsonReader) (index : Nat) (entry : Json) : Option ParsedToolCall :=
  if entryIsACallNotADefinition entry = false then none
  else
    let function := (entry.get "function".toList).getD entry
    ((function.get "name".toList).bind asStr).map fun name =>
      ⟨((entry.get "id".toList).bind asStr).getD (synthId index), name, argumentsToString json function⟩

def callEntries (value : Json) : Option (List Json) :=
  match (value.get "tool_calls".toList).bind asArray, value.asArray with
  | some items, _ => some items
  | none, some outer =>
    some (outer.flatMap fun item => ((item.get "tool_calls".toList).bind asArray).getD [item])
  | none, none =>
    if ((value.get "function".toList).bind fun function => (function.get "name".toList).bind asStr).isSome ∧
        entryIsACallNotADefinition value = true then some [value]
    else none

def tryGeneric (json : JsonReader) (text : Text) : Option (List ParsedToolCall) :=
  (parseEmbeddedJson json text).bind fun value =>
    (callEntries value).map fun entries => (entries.mapIdx (callEntry json)).filterMap id

def HoldsMarker (text : Text) : Prop := ∃ marker ∈ callMarkers, ∃ place, FoundAt marker text place

variable {entry : Json} {json : JsonReader} (text : Text)

theorem entry_object {index : Nat} {call : ParsedToolCall} (read : callEntry json index entry = some call) :
    entry.isObject = true := by
  unfold callEntry at read
  split at read
  · cases read
  dsimp only at read
  cases inner : entry.get "function".toList with
  | some function => exact get_object inner
  | none =>
    rw [inner, Option.getD_none] at read
    cases named : entry.get "name".toList with
    | some name => exact get_object named
    | none =>
      rw [named] at read
      cases read

theorem entries_object {value : Json} {entries : List Json} (gathered : callEntries value = some entries)
    (listed : entry ∈ entries) (object : entry.isObject = true) : value.holdsObject = true := by
  unfold callEntries at gathered
  cases wrapped : (value.get "tool_calls".toList).bind asArray with
  | some items =>
    obtain ⟨member, found, -⟩ := Option.bind_eq_some_iff.mp wrapped
    exact object_held (get_object found)
  | none =>
    rw [wrapped] at gathered
    cases outer : value.asArray with
    | some items =>
      rw [outer] at gathered
      cases gathered
      cases value with
      | array inside =>
        cases outer
        obtain ⟨item, inArray, isEntry⟩ := mem_flatMap.mp listed
        apply any_eq_true.mpr
        refine ⟨item, inArray, ?_⟩
        cases nested : item.get "tool_calls".toList with
        | some member => exact get_object nested
        | none =>
          rw [nested] at isEntry
          cases mem_singleton.mp isEntry
          exact object
      | object | null | bool | number | string => cases outer
    | none =>
      rw [outer] at gathered
      dsimp only at gathered
      split at gathered
      · cases gathered
        cases mem_singleton.mp listed
        exact object_held object
      · cases gathered

theorem brace_marker (braced : '\x7b' ∈ text) : HoldsMarker text := by
  obtain ⟨front, tail, split⟩ := mem_iff_append.mp braced
  refine ⟨"\x7b".toList, by decide, front.length, ?_, ?_⟩
  · rw [split, length_append]
    exact Nat.le_add_right _ _
  · rw [split, drop_left]
    exact ⟨tail, rfl⟩

theorem generic_marked {text : Text} {calls : List ParsedToolCall} (read : tryGeneric json text = some calls)
    (some_call : calls ≠ []) : HoldsMarker text := by
  obtain ⟨value, parsed, rest⟩ := Option.bind_eq_some_iff.mp read
  obtain ⟨entries, gathered, same⟩ := Option.map_eq_some_iff.mp rest
  subst same
  obtain ⟨call, listed⟩ := exists_mem_of_ne_nil _ some_call
  obtain ⟨entry, present, isCall⟩ := mem_filterMap.mp listed
  obtain ⟨index, bound, made⟩ := mem_mapIdx.mp present
  apply brace_marker
  apply embedded_json_braced parsed
  exact entries_object gathered (getElem_mem bound) (entry_object (made.trans isCall))

-- The readers of the other formats; each finds a call only where a marker of one is.
structure CallReaders where
  json : JsonReader
  tryGemma4 : Text → Option (List ParsedToolCall)
  tryQwenXml : Text → Option (List ParsedToolCall)
  tryHermes : Text → Option (List ParsedToolCall)
  tryMistral : Text → Option (List ParsedToolCall)
  tryPhi : Text → Option (List ParsedToolCall)
  tryLlama3 : Text → Option (List ParsedToolCall)
  tryInventedWrapper : Text → Option (List ParsedToolCall)
  tryTemplateDoubledBraces : Text → Option (List ParsedToolCall)
  marked : ∀ read ∈ [tryGemma4, tryQwenXml, tryHermes, tryMistral, tryPhi, tryLlama3, tryInventedWrapper,
    tryTemplateDoubledBraces], ∀ text calls, read text = some calls → calls ≠ [] → HoldsMarker text

def CallReaders.inOrder (readers : CallReaders) : List (Text → Option (List ParsedToolCall)) :=
  [readers.tryGemma4, readers.tryQwenXml, tryGeneric readers.json, readers.tryHermes, readers.tryMistral, readers.tryPhi,
    readers.tryLlama3, readers.tryInventedWrapper, readers.tryTemplateDoubledBraces]

variable (readers : CallReaders)

theorem CallReaders.all_marked (read : Text → Option (List ParsedToolCall)) (listed : read ∈ readers.inOrder) (text : Text)
    (calls : List ParsedToolCall) (found : read text = some calls) (some_call : calls ≠ []) : HoldsMarker text := by
  have others := readers.marked
  simp only [CallReaders.inOrder, mem_cons, not_mem_nil, or_false] at listed others
  by_cases generic : read = tryGeneric readers.json
  · subst generic
    exact generic_marked found some_call
  · apply others read _ text calls found some_call
    tauto

def stripCodeFences (text : Text) : Text :=
  let trimmed := trim text
  if fence <+: trimmed then
    let opened := trimmed.drop fence.length
    let rest := match search ['\n'] opened with
      | some line => opened.drop (line + 1)
      | none => opened
    match search fence rest with
    | some stop => trim (rest.take stop)
    | none => trim rest
  else trimmed

def looksLikeToolCall (text : Text) : Bool :=
  (["tool_call".toList, "<function=".toList, "[TOOL_CALLS]".toList, "<|python_tag|>".toList, "functools".toList].any
    fun word => (search word text).isSome) ||
  ((search ['\x7b'] text).isSome && (search "\"name\"".toList text).isSome)

def firstReading (readers : List (Text → Option (List ParsedToolCall))) (text : Text) : Option (List ParsedToolCall) :=
  readers.findSome? fun read => read text

def assignUniqueIds (freshId : Nat → Text) (calls : List ParsedToolCall) : List ParsedToolCall :=
  calls.mapIdx fun index call => { call with id := freshId index }

def parseToolCalls (readers : CallReaders) (freshId : Nat → Text) (text : Text) : Option (List ParsedToolCall) :=
  let trimmed := stripCodeFences (trim text)
  if looksLikeToolCall trimmed = false then none
  else
    ((firstReading readers.inOrder trimmed).filter fun calls => !calls.isEmpty).map (assignUniqueIds freshId)

theorem holds_marker_inside {part text : Text} (inside : part <:+: text) (held : HoldsMarker part) : HoldsMarker text := by
  obtain ⟨marker, listed, place, found⟩ := held
  obtain ⟨front, back, split⟩ := inside
  refine ⟨marker, listed, front.length + place, ?_⟩
  rw [← split, append_assoc, found_shift]
  exact found_append part back place found

theorem trim_inside : trim text <:+: text := by
  obtain ⟨front, tail, split, -⟩ := trim_split text
  exact ⟨front, tail, by rw [append_assoc]; exact split.symm⟩

theorem strip_fences_inside : stripCodeFences text <:+: text := by
  have trimmed := trim_inside text
  unfold stripCodeFences
  dsimp only
  split
  · have opened : (trim text).drop fence.length <:+: text := (drop_suffix _ _).isInfix.trans trimmed
    have rest : (match search ['\n'] ((trim text).drop fence.length) with
        | some line => ((trim text).drop fence.length).drop (line + 1)
        | none => (trim text).drop fence.length) <:+: text := by
      split
      · exact (drop_suffix _ _).isInfix.trans opened
      · exact opened
    split
    · exact ((trim_inside _).trans ( take_prefix _ _).isInfix).trans rest
    · exact (trim_inside _).trans rest
  · exact trimmed

theorem parsed_marked {freshId : Nat → Text} (text : Text)
    (found : (parseToolCalls readers freshId text).isSome = true) : HoldsMarker text := by
  obtain ⟨result, parsed⟩ := Option.isSome_iff_exists.mp found
  unfold parseToolCalls at parsed
  dsimp only at parsed
  split at parsed
  · cases parsed
  obtain ⟨calls, kept, -⟩ := Option.map_eq_some_iff.mp parsed
  obtain ⟨reading, some_call⟩ := Option.filter_eq_some_iff.mp kept
  obtain ⟨read, listed, hit⟩ := exists_of_findSome?_eq_some reading
  apply holds_marker_inside ((strip_fences_inside _).trans (trim_inside text))
  apply readers.all_marked read listed _ calls hit
  intro nothing
  rw [nothing] at some_call
  cases some_call

end SwarmLlm.Api
