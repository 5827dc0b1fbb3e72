import SwarmLlm.Api.KeptPrefix
import SwarmLlm.Api.ParseCalls
import SwarmLlm.Api.StreamedReply

namespace SwarmLlm.Api

open Lib Inference List Buffer

variable (raw text : Text) {place : Nat}

theorem before_le_found {marker : Text} (listed : marker ∈ callMarkers)
    (found : FoundAt marker text place) : beforeAnyMarker text callMarkers ≤ place := by
  have least := ((le_before_any text callMarkers).mp (le_refl _)).2 marker listed
  unfold beforeOne at least
  cases first : search marker text with
  | none => exact absurd found (search_none _ first place)
  | some earliest =>
    rw [first] at least
    have early : earliest ≤ place := by
      by_contra late
      exact (search_some _ _ first).2 place (by omega) found
    exact le_trans least early

variable {more : Text}

theorem retract_same (inside : place < text.length) : retract text place = retract (text ++ more) place := by
  have array : retractOverArrayOpener text place = retractOverArrayOpener (text ++ more) place := by
    rw [retractOverArrayOpener, retractOverArrayOpener, take_append_of_le_length (le_of_lt inside)]
  have arrayBound := array_opener_le (text ++ more) place
  rw [retract, retract, array]
  generalize retractOverArrayOpener (text ++ more) place = bracket at arrayBound ⊢
  have angle : retractOverAngleOpener text bracket = retractOverAngleOpener (text ++ more) bracket := by
    have next : (text.drop bracket).head? = ((text ++ more).drop bracket).head? := by
      rw [head?_drop, head?_drop, getElem?_append_left (by omega)]
    rw [retractOverAngleOpener, retractOverAngleOpener, take_append_of_le_length (by omega), next]
  have angleBound := angle_opener_le (text ++ more) bracket
  rw [angle]
  exact openers_same more _ (by omega)

-- Where a marker has the first symbol of one again, it is the letter behind its angle.
theorem marker_inside : ∀ outer ∈ callMarkers, ∀ inner ∈ callMarkers, ∀ start ∈ List.range outer.length, 0 < start →
    outer[start]? = inner.head? → start = 1 ∧ outer.head? = some '<' ∧ inner.head? = some 'f' := by decide +kernel

theorem retract_behind_angle (ends : (text.take place).getLast? = some '<')
    (next : (text.drop place).head? ≠ some '\x7b') : retract text place = place := by
  have trimmed : (trimEnd isWhitespace (text.take place)).getLast? = some '<' := by
    rw [trim_end_stays isWhitespace _ '<' ends rfl]
    exact ends
  have array : retractOverArrayOpener text place = place := by
    apply if_neg
    rw [trimmed]
    decide
  have angle : retractOverAngleOpener text place = place := if_neg fun both => next both.2
  rw [retract, array, angle, tag_opener_id text '<' trimmed (by decide), fence_opener_id text '<' trimmed rfl]

theorem kept_past_marker {text : Text} (past : beforeAnyMarker (text ++ more) callMarkers < text.length) :
    contentPrefixLen text ≤ retract (text ++ more) (beforeAnyMarker (text ++ more) callMarkers) := by
  have least := before_any_append text more callMarkers
  have cut : beforeAnyMarker text callMarkers < text.length := by omega
  rw [content_prefix_cut text cut]
  by_cases same : beforeAnyMarker text callMarkers = beforeAnyMarker (text ++ more) callMarkers
  · rw [same, retract_same text past]
  -- The text ends in a marker's beginning, and another marker begins inside it.
  have length : (text ++ more).length = text.length + more.length := length_append
  obtain ⟨inner, innerListed, there⟩ := before_cut (text ++ more) (by omega)
  obtain ⟨outer, outerListed, found | ⟨opens, short⟩⟩ := before_cut text cut
  · have bound := before_le_found _ outerListed (found_append text more _ found)
    omega
  generalize beforeAnyMarker text callMarkers = early at *
  generalize beforeAnyMarker (text ++ more) callMarkers = late at *
  have long : 0 < inner.length := (by decide : ∀ marker ∈ callMarkers, 0 < marker.length) inner innerListed
  have head : ((text ++ more).drop late).head? = inner.head? := by
    rcases there with ⟨-, tail, whole⟩ | ⟨⟨tail, whole⟩, -⟩
    · rw [← whole, head?_append_of_ne_nil _ (ne_nil_of_length_pos long)]
    · have left : (text ++ more).drop late ≠ [] := by
        intro nothing
        have empty := drop_eq_nil_iff.mp nothing
        omega
      rw [← whole, head?_append_of_ne_nil _ left]
  have covered : ∀ place, early ≤ place → place < text.length → outer[place - early]? = text[place]? := by
    intro place behind inside
    obtain ⟨tail, whole⟩ := opens
    rw [← whole, getElem?_append_left (by rw [length_drop]; omega), getElem?_drop, Nat.add_sub_cancel' behind]
  have here : outer[late - early]? = inner.head? := by
    rw [covered late least past, ← head, head?_drop, getElem?_append_left past]
  obtain ⟨one, angle, letter⟩ := marker_inside outer outerListed inner innerListed _
    (mem_range.mpr (by omega)) (by omega) here
  have next : ((text ++ more).drop late).head? ≠ some '\x7b' := by
    rw [head, letter]
    decide
  have ends : ((text ++ more).take late).getLast? = some '<' := by
    have before : text[late - 1]? = some '<' := by
      have place : late - 1 = early := by omega
      have first := covered early (Nat.le_refl _) cut
      rw [Nat.sub_self, ← head?_eq_getElem?, angle] at first
      rw [place, ← first]
    rw [take_append_of_le_length (Nat.le_of_lt past), getLast?_take, if_neg (by omega), before]
    rfl
  rw [retract_behind_angle (text ++ more) ends next]
  exact le_trans (retract_le text early) least

theorem prefix_kept (more : Text) (cut : beforeAnyMarker (text ++ more) callMarkers < (text ++ more).length)
    (kept : contentPrefixLen (text ++ more) < text.length → text.length ≤ beforeAnyMarker (text ++ more) callMarkers → ¬LosesOpener text) :
    contentPrefixLen text ≤ contentPrefixLen (text ++ more) := by
  by_cases short : text.length ≤ contentPrefixLen (text ++ more)
  · exact le_trans (content_prefix_le text) short
  · rw [content_prefix_cut _ cut] at short kept ⊢
    by_cases within : text.length ≤ beforeAnyMarker (text ++ more) callMarkers
    · exact kept_before_marker within (kept (by omega) within) (by omega)
    · exact kept_past_marker (by omega)

theorem marker_cut (held : HoldsMarker text) : beforeAnyMarker text callMarkers < text.length := by
  obtain ⟨marker, listed, place, found⟩ := held
  have bound := before_le_found text listed found
  have fits := found_fits found
  have long : 0 < marker.length := (by decide : ∀ marker ∈ callMarkers, 0 < marker.length) marker listed
  omega

theorem phase_unopened (unopened : openingReasoningBlock (trimStart isWhitespace text) = none) :
    phaseOf text = .undecided ∨ phaseOf text = .plain (leadLen isReplyLeadingWhitespace text) := by
  rw [phaseOf, unopened]
  dsimp only
  split
  · exact .inl rfl
  · exact .inr rfl

theorem openers_unmarked : ∀ block ∈ reasoningBlocks, ∀ marker ∈ callMarkers, ¬marker <:+: block.opener := by
  decide +kernel

theorem marked_plain (unopened : openingReasoningBlock (trimStart isWhitespace text) = none) (held : HoldsMarker text) :
    phaseOf text = .plain (leadLen isReplyLeadingWhitespace text) := by
  rcases phase_unopened text unopened with undecided | plain
  · exfalso
    rw [phaseOf, unopened] at undecided
    dsimp only at undecided
    split at undecided
    · rename_i may
      obtain ⟨block, blockListed, begins⟩ := any_eq_true.mp may
      obtain ⟨marker, listed, place, found⟩ := held
      apply openers_unmarked block blockListed marker listed
      have opens := found.2
      have inside : leadLen isWhitespace text ≤ place := by
        by_contra early
        obtain ⟨white, later, here, isBlank⟩ := lead_drop isWhitespace text (Nat.lt_of_not_le early)
        rw [here] at opens
        cases spelled : marker with
        | nil => exact absurd listed (by rw [spelled]; decide)
        | cons symbol rest =>
          have black := marker_black marker listed symbol (by rw [spelled]; exact mem_cons_self)
          rw [spelled] at opens
          rw [(cons_prefix_cons.mp opens).1, isBlank] at black
          cases black
      obtain ⟨later, sum⟩ := Nat.exists_eq_add_of_le inside
      rw [sum, ← drop_drop, drop_lead] at opens
      exact (opens.isInfix.trans (drop_suffix _ _).isInfix).trans (of_decide_eq_true begins).isInfix
    · cases undecided
  · exact plain

theorem unopened_front {text : Text} (unopened : openingReasoningBlock (trimStart isWhitespace (text ++ more)) = none) :
    openingReasoningBlock (trimStart isWhitespace text) = none := by
  by_cases blank : trimStart isWhitespace text = []
  · rw [blank]
    decide
  rw [trim_start_append blank] at unopened
  cases opened : openingReasoningBlock (trimStart isWhitespace text) with
  | none => rfl
  | some block =>
    rw [opening_block_append opened] at unopened
    cases unopened

theorem front_floor {text : Text} {opening : Nat} (plain : phaseOf (text ++ more) = .plain opening)
    (unopened : openingReasoningBlock (trimStart isWhitespace text) = none) :
    (phaseOf text).floor ≤ opening ∧ (phaseOf text).contentFrom = 0 := by
  rcases phase_unopened text unopened with undecided | early
  · rw [undecided]
    exact ⟨Nat.zero_le _, rfl⟩
  · have same := (plain_append early).symm.trans plain
    cases same
    rw [early]
    exact ⟨le_refl _, rfl⟩

variable (isJson : Text → Bool) (fuel : Nat) (out : ReasoningOut)

def streamContent (pieces : List Text) : Option Text :=
  (feed isJson fuel false (StreamingToolText.new true out .nothing) pieces).map fun fed =>
    fed.1 ++ (fed.2.2.pendingContent isJson).1

theorem sure_len_plain {buffer : Buffer} (follows : Follows .nothing raw buffer) (tools : buffer.toolsRequested = true)
    (whole : (phaseOf raw).contentFrom = 0) : buffer.sureLen = contentPrefixLen raw := by
  have text : buffer.text = raw := follows.text
  have start : buffer.contentFrom = 0 := by rw [follows.phase.contentFrom, text, whole]
  rw [sureLen, tools, if_pos rfl, start, text, Nat.zero_add]
  rfl

theorem push_within (piece : Text) (buffer : Buffer) (limit : Nat) (follows : Follows .nothing raw buffer)
    (tools : buffer.toolsRequested = true) (whole : (phaseOf (raw ++ piece)).contentFrom = 0)
    (floor : (phaseOf (raw ++ piece)).floor ≤ limit) (sure : contentPrefixLen (raw ++ piece) ≤ limit)
    (bounded : buffer.emitted ≤ limit) : (buffer.push piece).2.emitted ≤ limit := by
  have pushed := push_spec .nothing raw piece buffer follows
  have text : (buffer.push piece).2.text = raw ++ piece := pushed.follows.text
  rw [push_emitted .nothing raw piece follows, sure_len_plain _ pushed.follows (pushed.tools.trans tools) whole, text]
  split
  · exact Nat.zero_le _
  · omega

theorem feed_within {limit : Nat} (raw content : Text) (reply : StreamingToolText) {pieces : List Text}
    (streaming : Streaming false true out .nothing raw content [] reply) (bounded : reply.buffer.emitted ≤ limit)
    (each : ∀ count, (phaseOf (raw ++ (pieces.take count).flatten)).contentFrom = 0 ∧
      (phaseOf (raw ++ (pieces.take count).flatten)).floor ≤ limit ∧
        contentPrefixLen (raw ++ (pieces.take count).flatten) ≤ limit) :
    ∃ written last, feed isJson fuel false reply pieces = some (written, [], last) ∧
      Streaming false true out .nothing (raw ++ pieces.flatten) (content ++ written) [] last ∧ last.buffer.emitted ≤ limit := by
  induction pieces generalizing raw content reply with
  | nil =>
    refine ⟨[], reply, rfl, ?_, bounded⟩
    rw [flatten_nil, append_nil, append_nil]
    exact streaming
  | cons piece pieces ih =>
    have slot : reply.buffer.promptOpened ≠ some .harmony := by
      rw [streaming.follows.slot]
      split
      · nofun
      · nofun
    obtain ⟨harmony, pushes, unrewritten⟩ := unrewritten_push isJson fuel streaming.unrewritten slot
    have pushed := push_spec .nothing raw piece reply.buffer streaming.follows
    obtain ⟨whole, floor, sure⟩ := each 1
    rw [take_succ_cons, take_zero, flatten_singleton] at whole floor sure
    have going : Streaming false true out .nothing (raw ++ piece) (content ++ (reply.buffer.push piece).1) []
        ⟨(reply.buffer.push piece).2, harmony⟩ := by
      refine ⟨unrewritten, pushed.follows, pushed.tools.trans streaming.withTools, pushed.out.trans streaming.withOut, ?_, nofun⟩
      rw [← streaming.written]
      exact pushed.content
    obtain ⟨written, last, feeds, ends, final⟩ := ih (raw ++ piece) _ ⟨(reply.buffer.push piece).2, harmony⟩ going
      (push_within raw piece reply.buffer limit streaming.follows streaming.withTools whole floor sure bounded) (by
        intro count
        have later := each (count + 1)
        rw [take_succ_cons, flatten_cons, ← append_assoc] at later
        exact later)
    refine ⟨(reply.buffer.push piece).1 ++ written, last, ?_, ?_, final⟩
    · rw [feed, feedOne, pushes]
      dsimp only [Option.map_some]
      rw [if_neg Bool.false_ne_true, feeds]
      rfl
    · rw [flatten_cons, ← append_assoc, ← append_assoc]
      exact ends

theorem pending_push {reply : StreamingToolText} (unrewritten : Unrewritten reply) :
    (reply.pendingContent isJson).1 = (reply.buffer.push []).1 := by
  have same : { reply.buffer with text := reply.buffer.text ++ [] } = reply.buffer := by rw [append_nil]
  rw [StreamingToolText.pendingContent, unrewritten_end isJson unrewritten, push, same]

theorem between_lead (blank : Char → Bool) (text : Text) (stop : Nat) :
    between text (leadLen blank text) (max (leadLen blank text) stop) = trimStart blank (text.take stop) := by
  obtain ⟨front, split, length, blanks⟩ := lead_split blank text
  by_cases early : stop ≤ leadLen blank text
  · have nothing : trimStart blank (text.take stop) = [] := by
      rw [trim_start_eq_nil]
      intro symbol inside
      rw [split, take_append_of_le_length (by omega)] at inside
      exact blanks symbol (mem_of_mem_take inside)
    rw [max_eq_left early, between_self, nothing]
  have taken : text.take stop = front ++ (trimStart blank text).take (stop - front.length) := by
    nth_rewrite 1 [split]
    rw [take_append, take_of_length_le (by omega)]
  rw [max_eq_right (by omega), between, taken, ← length, drop_left,
    trim_start_blank blank front _ ((trim_start_eq_nil front).mpr blanks)]
  cases left : trimStart blank text with
  | nil =>
    rw [take_nil]
    rfl
  | cons symbol rest =>
    obtain ⟨count, positive⟩ := Nat.exists_eq_succ_of_ne_zero (n := stop - front.length) (by omega)
    have black := trim_start_head text symbol rest left
    rw [positive, take_succ_cons]
    symm
    apply dropWhile_cons_of_neg
    rw [black]
    exact Bool.false_ne_true

-- The content of a reply that ends in a call is the text before the call, in whatever
-- pieces it comes, where no piece ends in an opener that is let go.
theorem released_before_call (readers : CallReaders) (freshId : Nat → Text) (text : Text) (pieces : List Text)
    (cut : pieces.flatten = text) (unopened : openingReasoningBlock (trimStart isWhitespace text) = none)
    (called : (parseToolCalls readers freshId text).isSome = true)
    (kept : ∀ count, contentPrefixLen text < (pieces.take count).flatten.length →
      (pieces.take count).flatten.length ≤ beforeAnyMarker text callMarkers → ¬LosesOpener (pieces.take count).flatten) :
    streamContent isJson fuel out pieces = some (trimStart isReplyLeadingWhitespace (text.take (contentPrefixLen text))) ∧
      ∀ count, contentPrefixLen (pieces.take count).flatten ≤ contentPrefixLen text := by
  have held := parsed_marked readers text called
  have marked := marker_cut text held
  have plain := marked_plain text unopened held
  have parts : ∀ count, (pieces.take count).flatten ++ (pieces.drop count).flatten = text := by
    intro count
    rw [← flatten_append, take_append_drop, cut]
  have monotone : ∀ count, contentPrefixLen (pieces.take count).flatten ≤ contentPrefixLen text := by
    intro count
    have step := prefix_kept (pieces.take count).flatten (pieces.drop count).flatten
    rw [parts count] at step
    exact step marked (kept count)
  refine ⟨?_, monotone⟩
  obtain ⟨written, last, feeds, ends, bounded⟩ := feed_within isJson fuel out [] [] _ (new_streaming false true out) (Nat.zero_le _) (by
      intro count
      rw [nil_append]
      have unopenedFront := unopened_front (by rw [parts count]; exact unopened)
      obtain ⟨floor, whole⟩ := front_floor (by rw [parts count]; exact plain) unopenedFront
      exact ⟨whole, le_trans floor (le_max_left _ _), le_trans (monotone count) (le_max_right _ _)⟩)
  rw [nil_append, nil_append, cut] at ends
  have pushed := push_spec .nothing text [] last.buffer ends.follows
  have emitted := push_emitted .nothing text [] ends.follows
  rw [append_nil] at pushed
  have final : (last.buffer.push []).2.text = text := pushed.follows.text
  have free : ¬(Phase.plain (leadLen isReplyLeadingWhitespace text)).withheld = true := Bool.false_ne_true
  rw [sure_len_plain text pushed.follows (pushed.tools.trans ends.withTools) (by rw [plain]; rfl), final, plain,
    if_neg free] at emitted
  have floor : (Phase.plain (leadLen isReplyLeadingWhitespace text)).floor = leadLen isReplyLeadingWhitespace text := rfl
  have released : (last.buffer.push []).2.emitted = max (leadLen isReplyLeadingWhitespace text) (contentPrefixLen text) := by
    rw [emitted, floor]
    omega
  have content := pushed.content
  rw [ends.written, Buffer.content, final, plain, floor, released, between_lead] at content
  rw [streamContent, feeds, Option.map_some, pending_push isJson ends.unrewritten, content]

def sampleArray : Text := "[ \x7b\"name\": \"f\", \"arguments\": \x7b\x7d\x7d]".toList

def sampleJson : JsonReader where
  fromStr := fun text =>
    if text = sampleArray then
      some (.array [.object [("name".toList, .string "f".toList), ("arguments".toList, .object [])]])
    else none
  toText := fun _ => "\x7b\x7d".toList
  braced := by
    intro text value read _
    split at read
    · rename_i same
      rw [same]
      decide
    · cases read

def sampleReaders : CallReaders where
  json := sampleJson
  tryGemma4 := fun _ => none
  tryQwenXml := fun _ => none
  tryHermes := fun _ => none
  tryMistral := fun _ => none
  tryPhi := fun _ => none
  tryLlama3 := fun _ => none
  tryInventedWrapper := fun _ => none
  tryTemplateDoubledBraces := fun _ => none
  marked := by
    intro read listed text calls found _
    simp only [mem_cons, not_mem_nil, or_false, or_self] at listed
    rw [listed] at found
    cases found

def wholePieces : List Text := ["[".toList, sampleArray.drop 1]

theorem released_before_call_whole :
    wholePieces.flatten = sampleArray ∧ openingReasoningBlock (trimStart isWhitespace sampleArray) = none ∧
      (parseToolCalls sampleReaders synthId sampleArray).isSome = true ∧
      streamContent (fun _ => false) 0 .separate wholePieces =
        some (trimStart isReplyLeadingWhitespace (sampleArray.take (contentPrefixLen sampleArray))) ∧
      ∀ count, contentPrefixLen (wholePieces.take count).flatten ≤ contentPrefixLen sampleArray := by
  have cut : wholePieces.flatten = sampleArray := by decide +kernel
  have unopened : openingReasoningBlock (trimStart isWhitespace sampleArray) = none := by decide +kernel
  have called : (parseToolCalls sampleReaders synthId sampleArray).isSome = true := by decide +kernel
  refine ⟨cut, unopened, called, released_before_call (fun _ => false) 0 .separate sampleReaders synthId sampleArray wholePieces
    cut unopened called ?_⟩
  intro count _ within
  match count with
  | 0 => decide +kernel
  | 1 => decide +kernel
  | later + 2 =>
    exfalso
    have whole : wholePieces.take (later + 2) = wholePieces := take_of_length_le (Nat.le_add_left _ _)
    rw [whole, cut] at within
    revert within
    decide +kernel

def gapPieces : List Text := ["[ ".toList, sampleArray.drop 2]

-- Cut behind the blank, the bracket is content, and the call that follows does not take it back.
theorem gap_released :
    gapPieces.flatten = sampleArray ∧ openingReasoningBlock (trimStart isWhitespace sampleArray) = none ∧
      (parseToolCalls sampleReaders synthId sampleArray).isSome = true ∧
      streamContent (fun _ => false) 0 .separate gapPieces = some "[ ".toList ∧
      trimStart isReplyLeadingWhitespace (sampleArray.take (contentPrefixLen sampleArray)) = [] := by
  decide +kernel

def nameText : Text := "<self>\x7b\"name\": \"f\"\x7d</self>".toList

-- So does a tag whose name ends as a marker begins.
example : streamContent (fun _ => false) 0 .separate ["<self".toList, nameText.drop 5] = some "<sel".toList ∧
    contentPrefixLen nameText = 0 := by decide +kernel

end SwarmLlm.Api
