import SwarmLlm.Inference.Harmony

namespace SwarmLlm.Inference.Harmony

open Lib List

-- Where a header is awaited: a `<|message|>` that is there ends a header the reader
-- waits for to its last character, and without one a `<|start|>` is not too long.
def HeadedHere (reply : Reply) : Prop :=
  reply.progress.state = .header →
    match search messageMarker reply.held with
    | some place => awaits (reply.held.take (place + (messageMarker.length - 1))) = true
    | none => reply.progress.first = true ∨ ¬(startMarker <+: reply.held ∧ headerLimit < utf8Len reply.held)

instance (reply : Reply) : Decidable (HeadedHere reply) := by
  unfold HeadedHere
  cases search messageMarker reply.held <;> infer_instance

theorem body_ends_marked : LedBy '<' bodyEnds := ⟨by decide, by decide, by decide⟩

variable {held : Text}

theorem may_open_of_blank (blank : trimStart isLeadingWhitespace held = []) : mayOpen held = true := by
  rw [mayOpen, any_eq_true]
  refine ⟨channelMarker, by decide, ?_⟩
  rw [blank, Bool.or_eq_true]
  exact .inr (decide_eq_true nil_prefix)

theorem may_open_iff : mayOpen held = true ↔
    ∃ opener ∈ headerOpeners, held <+: opener ∨ trimStart isLeadingWhitespace held <+: opener := by
  simp only [mayOpen, any_eq_true, Bool.or_eq_true, decide_eq_true_eq]

theorem opens_iff : opens held = true ↔
    ∃ opener ∈ headerOpeners, opener <+: held ∨ opener <+: trimStart isLeadingWhitespace held := by
  simp only [opens, any_eq_true, Bool.or_eq_true, decide_eq_true_eq]

theorem awaits_iff : awaits held = true ↔ opens held = true ∧ utf8Len held ≤ headerLimit ∨ mayOpen held = true := by
  simp only [awaits, Bool.or_eq_true, Bool.and_eq_true, decide_eq_true_eq]

variable {text : Text}

theorem opens_front {more : Text} (whole : opens (text ++ more) = true) : opens text = true ∨ mayOpen text = true := by
  obtain ⟨opener, listed, begins⟩ := opens_iff.mp whole
  cases begins with
  | inl written =>
    cases prefix_or_prefix_of_prefix written (prefix_append text more) with
    | inl inside => exact .inl (opens_iff.mpr ⟨opener, listed, .inl inside⟩)
    | inr cut => exact .inr (may_open_iff.mpr ⟨opener, listed, .inl cut⟩)
  | inr trimmed =>
    by_cases blank : trimStart isLeadingWhitespace text = []
    · exact .inr (may_open_of_blank blank)
    · rw [trim_start_append blank] at trimmed
      cases prefix_or_prefix_of_prefix trimmed (prefix_append _ more) with
      | inl inside => exact .inl (opens_iff.mpr ⟨opener, listed, .inr inside⟩)
      | inr cut => exact .inr (may_open_iff.mpr ⟨opener, listed, .inr cut⟩)

theorem may_open_front {more : Text} (whole : mayOpen (text ++ more) = true) : mayOpen text = true := by
  obtain ⟨opener, listed, begins⟩ := may_open_iff.mp whole
  cases begins with
  | inl written => exact may_open_iff.mpr ⟨opener, listed, .inl ((prefix_append text more).trans written)⟩
  | inr trimmed =>
    by_cases blank : trimStart isLeadingWhitespace text = []
    · exact may_open_of_blank blank
    · rw [trim_start_append blank] at trimmed
      exact may_open_iff.mpr ⟨opener, listed, .inr ((prefix_append _ more).trans trimmed)⟩

theorem awaits_front {more : Text} (whole : awaits (text ++ more) = true) : awaits text = true := by
  cases awaits_iff.mp whole with
  | inl opened =>
    have short : utf8Len text ≤ headerLimit := by
      have total := utf8_len_append text more
      have bound := opened.2
      omega
    cases opens_front opened.1 with
    | inl front => exact awaits_iff.mpr (.inl ⟨front, short⟩)
    | inr front => exact awaits_iff.mpr (.inr front)
  | inr front => exact awaits_iff.mpr (.inr (may_open_front front))

variable {kind : Body}

namespace Progress

theorem write_nil (progress : Progress) (kind : Body) : progress.write kind [] = ([], progress) := if_pos rfl

theorem write_append (progress : Progress) (kind : Body) (text more : Text) :
    progress.write kind (text ++ more) = ((progress.write kind text).1 ++ ((progress.write kind text).2.write kind more).1,
        ((progress.write kind text).2.write kind more).2) := by
  by_cases empty : text = []
  · rw [empty, write_nil, nil_append, nil_append]
  by_cases last : more = []
  · rw [last, write_nil, append_nil, append_nil]
  have joined : text ++ more ≠ [] := fun none_left => empty (append_eq_nil_iff.mp none_left).1
  unfold write
  rw [if_neg joined, if_neg empty]
  dsimp only
  rw [if_neg last]
  cases kind with
  | reasoning => simp only [Bool.not_true, Bool.false_eq_true, if_false, nil_append, append_assoc]
  | content => simp only [Bool.false_and, Bool.false_eq_true, if_false, nil_append, append_assoc]
  | call =>
    cases progress.call with
    | none => rfl
    | some call => simp only [Option.map_some, append_assoc, nil_append]
  | unseen => rfl

theorem end_body_append (isJson : Text → Bool) (progress : Progress) (kind : Body) (text more : Text) (ended : Bool) :
    progress.endBody isJson kind (text ++ more) ended =
      ((progress.write kind text).1 ++ ((progress.write kind text).2.endBody isJson kind more ended).1,
        ((progress.write kind text).2.endBody isJson kind more ended).2) := by
  unfold endBody
  rw [write_append]
  dsimp only
  rw [append_assoc]

theorem write_state {progress : Progress} : (progress.write kind text).2.state = progress.state := by
  unfold write
  split
  · rfl
  · cases kind <;> rfl

theorem open_body_state (progress : Progress) (header : Text) : ∃ kind, (progress.openBody header).2.state = .body kind := by
  unfold openBody
  dsimp only
  split
  · split
    · exact ⟨.unseen, rfl⟩
    · exact ⟨.reasoning, rfl⟩
  · exact ⟨.content, rfl⟩
  · exact ⟨.call, rfl⟩
  · exact ⟨.unseen, rfl⟩

end Progress

theorem awaits_to_message {place : Nat} (missing : search messageMarker held = none)
    (later : search messageMarker (held ++ text) = some place)
    (awaited : awaits ((held ++ text).take (place + (messageMarker.length - 1))) = true) : awaits held = true := by
  have found := (search_some messageMarker place later).1
  have short : held.length ≤ place + (messageMarker.length - 1) := by
    by_contra long
    have fits : place + messageMarker.length ≤ held.length := by omega
    exact search_none messageMarker missing place (found_of_fits found fits)
  rw [take_append, take_of_length_le short] at awaited
  exact awaits_front awaited

-- A header given up on stays one: no `<|message|>` is to come, and more text is no shorter.
theorem given_up_more {reply : Reply} (state : reply.progress.state = .header)
    (missing : search messageMarker reply.held = none) (given : awaits reply.held = false) (headed : HeadedHere (reply.more text)) :
    search messageMarker (reply.held ++ text) = none ∧ awaits (reply.held ++ text) = false ∧
      (reply.progress.first = true ∨ ¬(startMarker <+: reply.held ++ text ∧ headerLimit < utf8Len (reply.held ++ text))) := by
  have here := headed state
  have longer : awaits (reply.held ++ text) = false := by
    by_contra awaited
    rw [Bool.not_eq_false] at awaited
    rw [awaits_front awaited] at given
    cases given
  unfold Reply.more at here
  cases later : search messageMarker (reply.held ++ text) with
  | some place =>
    rw [later] at here
    rw [awaits_to_message missing later here] at given
    cases given
  | none =>
    rw [later] at here
    exact ⟨rfl, longer, here⟩

variable {out text : Text}

namespace Reply

variable (isJson : Text → Bool) {kind : Body} {out : Text} (reply next : Reply)

theorem pass_header {isJson : Text → Bool} (state : reply.progress.state = .header) : reply.pass isJson = reply.headerPass := by
  rw [pass, state]

variable {isJson}

theorem pass_body (state : reply.progress.state = .body kind) : reply.pass isJson = reply.bodyPass isJson kind := by
  rw [pass, state]

theorem pass_plain {isJson : Text → Bool} (state : reply.progress.state = .plain) : reply.pass isJson = .returns reply.held ⟨[], reply.progress⟩ := by
  rw [pass, state]

variable {next}

theorem header_again_more (state : reply.progress.state = .header) (step : reply.headerPass = .again out next)
    (headed : HeadedHere (reply.more text)) : (reply.more text).headerPass = .again out (next.more text) := by
  unfold headerPass at step ⊢
  unfold more
  cases found : search messageMarker reply.held with
  | some place =>
    have fits := found_fits (search_some _ _ found).1
    rw [found] at step
    cases step
    rw [search_append reply.held text place found]
    dsimp only
    rw [drop_append_of_le_length fits, take_append_of_le_length (by omega)]
  | none =>
    rw [found] at step
    dsimp only at step ⊢
    cases awaited : awaits reply.held with
    | true =>
      rw [awaited, if_pos rfl] at step
      cases step
    | false =>
      obtain ⟨missing, given, -⟩ := given_up_more state found awaited headed
      rw [awaited, if_neg Bool.false_ne_true] at step
      rw [missing, given]
      dsimp only
      rw [if_neg Bool.false_ne_true]
      split at step
      · cases step
        rename_i first
        rw [if_pos first]
      · cases step
        rename_i later
        rw [if_neg later]

theorem header_returns {reply next : Reply} (step : reply.headerPass = .returns out next) : out = [] ∧ next = reply := by
  unfold headerPass at step
  split at step
  · cases step
  · split at step
    · cases step
      exact ⟨rfl, rfl⟩
    · split at step <;> cases step

theorem body_again_more (step : reply.bodyPass isJson kind = .again out next) :
    (reply.more text).bodyPass isJson kind = .again out (next.more text) := by
  unfold bodyPass at step ⊢
  unfold more
  cases first : firstOf bodyEnds reply.held with
  | none =>
    rw [first] at step
    cases step
  | some found =>
    obtain ⟨place, marker⟩ := found
    have fits := found_fits (first_of_some first).2.1
    have consumed : (if marker = startMarker then place else place + marker.length) ≤ reply.held.length := by
      split <;> omega
    rw [first] at step
    cases step
    rw [first_of_append '<' bodyEnds reply.held text place marker body_ends_marked first]
    dsimp only
    rw [drop_append_of_le_length consumed, take_append_of_le_length (by omega)]

theorem body_returns_more (step : reply.bodyPass isJson kind = .returns out next) :
    (reply.more text).bodyPass isJson kind = ((next.more text).bodyPass isJson kind).after out := by
  unfold bodyPass at step
  cases first : firstOf bodyEnds reply.held with
  | some found =>
    rw [first] at step
    cases step
  | none =>
    rw [first] at step
    dsimp only at step
    rw [markerPrefixLen, ← letGo, ← heldBack] at step
    cases step
    have later := first_held_back '<' bodyEnds reply.held text body_ends_marked first
    have whole : reply.held ++ text = letGo bodyEnds reply.held ++ (heldBack bodyEnds reply.held ++ text) := by
      rw [← append_assoc, ready_held_back]
    unfold bodyPass more
    dsimp only
    rw [later]
    cases further : firstOf bodyEnds (heldBack bodyEnds reply.held ++ text) with
    | none =>
      obtain ⟨sameReady, sameHeld⟩ := held_back_append bodyEnds reply.held
      dsimp only [Option.map_none, Pass.after]
      rw [markerPrefixLen, markerPrefixLen, ← letGo, ← heldBack, ← letGo, ← heldBack, sameReady, sameHeld, Progress.write_append]
    | some found =>
      obtain ⟨place, marker⟩ := found
      dsimp only [Option.map_some, Pass.after]
      have consumed : (if marker = startMarker then (letGo bodyEnds reply.held).length + place
          else (letGo bodyEnds reply.held).length + place + marker.length) =
          (letGo bodyEnds reply.held).length + if marker = startMarker then place else place + marker.length := by
        split
        · rfl
        · exact Nat.add_assoc _ _ _
      rw [consumed, whole, take_length_add_append, drop_length_add_append, Progress.end_body_append]

theorem body_returns_state (step : reply.bodyPass isJson kind = .returns out next) :
    next.progress.state = reply.progress.state := by
  unfold bodyPass at step
  split at step
  · cases step
  · cases step
    exact Progress.write_state

-- A `<|start|>` that ends a body is not consumed, and opens the next header.
def weight (reply : Reply) : Nat :=
  match reply.progress.state with
  | .plain => 0
  | .header => 3 * reply.held.length + if startMarker <+: reply.held then 1 else 3
  | .body _ => 3 * reply.held.length + 2

theorem weight_plain (state : reply.progress.state = .plain) : reply.weight = 0 := by
  rw [weight, state]

theorem weight_header {reply : Reply} (state : reply.progress.state = .header) :
    reply.weight = 3 * reply.held.length + if startMarker <+: reply.held then 1 else 3 := by
  rw [weight, state]

theorem weight_body {reply : Reply} (state : reply.progress.state = .body kind) : reply.weight = 3 * reply.held.length + 2 := by
  rw [weight, state]

theorem message_lighter {reply next : Reply} {place : Nat} (state : reply.progress.state = .header)
    (step : reply.headerPass = .again out next) (found : search messageMarker reply.held = some place) :
    next.weight < reply.weight := by
  have fits := found_fits (search_some _ _ found).1
  have long : messageMarker.length = 11 := by decide
  unfold headerPass at step
  rw [found] at step
  cases step
  obtain ⟨kind, opened⟩ := Progress.open_body_state { reply.progress with first := false } (reply.held.take place)
  rw [weight_body opened, weight_header state]
  dsimp only
  rw [length_drop]
  split <;> omega

theorem header_lighter {reply next : Reply} (state : reply.progress.state = .header)
    (step : reply.headerPass = .again out next) (headed : HeadedHere (reply.more text)) : next.weight < reply.weight := by
  cases found : search messageMarker reply.held with
  | some place => exact message_lighter state step found
  | none =>
    unfold headerPass at step
    rw [found] at step
    dsimp only at step
    cases awaited : awaits reply.held with
    | true =>
      rw [awaited, if_pos rfl] at step
      cases step
    | false =>
      rw [awaited, if_neg Bool.false_ne_true] at step
      split at step
      · cases step
        rw [weight_plain _ rfl, weight_header state]
        split <;> omega
      rename_i later
      cases step
      obtain ⟨kind, opened⟩ := Progress.open_body_state reply.progress []
      obtain ⟨-, -, short⟩ := given_up_more state found awaited headed
      have other : ¬startMarker <+: reply.held := by
        intro begins
        have opener : opens reply.held = true := opens_iff.mpr ⟨startMarker, by decide, .inl begins⟩
        have long : ¬utf8Len reply.held ≤ headerLimit := by
          intro fits
          rw [awaits_iff.mpr (.inl ⟨opener, fits⟩)] at awaited
          cases awaited
        have total := utf8_len_append reply.held text
        cases short with
        | inl first => exact later first
        | inr bounded => exact bounded ⟨begins.trans (prefix_append _ _), by omega⟩
      rw [weight_body opened, weight_header state, if_neg other]
      dsimp only
      omega

theorem body_lighter {reply next : Reply} (state : reply.progress.state = .body kind)
    (step : reply.bodyPass isJson kind = .again out next) : next.weight < reply.weight := by
  unfold bodyPass at step
  cases first : firstOf bodyEnds reply.held with
  | none =>
    rw [first] at step
    cases step
  | some found =>
    obtain ⟨place, marker⟩ := found
    obtain ⟨listed, foundAt, -⟩ := first_of_some first
    have fits := found_fits foundAt
    have long : 7 ≤ marker.length := (by decide : ∀ marker ∈ bodyEnds, 7 ≤ marker.length) marker listed
    rw [first] at step
    cases step
    rw [weight_header rfl, weight_body state]
    dsimp only
    rw [length_drop]
    by_cases stays : marker = startMarker
    · rw [if_pos stays]
      by_cases atOnce : place = 0
      · subst atOnce
        have begins : startMarker <+: reply.held.drop 0 := stays ▸ foundAt.2
        rw [if_pos begins]
        omega
      · split <;> omega
    · rw [if_neg stays]
      split <;> omega

variable (isJson)

theorem buffered : Buffered (pass isJson) more HeadedHere weight where
  more_nil reply := by rw [more, append_nil]
  more_append reply text rest := by rw [more, more, more, append_assoc]
  again_more reply out next text step headed := by
    cases state : reply.progress.state with
    | plain =>
      rw [pass_plain reply state] at step
      cases step
    | header =>
      rw [pass_header reply state] at step
      rw [pass_header (reply.more text) state]
      exact header_again_more reply state step headed
    | body kind =>
      rw [pass_body reply state] at step
      rw [pass_body (reply.more text) state]
      exact body_again_more reply step
  returns_more reply out next text step := by
    cases state : reply.progress.state with
    | plain =>
      rw [pass_plain reply state] at step
      cases step
      rw [pass_plain (reply.more text) state, pass_plain (more ⟨[], reply.progress⟩ text) state]
      rfl
    | header =>
      rw [pass_header reply state] at step
      obtain ⟨nothing, same⟩ := header_returns step
      rw [nothing, same]
      cases (reply.more text).pass isJson <;> rfl
    | body kind =>
      rw [pass_body reply state] at step
      have nextState := (body_returns_state reply step).trans state
      rw [pass_body (reply.more text) state, pass_body (next.more text) nextState]
      exact body_returns_more reply step
  returns_here reply out next text step headed := by
    cases state : reply.progress.state with
    | plain =>
      rw [pass_plain reply state] at step
      cases step
      intro awaiting
      cases state.symm.trans awaiting
    | header =>
      rw [pass_header reply state] at step
      obtain ⟨-, same⟩ := header_returns step
      rw [same]
      exact headed
    | body kind =>
      rw [pass_body reply state] at step
      intro awaiting
      have nextState := (body_returns_state reply step).trans state
      cases nextState.symm.trans awaiting
  lighter reply out next text step headed := by
    cases state : reply.progress.state with
    | plain =>
      rw [pass_plain reply state] at step
      cases step
    | header =>
      rw [pass_header reply state] at step
      exact header_lighter state step headed
    | body kind =>
      rw [pass_body reply state] at step
      exact body_lighter state step

end Reply

end SwarmLlm.Inference.Harmony
