import SwarmLlm.Inference.HarmonyPasses

namespace SwarmLlm.Inference.Harmony

open Lib List Reply

variable (isJson : Text → Bool)

def Headed (raw : Text) : Prop := Along (pass isJson) HeadedHere (new.more raw)

theorem new_at_rest : new.pass isJson = .returns [] new := rfl

theorem no_message_unchanged {raw : Text} {fuel : Nat} (missing : search messageMarker raw = none) :
    rewrite isJson (fuel + 2) raw = some raw := by
  have state : (new.more raw).progress.state = .header := rfl
  have held : (new.more raw).held = raw := rfl
  have first : (new.more raw).progress.first = true := rfl
  rw [rewrite, push, passes, pass_header _ state, headerPass, held, missing]
  dsimp only
  by_cases awaited : awaits raw = true
  · rw [if_pos awaited]
    rfl
  rw [if_neg awaited, if_pos first]
  dsimp only
  rw [passes, pass_plain _ rfl]
  simp only [Option.map_some, nil_append]
  rw [finish]
  simp only [new, more, Bool.false_eq_true, if_false]
  rw [closeThinking]
  simp only [Bool.false_and, Bool.false_eq_true, if_false, append_nil]

theorem opener_long {opener : Text} (listed : opener ∈ headerOpeners) : opener ≠ [] :=
  (by decide : ∀ opener ∈ headerOpeners, opener ≠ []) opener listed

theorem opens_more {text : Text} (more : Text) (opened : opens text = true) : opens (text ++ more) = true := by
  obtain ⟨opener, listed, begins⟩ := opens_iff.mp opened
  cases begins with
  | inl written => exact opens_iff.mpr ⟨opener, listed, .inl (written.trans (prefix_append _ _))⟩
  | inr trimmed =>
    have left : trimStart isLeadingWhitespace text ≠ [] := by
      intro blank
      rw [blank] at trimmed
      exact opener_long listed (prefix_nil.mp trimmed)
    refine opens_iff.mpr ⟨opener, listed, .inr ?_⟩
    rw [trim_start_append left]
    exact trimmed.trans (prefix_append _ _)

theorem message_in_opener {front opener : Text} (listed : opener ∈ headerOpeners)
    (begins : front ++ messageMarker.take (messageMarker.length - 1) <+: opener) : front = [] := by
  have short : ∀ opener ∈ headerOpeners, opener.length ≤ 13 := by decide
  have only : ∀ opener ∈ headerOpeners, ∀ place < 14,
      messageMarker.take (messageMarker.length - 1) <+: opener.drop place → place = 0 := by decide
  have bound := begins.length_le
  rw [length_append] at bound
  have within := short opener listed
  have inside : messageMarker.take (messageMarker.length - 1) <+: opener.drop front.length := by
    obtain ⟨rest, same⟩ := begins
    rw [← same, append_assoc, drop_left]
    exact prefix_append _ _
  exact length_eq_zero_iff.mp (only opener listed front.length (by omega) inside)

theorem message_opens {raw : Text} {place : Nat} (found : search messageMarker raw = some place)
    (awaited : awaits (raw.take (place + (messageMarker.length - 1))) = true) : opens raw = true := by
  obtain ⟨within, rest, marker⟩ := (search_some messageMarker place found).1
  have cut : raw.take (place + (messageMarker.length - 1)) = raw.take place ++ messageMarker.take (messageMarker.length - 1) := by
    rw [take_add, ← marker, take_append_of_le_length (Nat.sub_le _ _)]
  have whole : raw = raw.take place ++ (messageMarker ++ rest) := by rw [marker, take_append_drop]
  have afterBlank (blank : trimStart isLeadingWhitespace (raw.take place) = []) : opens raw = true := by
    refine opens_iff.mpr ⟨messageMarker, by decide, .inr ?_⟩
    rw [whole, trim_start_blank _ _ _ blank]
    exact prefix_append messageMarker rest
  cases awaits_iff.mp awaited with
  | inl opened =>
    have longer := opens_more (raw.drop (place + (messageMarker.length - 1))) opened.1
    rwa [take_append_drop] at longer
  | inr may =>
    rw [cut] at may
    obtain ⟨opener, listed, begins⟩ := may_open_iff.mp may
    cases begins with
    | inl written =>
      apply afterBlank
      rw [message_in_opener listed written]
      rfl
    | inr trimmed =>
      by_cases blank : trimStart isLeadingWhitespace (raw.take place) = []
      · exact afterBlank blank
      · rw [trim_start_append blank] at trimmed
        exact absurd (message_in_opener listed trimmed) blank

namespace Progress

theorem end_thinking_first (progress : Progress) : progress.endThinking.2.first = progress.first := by
  unfold endThinking
  split <;> rfl

variable {progress : Progress}

theorem open_body_first (header : Text) : (progress.openBody header).2.first = progress.first := by
  unfold openBody
  dsimp only
  split
  · split <;> rfl
  · exact end_thinking_first { progress with fresh := true }
  · exact end_thinking_first { progress with fresh := true }
  · rfl

theorem end_body_first (kind : Body) (text : Text) (ended : Bool) :
    (progress.endBody isJson kind text ended).2.first = progress.first := by
  have written : (progress.write kind text).2.first = progress.first := by
    unfold write
    split
    · rfl
    · cases kind <;> rfl
  unfold endBody
  dsimp only
  rw [← written]
  cases kind with
  | reasoning | content | unseen => rfl
  | call =>
    unfold close writeCall
    dsimp only
    split <;> rfl

end Progress

-- Past the first header, on a `<|start|>` without a `<|message|>` and over the limit.
structure Stuck (reply : Reply) : Prop where
  passed : reply.progress.first = false
  reading : reply.progress.state ≠ .plain
  missing : search messageMarker reply.held = none
  begins : startMarker <+: reply.held
  long : headerLimit < utf8Len reply.held

theorem stuck_given_up {reply : Reply} (stuck : Stuck reply) : awaits reply.held = false := by
  have unblank : trimStart isLeadingWhitespace reply.held = reply.held := by
    obtain ⟨rest, same⟩ := stuck.begins
    rw [← same]
    rfl
  by_contra awaited
  rw [Bool.not_eq_false] at awaited
  cases awaits_iff.mp awaited with
  | inl opened =>
    have bound := opened.2
    have long := stuck.long
    omega
  | inr may =>
    obtain ⟨opener, listed, begins⟩ := may_open_iff.mp may
    rw [unblank, or_self] at begins
    obtain ⟨rest, same⟩ := begins
    have short : utf8Len opener ≤ headerLimit :=
      (by decide : ∀ opener ∈ headerOpeners, utf8Len opener ≤ headerLimit) opener listed
    have total := utf8_len_append reply.held rest
    rw [same] at total
    have long := stuck.long
    omega

theorem stuck_pass {reply : Reply} (stuck : Stuck reply) : ∃ out next, reply.pass isJson = .again out next ∧ Stuck next := by
  cases state : reply.progress.state with
  | plain => exact absurd state stuck.reading
  | header =>
    obtain ⟨kind, opened⟩ := Progress.open_body_state reply.progress []
    have step : reply.pass isJson = .again (reply.progress.openBody []).1 ⟨reply.held, (reply.progress.openBody []).2⟩ := by
      rw [pass_header reply state, headerPass, stuck.missing]
      dsimp only
      rw [stuck_given_up stuck, if_neg Bool.false_ne_true, stuck.passed, if_neg Bool.false_ne_true]
    have passed := (Progress.open_body_first []).trans stuck.passed
    have reading : (reply.progress.openBody []).2.state ≠ .plain := by rw [opened]; nofun
    exact ⟨_, _, step, passed, reading, stuck.missing, stuck.begins, stuck.long⟩
  | body kind =>
    have found : FoundAt startMarker reply.held 0 := ⟨Nat.zero_le _, stuck.begins⟩
    have first : firstOf bodyEnds reply.held = some (0, startMarker) :=
      first_of_eq '<' bodyEnds reply.held startMarker 0 body_ends_marked (by decide) found
        fun _ _ _ below => absurd below (Nat.not_lt_zero _)
    let ended := reply.progress.endBody isJson kind [] false
    have step : reply.pass isJson = .again ended.1 ⟨reply.held, { ended.2 with state := .header }⟩ := by
      rw [pass_body reply state, bodyPass, first]
      rfl
    have passed := (Progress.end_body_first isJson kind [] false).trans stuck.passed
    exact ⟨_, _, step, passed, nofun, stuck.missing, stuck.begins, stuck.long⟩

theorem stuck_never_returns (reply : Reply) (stuck : Stuck reply) (fuel : Nat) : passes (pass isJson) fuel reply = none := by
  induction fuel generalizing reply with
  | zero => rfl
  | succ fuel ih =>
    obtain ⟨out, next, step, still⟩ := stuck_pass isJson stuck
    rw [passes, step]
    dsimp only
    rw [ih next still]
    rfl

theorem lighter_unless_stuck {reply next : Reply} {out : Text} (free : ¬Stuck reply)
    (step : reply.pass isJson = .again out next) : next.weight < reply.weight := by
  cases state : reply.progress.state with
  | plain =>
    rw [pass_plain reply state] at step
    cases step
  | body kind =>
    rw [pass_body reply state] at step
    exact body_lighter state step
  | header =>
    rw [pass_header reply state] at step
    cases found : search messageMarker reply.held with
    | some place => exact message_lighter state step found
    | none =>
      have headed : HeadedHere (reply.more []) := by
        intro _
        simp only [more, append_nil, found]
        by_cases first : reply.progress.first = true
        · exact .inl first
        · exact .inr fun long => free ⟨Bool.eq_false_iff.mpr first, by simp [state], found, long.1, long.2⟩
      exact header_lighter state step headed

theorem settles_unless_stuck {reply : Reply} (free : Along (pass isJson) (¬Stuck ·) reply) :
    ∃ out last, Settles (pass isJson) reply out last := by
  induction size : reply.weight using Nat.strongRecOn generalizing reply with
  | _ size ih =>
    cases step : reply.pass isJson with
    | returns out next => exact ⟨out, next, .returns reply out next step⟩
    | again out next =>
      have lighter := lighter_unless_stuck isJson (free reply (.here reply)) step
      obtain ⟨rest, last, later⟩ := ih next.weight (size ▸ lighter) (along_next step free) rfl
      exact ⟨_, last, .again reply out next rest last step later⟩

theorem comes_to_stuck {reply met : Reply} (comes : Comes (pass isJson) reply met) (stuck : Stuck met) (fuel : Nat) :
    passes (pass isJson) fuel reply = none := by
  induction comes generalizing fuel with
  | here => exact stuck_never_returns isJson _ stuck fuel
  | again reader out next last step later ih =>
    cases fuel with
    | zero => rfl
    | succ fuel => simp [passes, step, ih stuck fuel]

theorem push_returns_iff (reply : Reply) (raw : Text) :
    (∃ fuel, ∀ enough ≥ fuel, (push isJson enough reply raw).isSome = true) ↔ Along (pass isJson) (¬Stuck ·) (reply.more raw) := by
  refine ⟨fun ⟨fuel, ends⟩ met comes stuck => ?_, fun free => ?_⟩
  · have never := ends fuel le_rfl
    rw [push, comes_to_stuck isJson comes stuck] at never
    cases never
  · obtain ⟨out, last, settles⟩ := settles_unless_stuck isJson free
    obtain ⟨fuel, runs⟩ := passes_of_settles settles
    exact ⟨fuel, fun enough large => by rw [push, runs enough large]; rfl⟩

def headedWithin : Nat → Reply → Bool
  | 0, _ => false
  | fuel + 1, reply =>
    decide (HeadedHere reply) &&
      match reply.pass isJson with
      | .returns _ _ => true
      | .again _ next => headedWithin fuel next

theorem headed_within (fuel : Nat) (reply : Reply) (checked : headedWithin isJson fuel reply = true) :
    Along (pass isJson) HeadedHere reply := by
  induction fuel generalizing reply with
  | zero => cases checked
  | succ fuel ih =>
    rw [headedWithin, Bool.and_eq_true] at checked
    intro met comes
    cases comes with
    | here => exact of_decide_eq_true checked.1
    | again _ out next _ step later =>
      rw [step] at checked
      exact ih next checked.2 met later

theorem streamed_as_rewritten (raw : Text) (headed : Headed isJson raw) :
    ∃ out, (∃ fuel, ∀ enough ≥ fuel, rewrite isJson enough raw = some out) ∧ (∀ pieces : List Text, pieces.flatten = raw →
        ∃ fuel, ∀ enough ≥ fuel, streamed isJson enough pieces = some out) ∧
      (opens raw = false → out = raw) := by
  obtain ⟨out, last, ⟨fuel, whole⟩, cut⟩ :=
    (buffered isJson).pushed_as_whole new raw (new_at_rest isJson) headed
  have rewritten : ∀ enough ≥ fuel, rewrite isJson enough raw = some (out ++ (last.finish isJson).1) := by
    intro enough large
    rw [rewrite, push, whole enough large]
    rfl
  refine ⟨out ++ (last.finish isJson).1, ⟨fuel, rewritten⟩, ?_, ?_⟩
  · intro pieces joined
    obtain ⟨enoughFor, runs⟩ := cut pieces joined
    refine ⟨enoughFor, ?_⟩
    intro enough large
    rw [streamed, runs enough large]
    rfl
  intro unopened
  have here := along_here headed rfl
  cases found : search messageMarker raw with
  | some place =>
    have held : (new.more raw).held = raw := rfl
    rw [held, found] at here
    rw [message_opens found here] at unopened
    cases unopened
  | none =>
    have same := (rewritten (fuel + 2) (Nat.le_add_right _ _)).symm.trans (no_message_unchanged isJson found)
    exact Option.some.inj same

def sampleReply : Text := "<|channel|>analysis<|message|>a<|end|><|start|>assistant<|channel|>final<|message|>b".toList

theorem streamed_as_rewritten_sample :
    Headed (fun _ => false) sampleReply ∧ ∃ out, (∃ fuel, ∀ enough ≥ fuel, rewrite (fun _ => false) enough sampleReply = some out) ∧
        (∀ pieces : List Text, pieces.flatten = sampleReply →
          ∃ fuel, ∀ enough ≥ fuel, streamed (fun _ => false) enough pieces = some out) ∧
        (opens sampleReply = false → out = sampleReply) := by
  have headed : Headed (fun _ => false) sampleReply := headed_within (fun _ => false) 6 _ (by decide +kernel)
  exact ⟨headed, streamed_as_rewritten (fun _ => false) sampleReply headed⟩

-- A `<|message|>` anywhere in a text read as a whole makes a header of all before it.
theorem stray_message_differs :
    opens "Hi<|message|>x".toList = false ∧ rewrite (fun _ => false) 3 "Hi<|message|>x".toList = some "x".toList ∧
      streamed (fun _ => false) 3 ["Hi".toList, "<|message|>x".toList] = some "Hi<|message|>x".toList := by
  decide +kernel

end SwarmLlm.Inference.Harmony
