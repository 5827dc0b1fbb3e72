import Mathlib.Data.List.Basic

namespace Lib

-- One pass of a loop that writes as it goes: around again, or out of the loop.
inductive Pass (A R : Type) where
  | again (out : List A) (next : R)
  | returns (out : List A) (next : R)

variable {A R : Type}

def Pass.after (front : List A) : Pass A R → Pass A R
  | .again out next => .again (front ++ out) next
  | .returns out next => .returns (front ++ out) next

def passes (pass : R → Pass A R) : Nat → R → Option (List A × R)
  | 0, _ => none
  | fuel + 1, reader =>
    match pass reader with
    | .returns out next => some (out, next)
    | .again out next => (passes pass fuel next).map fun rest => (out ++ rest.1, rest.2)

def pushEach (pass : R → Pass A R) (more : R → List A → R) (fuel : Nat) : R → List (List A) → Option (List A × R)
  | reader, [] => some ([], reader)
  | reader, piece :: rest =>
    match passes pass fuel (more reader piece) with
    | none => none
    | some (out, next) => (pushEach pass more fuel next rest).map fun later => (out ++ later.1, later.2)

inductive Settles (pass : R → Pass A R) : R → List A → R → Prop where
  | returns (reader : R) (out : List A) (next : R) (here : pass reader = .returns out next) : Settles pass reader out next
  | again (reader : R) (out : List A) (next : R) (rest : List A) (last : R) (here : pass reader = .again out next)
      (later : Settles pass next rest last) : Settles pass reader (out ++ rest) last

inductive Comes (pass : R → Pass A R) : R → R → Prop where
  | here (reader : R) : Comes pass reader reader
  | again (reader : R) (out : List A) (next last : R) (step : pass reader = .again out next)
      (later : Comes pass next last) : Comes pass reader last

def Along (pass : R → Pass A R) (Here : R → Prop) (reader : R) : Prop := ∀ met, Comes pass reader met → Here met

-- What it takes for the pieces of a text to come to the same as the whole: text
-- that comes later changes no pass that is made on what is there.
structure Buffered (pass : R → Pass A R) (more : R → List A → R) (Here : R → Prop) (weight : R → Nat) : Prop where
  more_nil : ∀ reader, more reader [] = reader
  more_append : ∀ reader text rest, more reader (text ++ rest) = more (more reader text) rest
  again_more : ∀ reader out next text, pass reader = .again out next → Here (more reader text) →
    pass (more reader text) = .again out (more next text)
  returns_more : ∀ reader out next text, pass reader = .returns out next →
    pass (more reader text) = (pass (more next text)).after out
  returns_here : ∀ reader out next text, pass reader = .returns out next → Here (more reader text) → Here (more next text)
  lighter : ∀ reader out next text, pass reader = .again out next → Here (more reader text) → weight next < weight reader

section Settling

variable {pass : R → Pass A R}

theorem settles_unique (reader : R) {out : List A} (other : List A) {last : R} {otherLast : R} (left : Settles pass reader out last)
    (right : Settles pass reader other otherLast) : out = other ∧ last = otherLast := by
  induction left generalizing other with
  | returns reader out next here =>
    cases right with
    | returns _ _ _ there =>
      cases here.symm.trans there
      exact ⟨rfl, rfl⟩
    | again _ _ _ _ _ there _ => cases here.symm.trans there
  | again reader out next rest last here later ih =>
    cases right with
    | returns _ _ _ there => cases here.symm.trans there
    | again _ _ _ otherRest _ there otherLater =>
      cases here.symm.trans there
      obtain ⟨sameRest, sameLast⟩ := ih otherRest otherLater
      exact ⟨by rw [sameRest], sameLast⟩

variable {out : List A} {next last reader : R}

theorem passes_of_settles (settles : Settles pass reader out last) :
    ∃ fuel, ∀ enough ≥ fuel, passes pass enough reader = some (out, last) := by
  induction settles with
  | returns reader out next here =>
    refine ⟨1, ?_⟩
    intro enough large
    obtain ⟨less, same⟩ := Nat.exists_eq_add_of_le' large
    rw [same, passes, here]
  | again reader out next rest last here later ih =>
    obtain ⟨fuel, runs⟩ := ih
    refine ⟨fuel + 1, ?_⟩
    intro enough large
    obtain ⟨less, same⟩ := Nat.exists_eq_add_of_le' large
    rw [same, ← Nat.add_assoc, passes, here]
    dsimp only
    rw [runs (less + fuel) (Nat.le_add_left _ _)]
    rfl

theorem settles_after {front : List A} (here : pass reader = (pass next).after front)
    (settles : Settles pass next out last) : Settles pass reader (front ++ out) last := by
  cases settles with
  | returns _ _ _ there =>
    rw [there] at here
    exact .returns reader _ _ here
  | again _ out middle rest _ there later =>
    rw [there] at here
    rw [← List.append_assoc]
    exact .again reader _ middle rest last here later

theorem along_next {Here : R → Prop} (step : pass reader = .again out next) (along : Along pass Here reader) :
    Along pass Here next :=
  fun met comes => along met (.again reader out next met step comes)

theorem along_here {Here : R → Prop} (along : Along pass Here reader) : Here reader :=
  along reader (.here reader)

end Settling

namespace Buffered

variable {pass : R → Pass A R} {more : R → List A → R} {Here : R → Prop} {weight : R → Nat}
  (buffered : Buffered pass more Here weight)

include buffered

theorem settles (reader : R) (text : List A)
    (along : Along pass Here (more reader text)) : ∃ out last, Settles pass reader out last := by
  induction size : weight reader using Nat.strongRecOn generalizing reader with
  | _ size ih =>
    have here := along_here along
    cases step : pass reader with
    | returns out next => exact ⟨out, next, .returns reader out next step⟩
    | again out next =>
      have smaller := buffered.lighter reader out next text step here
      have stepped := buffered.again_more reader out next text step here
      obtain ⟨rest, last, later⟩ :=
        ih (weight next) (by omega) next (along_next stepped along) rfl
      exact ⟨out ++ rest, last, .again reader out next rest last step later⟩

theorem settles_more (reader next : R) (out text : List A)
    (settles : Settles pass reader out next) (along : Along pass Here (more reader text)) :
    Along pass Here (more next text) ∧ ∀ rest last, Settles pass (more next text) rest last →
      Settles pass (more reader text) (out ++ rest) last := by
  induction settles with
  | returns reader out next step =>
    have stepped := buffered.returns_more reader out next text step
    refine ⟨?_, fun rest last => settles_after stepped⟩
    intro met comes
    cases comes with
    | here => exact buffered.returns_here reader out next text step (along_here along)
    | again _ written middle _ further later =>
      rw [further] at stepped
      exact along met (.again _ (out ++ written) middle met stepped later)
  | again reader out middle rest next step later ih =>
    have stepped := buffered.again_more reader out middle text step (along_here along)
    obtain ⟨alongLast, joins⟩ := ih (along_next stepped along)
    refine ⟨alongLast, ?_⟩
    intro tail last settled
    rw [List.append_assoc]
    exact .again _ out _ _ last stepped (joins tail last settled)

theorem at_rest (reader next : R) (out : List A)
    (settles : Settles pass reader out next) : pass next = .returns [] next := by
  induction settles with
  | returns reader out next step =>
    have same := buffered.returns_more reader out next [] step
    rw [buffered.more_nil, buffered.more_nil, step] at same
    cases further : pass next with
    | again written middle =>
      rw [further] at same
      cases same
    | returns written middle =>
      rw [further, Pass.after, Pass.returns.injEq] at same
      have nothing : written = [] := List.self_eq_append_right.mp same.1
      rw [nothing, same.2]
  | again _ _ _ _ _ _ _ ih => exact ih

theorem pushed (reader : R) (pieces : List (List A))
    (rests : pass reader = .returns [] reader) (along : Along pass Here (more reader pieces.flatten)) :
    ∃ out last, Settles pass (more reader pieces.flatten) out last ∧
      ∃ fuel, ∀ enough ≥ fuel, pushEach pass more enough reader pieces = some (out, last) := by
  induction pieces generalizing reader with
  | nil =>
    refine ⟨[], reader, ?_, 0, fun _ _ => rfl⟩
    rw [List.flatten_nil, buffered.more_nil]
    exact .returns reader [] reader rests
  | cons piece pieces ih =>
    rw [List.flatten_cons, buffered.more_append] at along ⊢
    obtain ⟨out, next, settled⟩ := buffered.settles (more reader piece) pieces.flatten along
    obtain ⟨alongNext, joins⟩ := buffered.settles_more (more reader piece) next out pieces.flatten settled along
    obtain ⟨rest, last, later, fuel, runs⟩ := ih next (buffered.at_rest _ next out settled) alongNext
    obtain ⟨own, once⟩ := passes_of_settles settled
    refine ⟨out ++ rest, last, joins rest last later, max own fuel, ?_⟩
    intro enough large
    rw [pushEach, once enough (by omega)]
    dsimp only
    rw [runs enough (by omega)]
    rfl

theorem pushed_as_whole (reader : R) (text : List A)
    (rests : pass reader = .returns [] reader) (along : Along pass Here (more reader text)) :
    ∃ out last, (∃ fuel, ∀ enough ≥ fuel, passes pass enough (more reader text) = some (out, last)) ∧
      ∀ pieces : List (List A), pieces.flatten = text →
        ∃ fuel, ∀ enough ≥ fuel, pushEach pass more enough reader pieces = some (out, last) := by
  have still : Along pass Here (more (more reader text) []) := by rw [buffered.more_nil]; exact along
  obtain ⟨out, last, settled⟩ := buffered.settles (more reader text) [] still
  refine ⟨out, last, passes_of_settles settled, ?_⟩
  intro pieces whole
  rw [← whole] at along settled
  obtain ⟨other, otherLast, otherSettled, fuel, runs⟩ := buffered.pushed reader pieces rests along
  obtain ⟨sameOut, sameLast⟩ := settles_unique _ other settled otherSettled
  exact ⟨fuel, by rw [sameOut, sameLast]; exact runs⟩

end Buffered

end Lib
