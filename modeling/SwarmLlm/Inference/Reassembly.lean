import Mathlib.Data.List.Induction
import SwarmLlm.Lib.Run
import SwarmLlm.Lib.Saturating
import SwarmLlm.Lib.Table

namespace SwarmLlm.Inference

open Lib List

variable {P : Type}

structure StreamingToken (P : Type) where
  tokenId : Nat
  body : P
  deriving DecidableEq

structure StreamReassembler (P : Type) where
  sequenced : Bool
  nextSeq : Nat
  pending : Table Nat (StreamingToken P)
  expectedTotal : Option Nat
  limit : Nat

def overrunSlack : Nat := 64

namespace StreamReassembler

def new (maxTokens : Nat) : StreamReassembler P := ⟨false, 0, ∅, none, satAddU32 maxTokens overrunSlack⟩

variable (stream : StreamReassembler P)

def buffered : Nat := stream.pending.keys.length

def emitted : Nat := stream.nextSeq

def overruns (token : StreamingToken P) : Bool :=
  stream.limit ≤ token.tokenId || stream.limit ≤ stream.nextSeq + stream.buffered

-- The consecutive run from `next`. Each turn takes one token out, so as many
-- turns as tokens reach the end.
def ready : Nat → Nat → Table Nat (StreamingToken P) → List (StreamingToken P) × Nat × Table Nat (StreamingToken P)
  | 0, next, pending => ([], next, pending)
  | fuel + 1, next, pending =>
    match pending.lookup next with
    | none => ([], next, pending)
    | some token =>
      let rest := ready fuel (satAddU32 next 1) (pending.erase next)
      (token :: rest.1, rest.2)

def fill (slot : Nat) (token : StreamingToken P) : List (StreamingToken P) × StreamReassembler P :=
  let pending := stream.pending.insert slot token
  let result := ready pending.keys.length stream.nextSeq pending
  (result.1, { stream with nextSeq := result.2.1, pending := result.2.2 })

def hear (number : Nat) : StreamReassembler P :=
  { stream with sequenced := stream.sequenced || decide (0 < number) }

def pushContent (token : StreamingToken P) : List (StreamingToken P) × StreamReassembler P :=
  let heard := stream.hear token.tokenId
  if heard.sequenced && decide (token.tokenId < heard.nextSeq) then ([], heard)
  else heard.fill (if heard.sequenced then token.tokenId else heard.nextSeq) token

def markDone (total : Nat) : StreamReassembler P :=
  { stream.hear total with expectedTotal := some total }

def isComplete : Bool :=
  match stream.expectedTotal with
  | none => false
  | some total => !stream.sequenced || decide (total ≤ stream.nextSeq)

def missing : Nat := (stream.expectedTotal.map (· - stream.nextSeq)).getD 0

def hasHole : Bool :=
  stream.sequenced && (decide (0 < stream.buffered) || decide (0 < stream.missing))

def resendRange : Option (Nat × Nat) :=
  if stream.hasHole then
    match stream.pending.keys.min?.or stream.expectedTotal with
    | none => none
    | some stop => if stream.nextSeq < stop then some (stream.nextSeq, stop) else none
  else none

end StreamReassembler

inductive Message (P : Type) where
  | content (token : StreamingToken P)
  | done (total : Nat)

structure Receiver (P : Type) where
  stream : StreamReassembler P
  shown : List (StreamingToken P)

open Receiver

def Receiver.start (maxTokens : Nat) : Receiver P := ⟨.new maxTokens, []⟩

def Receiver.take (receiver : Receiver P) : Message P → Receiver P
  | .content token =>
    let pushed := receiver.stream.pushContent token
    ⟨pushed.2, receiver.shown ++ pushed.1⟩
  | .done total => { receiver with stream := receiver.stream.markDone total }

def Receiver.Asked (receiver : Receiver P) : Message P → Prop
  | .content token => receiver.stream.overruns token = false
  | .done _ => True

open StreamReassembler

variable {stream : StreamReassembler P}

theorem push_cases {token : StreamingToken P} : ((stream.hear token.tokenId).sequenced = true ∧ token.tokenId < stream.nextSeq ∧
        stream.pushContent token = ([], stream.hear token.tokenId)) ∨
      ((stream.hear token.tokenId).sequenced = true ∧ stream.nextSeq ≤ token.tokenId ∧
        stream.pushContent token = (stream.hear token.tokenId).fill token.tokenId token) ∨
      (stream.sequenced = false ∧ token.tokenId = 0 ∧
        stream.pushContent token = (stream.hear token.tokenId).fill stream.nextSeq token) := by
  have same : (stream.hear token.tokenId).nextSeq = stream.nextSeq := rfl
  cases numbered : (stream.hear token.tokenId).sequenced with
  | false =>
    have silent := numbered
    simp only [hear, Bool.or_eq_false_iff, decide_eq_false_iff_not, not_lt, Nat.le_zero] at silent
    exact .inr (.inr ⟨silent.1, silent.2, by simp [pushContent, numbered, same]⟩)
  | true =>
    by_cases past : token.tokenId < stream.nextSeq
    · exact .inl ⟨rfl, past, by simp [pushContent, numbered, same, past]⟩
    · exact .inr (.inl ⟨rfl, Nat.le_of_not_lt past, by simp [pushContent, numbered, same, past]⟩)

section Bound

variable {maxTokens : Nat} (pending : Table Nat (StreamingToken P)) (slot : Nat) (token : StreamingToken P)

theorem keys_insert_length : (pending.insert slot token).keys.length ≤ pending.keys.length + 1 := by
  rw [AList.keys_insert, length_cons]
  exact Nat.succ_le_succ length_erase_le

theorem keys_erase_length (found : pending.lookup slot = some token) :
    (pending.erase slot).keys.length + 1 = pending.keys.length := by
  have member : slot ∈ pending.keys := AList.lookup_isSome.mp (by rw [found]; rfl)
  rw [AList.keys_erase, length_erase_of_mem member]
  have := length_pos_of_mem member
  omega

theorem ready_counts (fuel next : Nat) (pending : Table Nat (StreamingToken P)) (fits : next + pending.keys.length ≤ u32Max) :
    (ready fuel next pending).2.1 = next + (ready fuel next pending).1.length ∧
      (ready fuel next pending).2.2.keys.length + (ready fuel next pending).1.length = pending.keys.length := by
  induction fuel generalizing next pending with
  | zero => exact ⟨rfl, rfl⟩
  | succ fuel ih =>
    rw [ready]
    cases found : pending.lookup next with
    | none => exact ⟨rfl, rfl⟩
    | some token =>
      have shorter := keys_erase_length pending next token found
      have exact : satAddU32 next 1 = next + 1 := by
        unfold satAddU32
        omega
      have counted := ih (next + 1) (pending.erase next) (by omega)
      simp only [exact, length_cons]
      omega

theorem fill_within {slot : Nat} {token : StreamingToken P}
    (small : stream.limit ≤ u32Max) (room : stream.emitted + stream.buffered < stream.limit) :
    (stream.fill slot token).2.emitted = stream.emitted + (stream.fill slot token).1.length ∧
      (stream.fill slot token).2.emitted + (stream.fill slot token).2.buffered ≤ stream.limit := by
  unfold emitted buffered at room
  have grown := keys_insert_length stream.pending slot token
  have counted := ready_counts (stream.pending.insert slot token).keys.length stream.nextSeq
    (stream.pending.insert slot token) (by omega)
  simp only [fill, emitted, buffered]
  omega

theorem push_within (stream : StreamReassembler P) (token : StreamingToken P) (small : stream.limit ≤ u32Max)
    (asked : stream.overruns token = false) :
    (stream.pushContent token).2.limit = stream.limit ∧
      (stream.pushContent token).2.emitted = stream.emitted + (stream.pushContent token).1.length ∧
      (stream.pushContent token).2.emitted + (stream.pushContent token).2.buffered ≤ stream.limit := by
  simp only [overruns, Bool.or_eq_false_iff, decide_eq_false_iff_not, not_le] at asked
  rcases push_cases with ⟨_, _, pushed⟩ | ⟨_, _, pushed⟩ | ⟨_, _, pushed⟩ <;> rw [pushed]
  · exact ⟨rfl, rfl, le_of_lt asked.2⟩
  · exact ⟨rfl, fill_within small asked.2⟩
  · exact ⟨rfl, fill_within small asked.2⟩

structure Bounded (maxTokens : Nat) (receiver : Receiver P) : Prop where
  limit : receiver.stream.limit = satAddU32 maxTokens overrunSlack
  counted : receiver.shown.length = receiver.stream.emitted
  within : receiver.stream.emitted + receiver.stream.buffered ≤ receiver.stream.limit

theorem take_bounded {receiver : Receiver P} {message : Message P} (bounded : Bounded maxTokens receiver)
    (asked : receiver.Asked message) : Bounded maxTokens (receiver.take message) := by
  cases message with
  | done total => exact { bounded with }
  | content token =>
    have small : receiver.stream.limit ≤ u32Max := by
      rw [bounded.limit]
      exact min_le_left _ _
    obtain ⟨limit, emitted, within⟩ := push_within receiver.stream token small asked
    refine ⟨limit.trans bounded.limit, ?_, limit.symm ▸ within⟩
    rw [Receiver.take, length_append, bounded.counted, emitted]

theorem run_bounded {messages : List (Message P)} (asked : RunMeets take Receiver.Asked (.start maxTokens) messages) :
    Bounded maxTokens (run take (.start maxTokens) messages) := by
  refine run_invariant Receiver.Asked (Bounded maxTokens) ?_ _ messages ⟨rfl, rfl, Nat.zero_le _⟩ asked
  exact fun receiver message bounded asked => take_bounded bounded asked

end Bound

structure Ready (source : List (StreamingToken P)) (next : Nat) (pending : Table Nat (StreamingToken P))
    (result : List (StreamingToken P) × Nat × Table Nat (StreamingToken P)) : Prop where
  forward : next ≤ result.2.1
  inside : result.2.1 ≤ max next source.length
  taken : result.1 = (source.drop next).take (result.2.1 - next)
  stops : result.2.2.lookup result.2.1 = none
  filled : ∀ slot, next ≤ slot → slot < result.2.1 → (pending.lookup slot).isSome
  rest : ∀ slot, result.2.2.lookup slot = if next ≤ slot ∧ slot < result.2.1 then none else pending.lookup slot

variable {source : List (StreamingToken P)} {next : Nat} {pending : Table Nat (StreamingToken P)}

theorem ready_stops (empty : pending.lookup next = none) : Ready source next pending ([], next, pending) where
  forward := le_refl next
  inside := le_max_left next _
  taken := by simp
  stops := empty
  filled slot low high := absurd (lt_of_le_of_lt low high) (lt_irrefl next)
  rest slot := (if_neg fun between => lt_irrefl next (lt_of_le_of_lt between.1 between.2)).symm

theorem ready_goes_on {token : StreamingToken P} (found : pending.lookup next = some token)
    (right : source[next]? = some token) (result : List (StreamingToken P) × Nat × Table Nat (StreamingToken P))
    (later : Ready source (next + 1) (pending.erase next) result) :
    Ready source next pending (token :: result.1, result.2) where
  forward := Nat.le_of_succ_le later.forward
  inside := by
    have last := later.inside
    have inside := (List.getElem?_eq_some_iff.mp right).1
    change result.2.1 ≤ _
    omega
  taken := by
    obtain ⟨inside, rfl⟩ := List.getElem?_eq_some_iff.mp right
    have ahead := later.forward
    have more : result.2.1 - next = (result.2.1 - (next + 1)) + 1 := by omega
    rw [drop_eq_getElem_cons inside, later.taken, more, take_succ_cons]
  stops := later.stops
  filled slot low high := by
    by_cases same : slot = next
    · rw [same, found]
      rfl
    · have before := later.filled slot (by omega) high
      rwa [Table.lookup_erase_if, if_neg same] at before
  rest slot := by
    have ahead := later.forward
    change result.2.2.lookup slot = if next ≤ slot ∧ slot < result.2.1 then none else _
    rw [later.rest, Table.lookup_erase_if]
    by_cases same : slot = next
    · rw [if_pos same, ite_self, if_pos (by omega)]
    · rw [if_neg same]
      have shift : (next + 1 ≤ slot ∧ slot < result.2.1) ↔ (next ≤ slot ∧ slot < result.2.1) := by omega
      simp only [shift]

theorem ready_exact (fits : source.length ≤ u32Max) (fuel next : Nat) (pending : Table Nat (StreamingToken P))
    (enough : pending.keys.length ≤ fuel) (right : ∀ slot token, pending.lookup slot = some token → source[slot]? = some token) :
    Ready source next pending (ready fuel next pending) := by
  induction fuel generalizing next pending with
  | zero =>
    refine ready_stops (AList.lookup_eq_none.mpr fun member => ?_)
    have := length_pos_of_mem (AList.mem_keys.mp member)
    omega
  | succ fuel ih =>
    rw [ready]
    cases found : pending.lookup next with
    | none => exact ready_stops found
    | some token =>
      have inside := (List.getElem?_eq_some_iff.mp (right next token found)).1
      have exact : satAddU32 next 1 = next + 1 := by
        unfold satAddU32
        omega
      have shorter := keys_erase_length pending next token found
      have later := ih (next + 1) (pending.erase next) (by omega) fun slot other held =>
        right slot other (Table.lookup_erase_some held).2
      simp only [exact]
      exact ready_goes_on found (right next token found) _ later

variable (reply : List P)

def numbered : List (StreamingToken P) := reply.mapIdx fun index body => ⟨index, body⟩

inductive Arrival (count : Nat) where
  | content (index : Fin count)
  | done
  deriving DecidableEq

def Arrival.message : Arrival reply.length → Message P
  | .content index => .content ⟨index, reply.get index⟩
  | .done => .done reply.length

def received (maxTokens : Nat) (arrivals : List (Arrival reply.length)) : Receiver P :=
  run take (.start maxTokens) (arrivals.map (Arrival.message reply))

def ArrivedTo {count : Nat} (arrivals : List (Arrival count)) (k : Nat) : Prop :=
  k ≤ count ∧ (∀ index : Fin count, index.val < k → .content index ∈ arrivals) ∧
    ∀ index : Fin count, index.val = k → .content index ∉ arrivals

def InOrder (maxTokens : Nat) (arrivals : List (Arrival reply.length)) : Prop :=
  ∃ k, ArrivedTo arrivals k ∧ (received reply maxTokens arrivals).shown = (numbered reply).take k ∧
    ((received reply maxTokens arrivals).stream.isComplete = true ↔ .done ∈ arrivals ∧ k = reply.length)

def OpensTwice {count : Nat} (arrivals : List (Arrival count)) : Prop :=
  ∃ first rest, first.val = 0 ∧ arrivals = .content first :: .content first :: rest

structure Exact (reply : List P) (arrivals : List (Arrival reply.length)) (receiver : Receiver P) : Prop where
  within : receiver.stream.nextSeq ≤ reply.length
  shown : receiver.shown = (numbered reply).take receiver.stream.nextSeq
  ahead : ∀ slot token, receiver.stream.pending.lookup slot = some token →
    receiver.stream.nextSeq < slot ∧ (numbered reply)[slot]? = some token
  arrived : ∀ index : Fin reply.length, .content index ∈ arrivals ↔
    index.val < receiver.stream.nextSeq ∨ (receiver.stream.pending.lookup index.val).isSome
  total : receiver.stream.expectedTotal = if .done ∈ arrivals then some reply.length else none

-- Before the peer is known to number its tokens, at most token 0 has come.
def Known (arrivals : List (Arrival reply.length)) (receiver : Receiver P) : Prop :=
  receiver.stream.sequenced = true ∨ reply.length = 0 ∨ arrivals = [] ∨
    ∃ first : Fin reply.length, first.val = 0 ∧ arrivals = [.content first]

section Order

variable {reply : List P} {arrivals : List (Arrival reply.length)} {receiver : Receiver P}
  {result : List (StreamingToken P) × Nat × Table Nat (StreamingToken P)} {index : Fin reply.length}
  {maxTokens : Nat}

theorem numbered_get : (numbered reply)[index.val]? = some ⟨index, reply.get index⟩ := by
  rw [numbered, getElem?_mapIdx, getElem?_eq_getElem index.isLt]
  rfl

theorem exact_start : Exact reply [] (.start maxTokens) where
  within := Nat.zero_le _
  shown := rfl
  ahead slot token held := by cases held
  arrived index := by simp [start, new]
  total := rfl

theorem exact_done (exact : Exact reply arrivals receiver) :
    Exact reply (arrivals ++ [.done]) (receiver.take (.done reply.length)) where
  within := exact.within
  shown := exact.shown
  ahead := exact.ahead
  arrived index := by
    rw [mem_append, exact.arrived index]
    simp [Receiver.take, markDone, hear]
  total := by simp [Receiver.take, markDone]

theorem exact_past (exact : Exact reply arrivals receiver) (past : index.val < receiver.stream.nextSeq) :
    Exact reply (arrivals ++ [.content index]) ⟨receiver.stream.hear index, receiver.shown ++ []⟩ where
  within := exact.within
  shown := by rw [append_nil]; exact exact.shown
  ahead := exact.ahead
  arrived other := by
    rw [mem_append, exact.arrived other, mem_singleton]
    constructor
    · rintro (before | same)
      · exact before
      · cases same
        exact .inl past
    · exact .inl
  total := by
    rw [hear, exact.total]
    simp

theorem left_ahead {slot : Nat} {token : StreamingToken P} (spec : Ready (numbered reply) next pending result) (low : next ≤ slot)
    (held : result.2.2.lookup slot = some token) : result.2.1 < slot ∧ pending.lookup slot = some token := by
  have rest := spec.rest slot
  rw [held] at rest
  split at rest
  · cases rest
  · next outside =>
      refine ⟨Nat.lt_of_le_of_ne (by omega) fun level => ?_, rest.symm⟩
      have stops := spec.stops
      rw [level, held] at stops
      cases stops

theorem exact_ready (exact : Exact reply arrivals receiver) (next : receiver.stream.nextSeq ≤ index.val)
    (spec : Ready (numbered reply) receiver.stream.nextSeq (receiver.stream.pending.insert index.val ⟨index, reply.get index⟩) result) :
    Exact reply (arrivals ++ [.content index])
      ⟨{ receiver.stream.hear index with nextSeq := result.2.1, pending := result.2.2 }, receiver.shown ++ result.1⟩ where
  within := by
    have size : (numbered reply).length = reply.length := length_mapIdx
    have inside := spec.inside
    have within := exact.within
    change result.2.1 ≤ _
    omega
  shown := by
    have forward := spec.forward
    change _ = (numbered reply).take result.2.1
    rw [spec.taken, exact.shown, ← take_add, Nat.add_sub_cancel' forward]
  ahead slot token held := by
    have low : receiver.stream.nextSeq ≤ slot := by
      by_contra below
      have rest := spec.rest slot
      rw [if_neg (by omega), Table.lookup_insert_if, if_neg (by omega)] at rest
      have old := exact.ahead slot token (rest ▸ held)
      omega
    obtain ⟨above, held⟩ := left_ahead spec low held
    rw [Table.lookup_insert_if] at held
    split at held
    · next same =>
        rw [← Option.some.inj held, same]
        exact ⟨same ▸ above, numbered_get⟩
    · exact ⟨above, (exact.ahead slot token held).2⟩
  arrived other := by
    have forward := spec.forward
    have filled := spec.filled other.val
    change _ ↔ other.val < result.2.1 ∨ (result.2.2.lookup other.val).isSome
    rw [mem_append, exact.arrived other, mem_singleton, spec.rest, Table.lookup_insert_if]
    rw [Table.lookup_insert_if] at filled
    by_cases same : other = index
    · subst same
      by_cases passed : other.val < result.2.1
      · simp [passed]
      · simp [passed]
    have apart : other.val ≠ index.val := fun level => same (Fin.ext level)
    rw [if_neg apart] at filled ⊢
    by_cases shown : other.val < receiver.stream.nextSeq
    · simp [shown, lt_of_lt_of_le shown forward]
    · by_cases passed : other.val < result.2.1
      · simp [passed, filled (Nat.le_of_not_lt shown) passed]
      · simp [passed, shown, same]
  total := by
    change receiver.stream.expectedTotal = _
    rw [exact.total]
    simp

theorem exact_fill (fits : reply.length ≤ u32Max) (exact : Exact reply arrivals receiver)
    (next : receiver.stream.nextSeq ≤ index.val) :
    Exact reply (arrivals ++ [.content index])
      ⟨((receiver.stream.hear index).fill index ⟨index, reply.get index⟩).2,
        receiver.shown ++ ((receiver.stream.hear index).fill index ⟨index, reply.get index⟩).1⟩ := by
  have size : (numbered reply).length = reply.length := length_mapIdx
  refine exact_ready exact next (ready_exact (by rw [size]; exact fits) _ _ _ ?_ ?_)
  · exact le_refl _
  exact Table.forall_insert (fun slot token held => (exact.ahead slot token held).2) numbered_get

theorem known_numbered (exact : Exact reply arrivals receiver) (known : Known reply arrivals receiver)
    (silent : receiver.stream.sequenced = false) (zero : index.val = 0) :
    (arrivals = [] ∧ receiver.stream.nextSeq = index.val) ∨ arrivals = [.content index] := by
  rcases known with heard | empty | none | ⟨first, start, single⟩
  · rw [heard] at silent
    cases silent
  · exact absurd index.isLt (by omega)
  · refine .inl ⟨none, ?_⟩
    by_contra moved
    have arrived := (exact.arrived index).mpr (.inl (by omega))
    rw [none] at arrived
    cases arrived
  · have same : first = index := Fin.ext (start.trans zero.symm)
    exact .inr (same ▸ single)

theorem take_exact (fits : reply.length ≤ u32Max) (exact : Exact reply arrivals receiver) (known : Known reply arrivals receiver)
    {arrival : Arrival reply.length} (once : ¬ OpensTwice (arrivals ++ [arrival])) :
    Exact reply (arrivals ++ [arrival]) (receiver.take (arrival.message reply)) ∧
      Known reply (arrivals ++ [arrival]) (receiver.take (arrival.message reply)) := by
  cases arrival with
  | done =>
    refine ⟨exact_done exact, ?_⟩
    by_cases empty : reply.length = 0
    · exact .inr (.inl empty)
    · exact .inl (Bool.or_eq_true_iff.mpr (.inr (decide_eq_true (Nat.pos_of_ne_zero empty))))
  | content index =>
    rw [Arrival.message, Receiver.take]
    rcases push_cases with
      ⟨heard, past, pushed⟩ | ⟨heard, next, pushed⟩ | ⟨silent, zero, pushed⟩ <;> rw [pushed]
    · exact ⟨exact_past exact past, .inl heard⟩
    · exact ⟨exact_fill fits exact next, .inl heard⟩
    · rcases known_numbered exact known silent zero with ⟨none, level⟩ | single
      · rw [level]
        refine ⟨exact_fill fits exact (le_of_eq level), ?_⟩
        exact .inr (.inr (.inr ⟨index, zero, by rw [none]; rfl⟩))
      · exact absurd ⟨index, [], zero, by rw [single]; rfl⟩ once

variable (receiver)

theorem received_snoc (maxTokens : Nat) (arrival : Arrival reply.length) :
    received reply maxTokens (arrivals ++ [arrival]) = (received reply maxTokens arrivals).take (arrival.message reply) := by
  rw [received, map_append, run_append]
  rfl

theorem received_exact (fits : reply.length ≤ u32Max) (once : ¬ OpensTwice arrivals) :
    Exact reply arrivals (received reply maxTokens arrivals) ∧ Known reply arrivals (received reply maxTokens arrivals) := by
  induction arrivals using List.reverseRecOn with
  | nil => exact ⟨exact_start, .inr (.inr (.inl rfl))⟩
  | append_singleton arrivals arrival ih =>
    have before : ¬ OpensTwice arrivals := fun ⟨first, rest, zero, opens⟩ =>
      once ⟨first, rest ++ [arrival], zero, by rw [opens]; rfl⟩
    rw [received_snoc]
    exact take_exact fits (ih before).1 (ih before).2 once

theorem exact_in_order (exact : Exact reply arrivals (received reply maxTokens arrivals))
    (known : Known reply arrivals (received reply maxTokens arrivals)) : InOrder reply maxTokens arrivals := by
  refine ⟨(received reply maxTokens arrivals).stream.nextSeq, ⟨exact.within, ?_, ?_⟩, exact.shown, ?_⟩
  · exact fun index before => (exact.arrived index).mpr (.inl before)
  · intro index level arrived
    rcases (exact.arrived index).mp arrived with before | waiting
    · omega
    · obtain ⟨token, held⟩ := Option.isSome_iff_exists.mp waiting
      have := (exact.ahead index.val token held).1
      omega
  have within := exact.within
  rw [isComplete, exact.total]
  by_cases ended : Arrival.done ∈ arrivals
  · rw [if_pos ended]
    simp only [ended, true_and, Bool.or_eq_true, Bool.not_eq_true', decide_eq_true_eq]
    rcases known with heard | empty | none | ⟨first, _, single⟩
    · simp only [heard, Bool.true_eq_false, false_or]
      omega
    · omega
    · rw [none] at ended
      cases ended
    · rw [single] at ended
      simp at ended
  · simp [ended]

theorem shown_grows (message : Message P) : receiver.shown <+: (receiver.take message).shown := by
  cases message with
  | content token => exact prefix_append _ _
  | done total => exact prefix_rfl

theorem run_shown_grows {messages : List (Message P)} : receiver.shown <+: (run take receiver messages).shown := by
  induction messages generalizing receiver with
  | nil => exact prefix_rfl
  | cons message rest ih => exact (shown_grows receiver message).trans (ih (receiver.take message))

-- Token 0 alone does not say that the peer numbers its tokens, so a second copy
-- is filed behind the first.
theorem opening_shown_twice (twice : OpensTwice arrivals) :
    ∃ token, [token, token] <+: (received reply maxTokens arrivals).shown := by
  obtain ⟨first, rest, zero, rfl⟩ := twice
  refine ⟨⟨0, reply.get first⟩, ?_⟩
  have message : Arrival.message reply (.content first) = .content ⟨0, reply.get first⟩ := by
    rw [Arrival.message, zero]
  have opened : (((start maxTokens).take (.content ⟨0, reply.get first⟩)).take (.content ⟨0, reply.get first⟩)).shown =
      [⟨0, reply.get first⟩, ⟨0, reply.get first⟩] := by rfl
  rw [received, map_cons, map_cons, message, run_cons, run_cons, ← opened]
  exact run_shown_grows _

end Order

theorem numbered_nodup : (numbered reply).Nodup := by
  rw [nodup_iff_getElem?_ne_getElem?]
  intro left right apart inside same
  rw [numbered, getElem?_mapIdx, getElem?_mapIdx] at same
  have late : right < reply.length := by simpa [numbered] using inside
  rw [getElem?_eq_getElem late, getElem?_eq_getElem (lt_trans apart late)] at same
  have ids := congrArg StreamingToken.tokenId (Option.some.inj same)
  exact Nat.ne_of_lt apart ids

theorem shown_in_order_iff (fits : reply.length ≤ u32Max) (maxTokens : Nat) :
    (∀ arrivals, InOrder reply maxTokens arrivals ↔ ¬ OpensTwice arrivals) ∧
      ∀ messages, RunMeets take Receiver.Asked (.start maxTokens) messages →
        (run take (.start maxTokens) messages : Receiver P).shown.length +
          (run take (.start maxTokens) messages).stream.buffered ≤ maxTokens + 64 := by
  refine ⟨fun arrivals => ⟨?_, ?_⟩, ?_⟩
  · rintro ⟨k, _, shown, _⟩ twice
    obtain ⟨token, opens⟩ := opening_shown_twice twice
    rw [shown] at opens
    have distinct := (numbered_nodup reply).sublist (opens.sublist.trans (take_sublist k _))
    simp at distinct
  · intro once
    obtain ⟨exact, known⟩ := received_exact fits once
    exact exact_in_order exact known
  intro messages asked
  have bounded := run_bounded asked
  have small : satAddU32 maxTokens overrunSlack ≤ maxTokens + 64 := min_le_right _ _
  calc _ = (run take (.start maxTokens) messages).stream.emitted + _ := by rw [bounded.counted]
    _ ≤ _ := bounded.within
    _ ≤ maxTokens + 64 := bounded.limit ▸ small

theorem shown_in_order_iff_sample :
    [true, false].length ≤ u32Max ∧ InOrder [true, false] 8 [.content 1, .content 0, .content 0, .done] ∧
      RunMeets take Receiver.Asked (.start 8) [.content ⟨71, true⟩, .done 3] ∧
      (run take (.start 8) [.content ⟨71, true⟩, .done 3]).shown.length +
        (run take (.start 8) [.content ⟨71, true⟩, .done 3]).stream.buffered ≤ 8 + 64 := by
  have fits : [true, false].length ≤ u32Max := by decide
  have asked : RunMeets take Receiver.Asked (.start 8) [.content ⟨71, true⟩, .done 3] := ⟨rfl, trivial, trivial⟩
  obtain ⟨ordered, bound⟩ := shown_in_order_iff [true, false] fits 8
  refine ⟨fits, (ordered _).mpr ?_, asked, bound _ asked⟩
  rintro ⟨first, rest, zero, opens⟩
  cases opens

-- Token 0 arrives twice before any other: it is shown twice, token 1 never is, and
-- the reply counts as complete.
theorem repeated_opening_hides_token :
    ¬ InOrder [10, 11, 12] 8 [.content 0, .content 0, .content 1, .content 2, .done] ∧
      (received [10, 11, 12] 8 [.content 0, .content 0, .content 1, .content 2, .done]).shown = [⟨0, 10⟩, ⟨0, 10⟩, ⟨2, 12⟩] ∧
      (received [10, 11, 12] 8 [.content 0, .content 0, .content 1, .content 2, .done]).stream.isComplete = true := by
  have shown : (received [10, 11, 12] 8 [.content 0, .content 0, .content 1, .content 2, .done]).shown =
      [⟨0, 10⟩, ⟨0, 10⟩, ⟨2, 12⟩] := by decide
  refine ⟨?_, shown, by decide⟩
  rintro ⟨k, ⟨bound, _⟩, ordered, _⟩
  rw [shown] at ordered
  have cut : ∀ k ≤ 3, [⟨0, 10⟩, ⟨0, 10⟩, ⟨2, 12⟩] ≠ (numbered [10, 11, 12]).take k := by decide
  exact cut k bound ordered

end SwarmLlm.Inference
