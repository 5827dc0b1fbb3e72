import Mathlib.Algebra.Order.Group.Multiset
import SwarmLlm.Credit.SettleCalls

namespace SwarmLlm.Credit

open Lib List SettleCall

section Invariant

variable (shardOf : Uuid → Nat) (start : CreditStore) (calls : List SettleCall)

-- What holds of a thread whatever the others do: what it tried is no longer Pending,
-- and what it has swept it has collected.
structure Errand.Sound (store : CreditStore) (settled : List Uuid) (own : Errand) : Prop where
  held : own.held ⊆ settled
  tried : ∀ id ∈ own.tried, ∀ entry, ¬ Pending store id entry
  collected : ∀ id ∈ own.collected, own.call.Touches start id
  swept : ∀ now, own.call = .cleanup now → ∀ shard ∈ own.swept, ∀ id entry, Pending store id entry →
    escrowTtl < now - entry.createdAt → shardOf id = shard → id ∈ own.collected

-- The balance has received all that the settlements so far are worth but for what
-- the threads still owe.
def Balanced (bal : CreditBalance) (settlements : List Settlement) (owns : List Errand) : Prop :=
  ∃ paid : List Move, bal = paid.foldl Move.apply start.balance ∧
    (paid : Multiset Move) + (owns.map fun own => (own.owed : Multiset Move)).sum = (settlements.flatMap Settlement.moves : List Move)

structure Settling (store : CreditStore) (settlements : List Settlement) (owns : List Errand) : Prop where
  called : owns.map Errand.call = calls
  keyed : Keyed store
  pending : ∀ id entry, Pending store id entry ↔ Pending start id entry ∧ id ∉ settlements.map Settlement.id
  once : (settlements.map Settlement.id).Nodup
  touched : ∀ id ∈ settlements.map Settlement.id, (∃ entry, Pending start id entry) ∧ ∃ call ∈ calls, call.Touches start id
  errands : ∀ own ∈ owns, own.Sound shardOf start store (settlements.map Settlement.id)
  balanced : Balanced start store.balance settlements owns

end Invariant

variable {owns : List Errand} {next own : Errand} {settlements : List Settlement} {after store : CreditStore}
  {bal : CreditBalance} {id : Uuid} {entry : EscrowEntry}

section Steps

variable {shardOf : Uuid → Nat} {start : CreditStore} {calls : List SettleCall}

theorem errand_mono {settled more : List Uuid}
    (sound : own.Sound shardOf start store settled) (fewer : ∀ id entry, Pending after id entry → Pending store id entry)
    (grows : settled ⊆ more) : own.Sound shardOf start after more := by
  refine ⟨List.Subset.trans sound.held grows, ?_, sound.collected, ?_⟩
  · exact fun id listed entry pending => sound.tried id listed entry (fewer id entry pending)
  · exact fun now sweep shard listed id entry pending => sound.swept now sweep shard listed id entry (fewer id entry pending)

variable {thread : Nat}

section

variable (balanced : Balanced start bal settlements owns)

include balanced

theorem owed_same (held : owns[thread]? = some own) (same : next.owed = own.owed) :
    Balanced start bal settlements (owns.set thread next) := by
  obtain ⟨paid, folded, total⟩ := balanced
  obtain ⟨others, before, later⟩ := total_split (fun own => (own.owed : Multiset Move)) owns thread held
  refine ⟨paid, folded, ?_⟩
  rw [later, same, ← before]
  exact total

theorem owed_more (held : owns[thread]? = some own) (clear : own.owed = []) :
    Balanced start bal (settlements ++ [⟨id, next.owed⟩]) (owns.set thread next) := by
  obtain ⟨paid, folded, total⟩ := balanced
  obtain ⟨others, before, later⟩ := total_split (fun own => (own.owed : Multiset Move)) owns thread held
  refine ⟨paid, folded, ?_⟩
  rw [before, clear, Multiset.coe_nil, add_zero] at total
  rw [later, flatMap_append, ← Multiset.coe_add, ← total, add_assoc]
  simp

theorem owed_paid (held : owns[thread]? = some own) {move : Move} (owes : own.owed = [move])
    (clear : next.owed = []) : Balanced start (move.apply bal) settlements (owns.set thread next) := by
  obtain ⟨paid, folded, total⟩ := balanced
  obtain ⟨others, before, later⟩ := total_split (fun own => (own.owed : Multiset Move)) owns thread held
  refine ⟨paid ++ [move], ?_, ?_⟩
  · rw [foldl_append, ← folded]
    rfl
  · rw [before, owes] at total
    rw [later, clear, Multiset.coe_nil, add_zero, ← Multiset.coe_add, add_assoc, add_comm (_ : Multiset Move) others]
    exact total

end

theorem pending_same (same : after.entries = store.entries) (id : Uuid) (entry : EscrowEntry) :
    Pending after id entry ↔ Pending store id entry := by
  unfold Pending
  rw [same]

theorem keyed_same (keyed : Keyed store) (same : after.entries = store.entries) : Keyed after := by
  unfold Keyed
  rw [same]
  exact keyed

theorem pending_insert {settled : EscrowEntry} (closed : settled.status ≠ .pending)
    (entries : after.entries = store.entries.insert id settled) (query : Uuid) (entry : EscrowEntry) :
    Pending after query entry ↔ Pending store query entry ∧ query ≠ id := by
  unfold Pending
  rw [entries, Table.lookup_insert_if]
  by_cases same : query = id
  · subst query
    rw [if_pos rfl]
    refine ⟨fun reads => ?_, fun both => absurd rfl both.2⟩
    cases reads.1
    exact absurd reads.2 closed
  · rw [if_neg same]
    exact ⟨fun reads => ⟨reads, same⟩, And.left⟩

section Turn

variable {thread : Nat}

theorem calls_set (called : owns.map Errand.call = calls) (held : owns[thread]? = some own) (same : next.call = own.call) :
    (owns.set thread next).map Errand.call = calls := by
  rw [map_set, same, ← called]
  refine set_held ?_
  rw [getElem?_map, held]
  rfl

theorem call_listed (called : owns.map Errand.call = calls) (held : owns[thread]? = some own) : own.call ∈ calls := by
  rw [← called]
  exact mem_map.mpr ⟨own, mem_of_getElem? held, rfl⟩

theorem take_sound {settled : List Uuid} {moves : List Move} (sound : own.Sound shardOf start after settled)
    (listed : id ∈ settled) (gone : ∀ entry, ¬ Pending after id entry) : (own.take id moves).Sound shardOf start after settled := by
  exact ⟨cons_subset.mpr ⟨listed, sound.held⟩, forall_mem_cons.mpr ⟨gone, sound.tried⟩, sound.collected, sound.swept⟩

variable (inv : Settling shardOf start calls store settlements owns) (held : owns[thread]? = some own)
include inv held

-- A step that settles nothing: the entries that are Pending and what is owed stay.
theorem settling_step (call : next.call = own.call) (keyed : Keyed after)
    (pending : ∀ id entry, Pending after id entry ↔ Pending store id entry)
    (sound : own.Sound shardOf start after (settlements.map Settlement.id) →
      next.Sound shardOf start after (settlements.map Settlement.id))
    (balanced : Balanced start after.balance settlements (owns.set thread next)) :
    Settling shardOf start calls after settlements (owns.set thread next) := by
  have mono : ∀ other ∈ owns, other.Sound shardOf start after (settlements.map Settlement.id) :=
    fun other member => errand_mono (inv.errands other member) (fun id entry => (pending id entry).mp) (List.Subset.refl _)
  refine ⟨calls_set inv.called held call, keyed, fun id entry => (pending id entry).trans (inv.pending id entry), inv.once,
    inv.touched, ?_, balanced⟩
  intro other member
  rcases mem_or_eq_of_mem_set member with listed | rfl
  · exact mono other listed
  · exact sound (mono own (mem_of_getElem? held))

theorem settling_own (call : next.call = own.call) (owed : next.owed = own.owed)
    (sound : next.Sound shardOf start store (settlements.map Settlement.id)) :
    Settling shardOf start calls store settlements (owns.set thread next) :=
  settling_step inv held call inv.keyed (fun _ _ => Iff.rfl) (fun _ => sound) (owed_same inv.balanced held owed)

theorem settling_same (entries : after.entries = store.entries) (balance : after.balance = store.balance) :
    Settling shardOf start calls after settlements (owns.set thread own) := by
  refine settling_step inv held rfl (keyed_same inv.keyed entries) (pending_same entries) (fun kept => kept) ?_
  rw [balance]
  exact owed_same inv.balanced held rfl

theorem settling_miss (settled : ∀ entry, ¬ Pending store id entry) :
    Settling shardOf start calls store settlements (owns.set thread (own.miss id)) := by
  have sound := inv.errands own (mem_of_getElem? held)
  exact settling_own inv held rfl rfl { sound with tried := forall_mem_cons.mpr ⟨settled, sound.tried⟩ }

theorem settling_collect {now : DateTime} (sweep : own.call = .cleanup now) {shard : Nat} :
    Settling shardOf start calls store settlements (owns.set thread
      { own with swept := shard :: own.swept
                 collected := (expiredIds now store.entries).filter (fun id => shardOf id = shard) ++ own.collected }) := by
  have sound := inv.errands own (mem_of_getElem? held)
  refine settling_own inv held rfl rfl ⟨sound.held, sound.tried, ?_, ?_⟩
  · intro id listed
    rcases mem_append.mp listed with found | before
    · obtain ⟨entry, pending, late⟩ := (mem_expired_iff inv.keyed).mp (mem_of_mem_filter found)
      change own.call.Touches start id
      rw [sweep]
      exact ⟨entry, ((inv.pending id entry).mp pending).1, late⟩
    · exact sound.collected id before
  intro time sweeping swept listed id entry pending late inside
  have same : time = now := cleanup.inj (sweeping.symm.trans sweep)
  subst same
  rcases mem_cons.mp listed with rfl | before
  · have expired := (mem_expired_iff inv.keyed).mpr ⟨entry, pending, late⟩
    exact mem_append.mpr (Or.inl (mem_filter.mpr ⟨expired, decide_eq_true inside⟩))
  · exact mem_append.mpr (Or.inr (sound.swept time sweeping swept before id entry pending late inside))

theorem settling_pay {move : Move} (owes : own.owed = [move]) (entries : after.entries = store.entries)
    (balance : after.balance = move.apply store.balance) :
    Settling shardOf start calls after settlements (owns.set thread { own with owed := [] }) := by
  refine settling_step inv held rfl (keyed_same inv.keyed entries) (pending_same entries) (fun kept => { kept with }) ?_
  rw [balance]
  exact owed_paid inv.balanced held owes rfl

theorem settling_remove (settled : id ∈ settlements.map Settlement.id) :
    Settling shardOf start calls (dropEntry id store) settlements (owns.set thread own) := by
  have pending : ∀ query entry, Pending (dropEntry id store) query entry ↔ Pending store query entry := by
    intro query entry
    unfold Pending dropEntry
    rw [Table.lookup_erase_if]
    by_cases same : query = id
    · subst query
      rw [if_pos rfl]
      refine ⟨(fun held => nomatch held.1), fun held => ?_⟩
      exact absurd settled ((inv.pending id entry).mp held).2
    · rw [if_neg same]
  refine settling_step inv held rfl ?_ pending (fun kept => kept) (owed_same inv.balanced held rfl)
  exact fun query entry found => inv.keyed query entry (Table.lookup_erase_some found).2

theorem settling_take (clear : own.owed = []) (settled : EscrowEntry) (moves : List Move) (found : Pending store id entry)
    (touches : own.call.Touches start id) (named : settled.id = entry.id) (closed : settled.status ≠ .pending)
    (entries : after.entries = store.entries.insert id settled) (balance : after.balance = store.balance) :
    Settling shardOf start calls after (settlements ++ [⟨id, moves⟩]) (owns.set thread (own.take id moves)) := by
  obtain ⟨original, fresh⟩ := (inv.pending id entry).mp found
  have ids : List.map Settlement.id (settlements ++ [⟨id, moves⟩]) = settlements.map Settlement.id ++ [id] := map_append
  have pending := pending_insert closed entries
  have grows : settlements.map Settlement.id ⊆ settlements.map Settlement.id ++ [id] := subset_append_left _ _
  have mono : ∀ other ∈ owns, other.Sound shardOf start after (settlements.map Settlement.id ++ [id]) :=
    fun other member => errand_mono (inv.errands other member) (fun query entry reads => ((pending query entry).mp reads).1) grows
  refine ⟨calls_set inv.called held rfl, ?_, ?_, ?_, ?_, ?_, ?_⟩
  · exact fun query other reads => Table.forall_insert inv.keyed (named.trans (inv.keyed id entry found.1)) query other
      (entries ▸ reads)
  · intro query other
    rw [ids, pending, inv.pending, mem_append, mem_singleton, not_or, and_assoc]
  · rw [ids]
    exact nodup_last inv.once fresh
  · rw [ids]
    exact forall_concat inv.touched ⟨⟨entry, original⟩, own.call, call_listed inv.called held, touches⟩
  · rw [ids]
    intro other member
    rcases mem_or_eq_of_mem_set member with listed | rfl
    · exact mono other listed
    · refine take_sound (mono own (mem_of_getElem? held)) (mem_append.mpr (Or.inr (.head []))) ?_
      exact fun other reads => ((pending id other).mp reads).2 rfl
  · rw [balance]
    exact owed_more inv.balanced held clear

end Turn

end Steps

section Run

variable (shardOf : Uuid → Nat) {start : CreditStore} {calls : List SettleCall}

def traceSettlements (trace : List (Event CreditOp.Reply)) : List Settlement := trace.filterMap settledBy

variable {trace : List (Event CreditOp.Reply)} {event : Event CreditOp.Reply}

theorem trace_settled {settlement : Settlement} (settles : settledBy event = some settlement) :
    traceSettlements (trace ++ [event]) = traceSettlements trace ++ [settlement] := by
  rw [traceSettlements, filterMap_append, filterMap_cons_some settles]
  rfl

theorem trace_unsettled (leaves : settledBy event = none) : traceSettlements (trace ++ [event]) = traceSettlements trace := by
  rw [traceSettlements, filterMap_append, filterMap_cons_none leaves, filterMap_nil, append_nil]
  rfl

theorem claim_settled {settle : Settle} : (settle.settled entry).id = entry.id ∧ (settle.settled entry).status ≠ .pending := by
  cases settle with
  | release | refund => exact ⟨rfl, nofun⟩

theorem may_claim_touches {call : SettleCall} {settle : Settle} (may : call.MayClaim id settle) : call.Touches start id := by
  cases call with
  | release | refund => exact may.1
  | cleanup now => exact may.elim

theorem settling_keeps {thread : Nat} {op : CreditOp} {reply : op.Reply} {after : Machine CreditStore}
    (inv : Settling shardOf start calls store (traceSettlements trace) owns) (held : owns[thread]? = some own)
    (allowed : settleProtocol.allowed op own) (ran : CreditOp.handler shardOf op ⟨store, []⟩ = (.done reply, after)) :
    settleProtocol.replies op reply ∧ Settling shardOf start calls after.store (traceSettlements (trace ++ [⟨thread, op, reply⟩]))
      (owns.set thread (settleProtocol.move op reply own)) := by
  cases op with
  | claim id settle =>
    refine ⟨trivial, ?_⟩
    rw [claim_result] at ran
    cases found : findPending store id with
    | error error =>
      rw [found] at ran
      cases ran
      rw [trace_unsettled rfl]
      exact settling_miss inv held (find_pending_error store id found)
    | ok entry =>
      rw [found] at ran
      cases ran
      rw [trace_settled rfl]
      obtain ⟨named, closed⟩ := claim_settled
      exact settling_take inv held allowed.1 _ _ (find_pending_iff.mp found) (may_claim_touches allowed.2) named closed rfl rfl
  | expire id now =>
    refine ⟨trivial, ?_⟩
    rw [expire_result] at ran
    cases found : findPending store id with
    | error error =>
      rw [found] at ran
      cases ran
      rw [trace_unsettled rfl]
      exact settling_miss inv held (find_pending_error store id found)
    | ok entry =>
      rw [found] at ran
      cases ran
      rw [trace_settled rfl]
      have touches := (inv.errands own (mem_of_getElem? held)).collected id allowed.2.2
      exact settling_take inv held allowed.1 { entry with status := .expired } _
        (find_pending_iff.mp found) touches rfl nofun rfl rfl
  | credit delta kind now =>
    cases ran
    rw [trace_unsettled rfl]
    exact ⟨trivial, settling_pay inv held allowed rfl rfl⟩
  | payExpired id amount now =>
    cases ran
    rw [trace_unsettled rfl]
    exact ⟨rfl, settling_pay inv held allowed rfl rfl⟩
  | remove id =>
    cases ran
    rw [trace_unsettled rfl]
    exact ⟨trivial, settling_remove inv held ((inv.errands own (mem_of_getElem? held)).held allowed)⟩
  | collect shard now =>
    cases ran
    rw [trace_unsettled rfl]
    exact ⟨trivial, settling_collect inv held allowed⟩
  | putBalance | putSettled =>
    cases ran
    rw [trace_unsettled rfl]
    exact ⟨rfl, settling_same inv held rfl rfl⟩
  | appendCreditLog =>
    cases ran
    rw [trace_unsettled rfl]
    exact ⟨trivial, settling_same inv held rfl rfl⟩
  | _ => exact allowed.elim

theorem settling_start (keyed : Keyed start) : Settling shardOf start calls start [] (calls.map errand) := by
  refine ⟨?_, keyed, fun id entry => ?_, nodup_nil, nofun, ?_, [], rfl, ?_⟩
  · rw [map_map]
    exact map_id calls
  · exact (and_iff_left not_mem_nil).symm
  · intro own member
    obtain ⟨call, _, rfl⟩ := mem_map.mp member
    exact ⟨nil_subset _, nofun, nofun, nofun⟩
  · rw [map_map, Multiset.coe_nil, zero_add]
    refine sum_eq_zero fun owed member => ?_
    obtain ⟨call, _, rfl⟩ := mem_map.mp member
    rfl

end Run

def settlementsOf (id : Uuid) (trace : List (Event CreditOp.Reply)) : List Settlement :=
  (traceSettlements trace).filter fun settlement => settlement.id = id

theorem settlements_count (id : Uuid) (trace : List (Event CreditOp.Reply)) :
    (settlementsOf id trace).length = ((traceSettlements trace).map Settlement.id).count id := by
  rw [settlementsOf, List.count, countP_map, countP_eq_length_filter]
  rfl

section Result

variable (shards : Nat) (shardOf : Uuid → Fin shards) (store : CreditStore) (calls : List SettleCall)

def settleRun (schedule : List Nat) : World CreditOp.Reply CreditStore (Except SwarmError Int ⊕ Nat) :=
  run (World.step (CreditOp.handler fun id => shardOf id)) (World.start store (calls.map (thread shards)))
    (schedule.map Turn.lands)

variable {shards}

theorem settle_run_abides (keyed : Keyed store) {schedule : List Nat} : ∃ owns,
    (settleRun shards shardOf store calls schedule).Abides settleProtocol (fun _ own => own.Finished shards) owns ∧
      Settling (fun id => shardOf id) store calls (settleRun shards shardOf store calls schedule).store
        (traceSettlements (settleRun shards shardOf store calls schedule).trace) owns := by
  have abides := start_abides (fun (_ : Except SwarmError Int ⊕ Nat) own => own.Finished shards) store calls errand (call_follows shards)
  have landing : RunMeets (World.step (CreditOp.handler fun id => shardOf id)) (fun _ turn => turn.error = none)
      (World.start store (calls.map (thread shards))) (schedule.map Turn.lands) := by
    refine run_meets_of _ _ _ fun _ turn member => ?_
    obtain ⟨thread, _, rfl⟩ := mem_map.mp member
    rfl
  refine run_abides
    (fun current trace owns => Settling (fun id => shardOf id) store calls current (traceSettlements trace) owns)
    (fun _ turn => turn.error = none) ?_ _ _ _ abides (settling_start _ keyed) landing
  intro world turn owns own op reply after inv lands _ held allowed ran
  have fates : turn.fates = [] := by rw [Turn.fates, lands]
  rw [fates] at ran
  exact settling_keeps _ inv held allowed ran

theorem errands_finished {world : World CreditOp.Reply CreditStore (Except SwarmError Int ⊕ Nat)}
    {results : List (Except SwarmError Int ⊕ Nat)} (abides : world.Abides settleProtocol (fun _ own => own.Finished shards) owns)
    (returned : world.Returned results) (own : Errand) (member : own ∈ owns) : own.Finished shards := by
  have ends := returned_ends _ results abides returned
  obtain ⟨thread, inside, rfl⟩ := mem_iff_getElem.mp member
  exact ends.get (ends.length_eq ▸ inside) inside

theorem touched_settled {current : CreditStore}
    (inv : Settling (fun id => shardOf id) store calls current settlements owns) (finished : ∀ own ∈ owns, own.Finished shards) (pending : Pending store id entry) {call : SettleCall} (listed : call ∈ calls)
    (touches : call.Touches store id) : id ∈ settlements.map Settlement.id := by
  by_contra fresh
  have still : Pending current id entry := (inv.pending id entry).mpr ⟨pending, fresh⟩
  rw [← inv.called] at listed
  obtain ⟨own, member, named⟩ := mem_map.mp listed
  have sound := inv.errands own member
  have ended := finished own member
  cases call with
  | release other toNode actualCost now =>
    cases touches
    have tried := ended.named id (.release toNode actualCost now) (by rw [named]; exact ⟨rfl, rfl⟩)
    exact sound.tried id tried entry still
  | refund other now =>
    cases touches
    have tried := ended.named id (.refund now) (by rw [named]; exact ⟨rfl, rfl⟩)
    exact sound.tried id tried entry still
  | cleanup now =>
    obtain ⟨same, found, late⟩ := touches
    have equal : same = entry := pending_unique found pending
    subst equal
    have swept := ended.swept now named (shardOf id) (shardOf id).isLt
    have collected := sound.swept now named _ swept id same still late rfl
    exact sound.tried id (ended.done collected) same still

theorem balance_settled (balanced : Balanced store bal settlements owns) (finished : ∀ own ∈ owns, own.Finished shards) :
    ∃ moves : List Move, moves.Perm (settlements.flatMap Settlement.moves) ∧ bal = moves.foldl Move.apply store.balance := by
  obtain ⟨paid, folded, total⟩ := balanced
  have clear : (owns.map fun own => (own.owed : Multiset Move)).sum = 0 := by
    refine sum_eq_zero fun owed member => ?_
    obtain ⟨own, listed, rfl⟩ := mem_map.mp member
    rw [(finished own listed).paid]
    rfl
  rw [clear, add_zero] at total
  exact ⟨paid, Multiset.coe_eq_coe.mp total, folded⟩

end Result

-- At every moment of every schedule an entry is Pending exactly if it was and no section
-- has settled it, and no two sections have. Once all calls have returned, those and
-- only those that were Pending and touched have been settled, and the balance has
-- received what the settlements are worth and nothing else. Every schedule can be
-- continued until all calls have returned.
theorem escrow_settled_once (shards : Nat) (shardOf : Uuid → Fin shards) (store : CreditStore) (calls : List SettleCall)
    (keyed : Keyed store) (schedule : List Nat) :
    (∀ id entry, Pending (settleRun shards shardOf store calls schedule).store id entry ↔
      Pending store id entry ∧ settlementsOf id (settleRun shards shardOf store calls schedule).trace = []) ∧
    (∀ id, (settlementsOf id (settleRun shards shardOf store calls schedule).trace).length ≤ 1) ∧
    (∀ results, (settleRun shards shardOf store calls schedule).Returned results →
      (∀ id, (settlementsOf id (settleRun shards shardOf store calls schedule).trace).length = 1 ↔
        (∃ entry, Pending store id entry) ∧ ∃ call ∈ calls, call.Touches store id) ∧
      ∃ moves : List Move,
        moves.Perm ((traceSettlements (settleRun shards shardOf store calls schedule).trace).flatMap Settlement.moves) ∧
        (settleRun shards shardOf store calls schedule).store.balance = moves.foldl Move.apply store.balance) ∧
    ∃ more results, (settleRun shards shardOf store calls (schedule ++ more)).Returned results := by
  obtain ⟨owns, abides, inv⟩ := settle_run_abides shardOf store calls keyed
  have listed : ∀ id, id ∈ (traceSettlements (settleRun shards shardOf store calls schedule).trace).map Settlement.id ↔
      (settlementsOf id (settleRun shards shardOf store calls schedule).trace).length = 1 := by
    intro id
    rw [settlements_count]
    refine ⟨fun member => count_eq_one_of_mem inv.once member, fun one => ?_⟩
    exact count_pos_iff.mp (by omega)
  have atMost : ∀ id, (settlementsOf id (settleRun shards shardOf store calls schedule).trace).length ≤ 1 := by
    intro id
    rw [settlements_count]
    exact nodup_iff_count_le_one.mp inv.once id
  refine ⟨?_, atMost, ?_, ?_⟩
  · intro id entry
    have bound := atMost id
    rw [inv.pending, listed, ← length_eq_zero_iff]
    exact and_congr_right fun _ => by omega
  · intro results returned
    have finished := errands_finished abides returned
    refine ⟨fun id => ?_, balance_settled store inv.balanced finished⟩
    rw [← listed]
    constructor
    · exact inv.touched id
    · rintro ⟨⟨entry, pending⟩, call, member, touches⟩
      exact touched_settled shardOf store calls inv finished pending member touches
  · obtain ⟨more, results, returned⟩ := run_completes (handler_returns fun id => shardOf id)
    refine ⟨more, results, ?_⟩
    rw [settleRun, map_append, run_append]
    exact returned

def heldEntry : EscrowEntry := ⟨Uuid.ofByte 5, Uuid.ofByte 6, 40, NodeId.ofByte 1, none, 0, .pending⟩

def heldStore : CreditStore := setEntry heldEntry.id heldEntry quietStore

theorem held_keyed : Keyed heldStore := by
  intro id entry found
  have read := (Table.lookup_insert_if).symm.trans found
  split at read
  · rename_i same
    cases read
    exact same.symm
  · cases read

def racingCalls : List SettleCall :=
  [.release heldEntry.id (NodeId.ofByte 2) 10 (700 * secondsNs), .refund heldEntry.id (700 * secondsNs), .cleanup (700 * secondsNs)]

-- The sweep has collected the entry when the refund takes it.
def racingSchedule : List Nat := [2, 1, 1, 1, 0, 2, 1, 1, 1]

theorem escrow_settled_once_sample :
    (settleRun 1 (fun _ => 0) heldStore racingCalls racingSchedule).store.balance.balance = 140 ∧
      (settlementsOf heldEntry.id (settleRun 1 (fun _ => 0) heldStore racingCalls racingSchedule).trace).length = 1 :=
  ⟨by decide +kernel, (((escrow_settled_once 1 (fun _ => 0) heldStore racingCalls held_keyed racingSchedule).2.2.1
      [.inl (.error (.creditError errNotFound)), .inl (.ok 40), .inr 0] rfl).1 heldEntry.id).mpr
      ⟨⟨heldEntry, rfl, rfl⟩, .refund heldEntry.id (700 * secondsNs), by decide, rfl⟩⟩

end SwarmLlm.Credit
