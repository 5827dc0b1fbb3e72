import SwarmLlm.Credit.Concurrent

namespace SwarmLlm.Credit

open Lib List Routine Thread

inductive SettleCall where
  | release (id : Uuid) (toNode : NodeId) (actualCost : Int) (now : DateTime)
  | refund (id : Uuid) (now : DateTime)
  | cleanup (now : DateTime)
  deriving DecidableEq

open SettleCall

def SettleCall.thread (shards : Nat) : SettleCall → Thread (Except SwarmError Int ⊕ Nat)
  | .release id toNode actualCost now => do
    let released ← Thread.releaseEscrow id toNode actualCost now
    pure (.inl released)
  | .refund id now => do
    let refunded ← Thread.refundEscrow id now
    pure (.inl refunded)
  | .cleanup now => do
    let count ← Thread.cleanupExpired shards now
    pure (.inr count)

variable (store : CreditStore) (id : Uuid)

def Pending (entry : EscrowEntry) : Prop :=
  store.entries.lookup id = some entry ∧ entry.status = .pending

def Keyed : Prop := ∀ id entry, store.entries.lookup id = some entry → entry.id = id

def SettleCall.Touches : SettleCall → Prop
  | .release named _ _ _ => named = id
  | .refund named _ => named = id
  | .cleanup now => ∃ entry, Pending store id entry ∧ escrowTtl < now - entry.createdAt

inductive Move where
  | credit (delta : Int) (kind : CreditDelta) (now : DateTime)
  | expiry (amount : Int) (now : DateTime)
  deriving DecidableEq

def Move.apply (bal : CreditBalance) : Move → CreditBalance
  | .credit delta kind now => bal.creditBy delta kind now
  | .expiry amount now => { bal with balance := satAdd bal.balance amount, lastUpdated := now }

def deltaMoves (delta : Int) (now : DateTime) : List Move :=
  if 0 < delta then [.credit delta .refund now] else if delta < 0 then [.credit delta .spending now] else []

def Settle.moves (entry : EscrowEntry) : Settle → List Move
  | .release _ actualCost now => deltaMoves (entry.amount - max actualCost 0) now
  | .refund now => [.credit entry.amount .refund now]

structure Settlement where
  id : Uuid
  moves : List Move
  deriving DecidableEq

-- The sections that take an entry out of Pending, with what each owes the balance.
def settledBy (event : Event CreditOp.Reply) : Option Settlement :=
  match event with
  | ⟨_, .claim id settle, .ok entry⟩ => some ⟨id, settle.moves entry⟩
  | ⟨_, .expire id now, some entry⟩ => some ⟨id, [.expiry entry.amount now]⟩
  | _ => none

theorem find_pending_iff {store : CreditStore} {id : Uuid} {entry : EscrowEntry} :
    findPending store id = .ok entry ↔ Pending store id entry := by
  constructor
  · exact find_pending_ok store id entry
  · rintro ⟨found, pending⟩
    simp only [findPending, found, pending, if_true]

theorem find_pending_error {error : SwarmError} (refused : findPending store id = .error error)
    (entry : EscrowEntry) : ¬ Pending store id entry := by
  intro pending
  rw [find_pending_iff.mpr pending] at refused
  cases refused

variable {store}

theorem pending_unique {id : Uuid} {first second : EscrowEntry} (one : Pending store id first)
    (two : Pending store id second) : first = second := Option.some.inj (one.1.symm.trans two.1)

theorem mem_expired_iff (keyed : Keyed store) {now : DateTime} {id : Uuid} :
    id ∈ expiredIds now store.entries ↔ ∃ entry, Pending store id entry ∧ escrowTtl < now - entry.createdAt := by
  constructor
  · intro member
    obtain ⟨entry, kept, rfl⟩ := mem_map.mp member
    obtain ⟨listed, old⟩ := mem_filter.mp kept
    obtain ⟨key, found⟩ := (Table.mem_values_iff).mp listed
    obtain ⟨pending, late⟩ := of_decide_eq_true old
    exact ⟨entry, ⟨by rw [keyed key entry found]; exact found, pending⟩, late⟩
  · rintro ⟨entry, ⟨found, pending⟩, late⟩
    refine mem_map.mpr ⟨entry, mem_filter.mpr ⟨?_, decide_eq_true ⟨pending, late⟩⟩, keyed id entry found⟩
    exact (Table.mem_values_iff).mpr ⟨id, found⟩

-- How far a call's thread has come: the entries it has tried and those it took, the
-- shards it has swept with what it found there, and what it still owes the balance.
structure Errand where
  call : SettleCall
  tried : List Uuid
  held : List Uuid
  swept : List Nat
  collected : List Uuid
  owed : List Move

def SettleCall.errand (call : SettleCall) : Errand := ⟨call, [], [], [], [], []⟩

def Errand.take (own : Errand) (id : Uuid) (moves : List Move) : Errand :=
  { own with tried := id :: own.tried, held := id :: own.held, owed := moves }

def Errand.miss (own : Errand) (id : Uuid) : Errand := { own with tried := id :: own.tried }

def SettleCall.MayClaim (settle : Settle) : SettleCall → Prop
  | .release named toNode actualCost now => named = id ∧ settle = .release toNode actualCost now
  | .refund named now => named = id ∧ settle = .refund now
  | .cleanup _ => False

def settleProtocol : Protocol CreditOp.Reply Errand where
  allowed op own :=
    match op with
    | .claim id settle => own.owed = [] ∧ own.call.MayClaim id settle
    | .expire id now => own.owed = [] ∧ own.call = .cleanup now ∧ id ∈ own.collected
    | .credit delta kind now => own.owed = [.credit delta kind now]
    | .payExpired _ amount now => own.owed = [.expiry amount now]
    | .remove id => id ∈ own.held
    | .collect _ now => own.call = .cleanup now
    | .putBalance _ | .appendCreditLog | .putSettled _ _ => True
    | _ => False
  replies op reply :=
    match op, reply with
    | .putBalance _, put => put = .ok ()
    | .putSettled _ _, put => put = .ok ()
    | .payExpired _ _ _, put => put = .ok ()
    | _, _ => True
  move op reply own :=
    match op, reply with
    | .claim id settle, .ok entry => own.take id (settle.moves entry)
    | .claim id _, .error _ => own.miss id
    | .expire id now, some entry => own.take id [.expiry entry.amount now]
    | .expire id _, none => own.miss id
    | .credit _ _ _, _ => { own with owed := [] }
    | .payExpired _ _ _, _ => { own with owed := [] }
    | .collect shard _, ids => { own with swept := shard :: own.swept, collected := ids ++ own.collected }
    | _, _ => own

structure Errand.Finished (shards : Nat) (own : Errand) : Prop where
  paid : own.owed = []
  named : ∀ id settle, own.call.MayClaim id settle → id ∈ own.tried
  swept : ∀ now, own.call = .cleanup now → ∀ shard < shards, shard ∈ own.swept
  done : own.collected ⊆ own.tried

section Follows

variable {R : Type} (shards : Nat) {call : SettleCall} {delta : Int} (id : Uuid) {own : Errand} {now : DateTime}

theorem credit_follows {kind : CreditDelta} (owes : own.owed = [.credit delta kind now]) :
    (Thread.applyCreditDirectNoted delta kind now).Follows settleProtocol (fun _ after => after = { own with owed := [] }) own := by
  refine ⟨owes, fun snapshot _ => ⟨trivial, fun put landed => ?_⟩⟩
  cases put with
  | error error => cases landed
  | ok _ => exact ⟨trivial, fun _ _ => rfl⟩

theorem settle_delta_follows (owes : own.owed = deltaMoves delta now) :
    (Thread.settleDelta delta now).Follows settleProtocol (fun _ after => after = { own with owed := [] }) own := by
  unfold Thread.settleDelta
  unfold deltaMoves at owes
  split
  · rename_i surplus
    rw [if_pos surplus] at owes
    exact follows_bind _ _ _ _ own (credit_follows owes) fun _ _ reached => reached
  rename_i surplus
  rw [if_neg surplus] at owes
  split
  · rename_i shortfall
    rw [if_pos shortfall] at owes
    exact follows_bind _ _ _ _ own (credit_follows owes) fun _ _ reached => reached
  · rename_i shortfall
    rw [if_neg shortfall] at owes
    change own = { own with owed := [] }
    rw [← owes]

theorem settle_escrow_follows {settle : Settle} {failure : String} {pay : EscrowEntry → Thread Int}
    (may : call.MayClaim id settle)
    (paying : ∀ entry own, own.owed = settle.moves entry → (pay entry).Follows settleProtocol (fun _ after => after = { own with owed := [] }) own) :
    (settleEscrow id settle failure pay).Follows settleProtocol
      (fun _ own => own.call = call ∧ own.owed = [] ∧ own.collected = [] ∧ id ∈ own.tried) call.errand := by
  refine ⟨⟨rfl, may⟩, fun reply _ => ?_⟩
  cases reply with
  | error error => exact ⟨rfl, rfl, rfl, .head []⟩
  | ok entry =>
    refine ⟨trivial, fun put landed => ?_⟩
    cases put with
    | error error => cases landed
    | ok _ =>
      refine ⟨.head [], fun _ _ => ?_⟩
      change Routine.Follows settleProtocol _ (pay entry >>= fun paid => pure (Except.ok paid))
        (call.errand.take id (settle.moves entry))
      refine follows_bind _ _ _ _ _ (paying entry _ rfl) ?_
      rintro value own rfl
      exact ⟨rfl, rfl, rfl, .head []⟩

variable (call)

theorem named_finished {id : Uuid} (named : ∀ other settle, own.call.MayClaim other settle → other = id)
    (single : ∀ now, own.call ≠ .cleanup now) (paid : own.owed = []) (nothing : own.collected = [])
    (tried : id ∈ own.tried) : own.Finished shards := by
  refine ⟨paid, ?_, fun now sweep => absurd sweep (single now), ?_⟩
  · intro other settle may
    rw [named other settle may]
    exact tried
  · rw [nothing]
    exact nil_subset _

theorem release_follows {id : Uuid} {toNode : NodeId} {actualCost : Int} :
    ((release id toNode actualCost now).thread shards).Follows settleProtocol (fun _ own => own.Finished shards)
      (release id toNode actualCost now).errand := by
  refine follows_bind _ _ _ _ _ (settle_escrow_follows id ⟨rfl, rfl⟩ ?_) ?_
  · intro entry own owes
    refine follows_bind _ _ _ _ own (settle_delta_follows owes) ?_
    exact fun _ _ reached => reached
  · rintro result own ⟨call, paid, nothing, tried⟩
    refine named_finished shards (call ▸ fun _ _ may => may.1.symm) (call ▸ fun _ => nofun) paid nothing tried

theorem refund_follows : ((refund id now).thread shards).Follows settleProtocol (fun _ own => own.Finished shards)
      (refund id now).errand := by
  refine follows_bind _ _ _ _ _ (settle_escrow_follows id ⟨rfl, rfl⟩ ?_) ?_
  · intro entry own owes
    refine follows_bind _ _ _ _ own (credit_follows owes) ?_
    exact fun _ _ reached => reached
  · rintro result own ⟨call, paid, nothing, tried⟩
    refine named_finished shards (call ▸ fun _ _ may => may.1.symm) (call ▸ fun _ => nofun) paid nothing tried

structure Swept (own after : Errand) (list : List Nat) (ids : List Uuid) : Prop where
  call : after.call = own.call
  owed : after.owed = own.owed
  shards : list ⊆ after.swept
  kept : own.swept ⊆ after.swept
  collected : ∀ id, id ∈ after.collected ↔ id ∈ ids ∨ id ∈ own.collected

theorem collect_follows {list : List Nat} (own : Errand) (sweep : own.call = .cleanup now) :
    (collectExpired now list).Follows settleProtocol (fun ids after => Swept own after list ids) own := by
  induction list generalizing own with
  | nil => exact ⟨rfl, rfl, nil_subset _, List.Subset.refl _, fun id => by simp⟩
  | cons shard rest ih =>
    refine ⟨sweep, fun found _ => ?_⟩
    let next : Errand := { own with swept := shard :: own.swept, collected := found ++ own.collected }
    change Routine.Follows settleProtocol _ (collectExpired now rest >>= fun others => pure (found ++ others)) next
    refine follows_bind _ _ _ _ next (ih next sweep) fun others after swept => ?_
    refine ⟨swept.call, swept.owed, ?_, fun other member => swept.kept (.tail shard member), fun id => ?_⟩
    · exact cons_subset.mpr ⟨swept.kept (.head own.swept), swept.shards⟩
    · have listed : id ∈ after.collected ↔ id ∈ others ∨ id ∈ found ++ own.collected := swept.collected id
      rw [listed, mem_append, mem_append, or_left_comm, or_assoc]

structure Tried (own after : Errand) (ids : List Uuid) : Prop where
  call : after.call = own.call
  paid : after.owed = []
  swept : after.swept = own.swept
  collected : after.collected = own.collected
  tried : ids ⊆ after.tried
  kept : own.tried ⊆ after.tried

theorem expire_one_follows (own : Errand) (sweep : own.call = .cleanup now) (paid : own.owed = [])
    (listed : id ∈ own.collected) : (Thread.expireOne now id).Follows settleProtocol (fun _ after => Tried own after [id]) own := by
  have mark : ∀ after : Errand, after.tried = id :: own.tried → [id] ⊆ after.tried ∧ own.tried ⊆ after.tried := by
    intro after same
    rw [same]
    exact ⟨cons_subset_cons id (nil_subset _), subset_cons_self id own.tried⟩
  refine ⟨⟨paid, sweep, listed⟩, fun reply _ => ?_⟩
  cases reply with
  | none => exact ⟨rfl, paid, rfl, rfl, (mark (own.miss id) rfl).1, (mark (own.miss id) rfl).2⟩
  | some entry =>
    refine ⟨rfl, fun put landed => ?_⟩
    cases put with
    | error error => cases landed
    | ok _ =>
      let after : Errand := { own.take id [.expiry entry.amount now] with owed := [] }
      exact ⟨.head own.held, fun _ _ => ⟨rfl, rfl, rfl, rfl, (mark after rfl).1, (mark after rfl).2⟩⟩

theorem expire_each_follows {ids : List Uuid} (own : Errand) (sweep : own.call = .cleanup now) (paid : own.owed = [])
    (listed : ids ⊆ own.collected) :
    (expireEach now ids).Follows settleProtocol (fun _ after => Tried own after ids) own := by
  induction ids generalizing own with
  | nil => exact ⟨rfl, paid, rfl, rfl, nil_subset _, List.Subset.refl _⟩
  | cons id rest ih =>
    obtain ⟨first, others⟩ := cons_subset.mp listed
    refine follows_bind _ _ _ _ own (expire_one_follows id own sweep paid first) fun expired middle one => ?_
    have going := ih middle (one.call.trans sweep) one.paid (one.collected ▸ others)
    refine follows_bind _ _ _ _ middle going fun count after more => ?_
    refine ⟨more.call.trans one.call, more.paid, more.swept.trans one.swept, more.collected.trans one.collected, ?_, ?_⟩
    · exact cons_subset.mpr ⟨more.kept (one.tried (.head [])), more.tried⟩
    · exact List.Subset.trans one.kept more.kept

theorem cleanup_follows : ((cleanup now).thread shards).Follows settleProtocol (fun _ own => own.Finished shards)
      (cleanup now).errand := by
  have whole : (Thread.cleanupExpired shards now).Follows settleProtocol (fun _ own => own.Finished shards)
      (cleanup now).errand := by
    refine follows_bind _ _ _ _ _ (collect_follows _ rfl) fun ids middle swept => ?_
    have listed : ids ⊆ middle.collected := fun id member => (swept.collected id).mpr (Or.inl member)
    have trying := expire_each_follows middle swept.call swept.owed listed
    refine follows_weaken trying fun count after tried => ?_
    refine ⟨tried.paid, ?_, ?_, ?_⟩
    · rw [tried.call, swept.call]
      exact fun _ _ impossible => impossible.elim
    · intro _ _ shard within
      rw [tried.swept]
      exact swept.shards (mem_range.mpr within)
    · intro id member
      rw [tried.collected] at member
      rcases (swept.collected id).mp member with found | nothing
      · exact tried.tried found
      · cases nothing
  exact follows_bind _ _ _ _ _ whole fun _ _ finished => finished

theorem call_follows : (call.thread shards).Follows settleProtocol (fun _ own => own.Finished shards) call.errand := by
  cases call with
  | release id toNode actualCost now => exact release_follows shards
  | refund id now => exact refund_follows shards id
  | cleanup now => exact cleanup_follows shards

end Follows

end SwarmLlm.Credit
