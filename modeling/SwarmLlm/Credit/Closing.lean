import SwarmLlm.Credit.EscrowInvariant
import SwarmLlm.Credit.Ledger
import SwarmLlm.Lib.Run
import Mathlib.Algebra.Order.BigOperators.Group.List

namespace SwarmLlm.Credit

open Lib Prog CreditBalance
open SwarmLlm.Pool (Primitives PoolState PoolTx samplePrims)

def drift (delta : Int) : CreditDelta → Int
  | .spending => delta + delta.natAbs
  | _ => delta - delta.natAbs

variable {bal : CreditBalance}

theorem gap_credit_by {delta : Int} {kind : CreditDelta} (now : DateTime)
    (fits : Fits bal delta kind) : (bal.creditBy delta kind now).gap = bal.gap + drift delta kind := by
  have exact := sat_add_exact fits.1
  have counted := sat_add_unsigned_exact fits.2
  cases kind with
  | earning | spending | refund =>
    simp only [counter] at counted
    simp only [gap, creditBy, drift, exact, counted]
    omega

def SignMatches (delta : Int) : CreditDelta → Prop
  | .spending => delta ≤ 0
  | _ => 0 ≤ delta

variable {delta : Int} (now : DateTime) (id : Uuid) (store : CreditStore)

theorem drift_eq_zero_iff (kind : CreditDelta) : drift delta kind = 0 ↔ SignMatches delta kind := by
  cases kind <;> simp only [drift, SignMatches] <;> omega

theorem spending_drift_nonneg : 0 ≤ drift delta .spending := by
  simp only [drift]
  omega

theorem gap_matched {kind : CreditDelta} (fits : Fits bal delta kind) (matched : SignMatches delta kind) :
    (bal.creditBy delta kind now).gap = bal.gap := by
  rw [gap_credit_by now fits, (drift_eq_zero_iff kind).mpr matched, Int.add_zero]

variable (delta)

theorem decay_positive {balance : Int} (negative : balance < 0) : 0 < negativeBalanceDecayAmount balance := by
  rw [negativeBalanceDecayAmount, if_neg (by omega)]
  simp only [i64Max]
  omega

def onBooks {R : Type} (prog : Prog Books R) : Prog CreditStore R :=
  zoom CreditStore.books CreditStore.withBooks prog

def landed {R : Type} (prog : Prog CreditStore R) (store : CreditStore) : CreditStore := (prog ⟨store, []⟩).2.store

def expiredTotal (now : DateTime) (entries : Table Uuid EscrowEntry) : Int :=
  ((expiredIds now entries).map (heldAt entries)).sum

theorem expired_ids_nodup {entries : Table Uuid EscrowEntry} (stored : StoredWell entries) : (expiredIds now entries).Nodup := by
  have keys := Table.values_map_key fun id entry found => (stored id entry found).1
  have nodup : (entries.values.map EscrowEntry.id).Nodup := by
    rw [keys]
    exact entries.keys_nodup
  exact nodup.sublist (List.filter_sublist.map EscrowEntry.id)

theorem expired_id_pending (stored : StoredWell store.entries) (id : Uuid) (member : id ∈ expiredIds now store.entries) :
    ∃ entry, store.entries.lookup id = some entry ∧ entry.status = .pending ∧ 0 < entry.amount := by
  obtain ⟨entry, kept, rfl⟩ := List.mem_map.mp member
  obtain ⟨listed, old⟩ := List.mem_filter.mp kept
  obtain ⟨key, found⟩ := (Table.mem_values_iff).mp listed
  have well := stored key entry found
  have pending := (of_decide_eq_true old).1
  exact ⟨entry, by rw [well.1]; exact found, pending, well.2 pending⟩

theorem expired_total_pos (stored : StoredWell store.entries) :
    0 ≤ expiredTotal now store.entries ∧ (expiredTotal now store.entries = 0 ↔ expiredIds now store.entries = []) := by
  have positive : ∀ id ∈ expiredIds now store.entries, 0 < heldAt store.entries id := by
    intro id member
    obtain ⟨entry, found, pending, amount⟩ := expired_id_pending now store stored id member
    rw [heldAt, Table.weight_at_found _ _ id entry found, pendingAmount, if_pos pending]
    exact amount
  rw [expiredTotal]
  generalize expiredIds now store.entries = ids at positive
  induction ids with
  | nil => simp
  | cons id rest ih =>
    have head := positive id (by simp)
    have tail := (ih fun other member => positive other (by simp [member])).1
    simp only [List.map_cons, List.sum_cons, reduceCtorEq, iff_false]
    omega

def expiredStore (entry : EscrowEntry) : CreditStore :=
  let paid := { store.balance with balance := satAdd store.balance.balance entry.amount, lastUpdated := now }
  dropEntry id (notePaid id
    { putEntry id { entry with status := .expired } (setEntry id { entry with status := .expired } store) with
      balance := paid, creditRecord := some paid })

theorem expire_one_lands {entry : EscrowEntry} (found : store.entries.lookup id = some entry)
    (pending : entry.status = .pending) (post : Bool → Machine CreditStore → Prop) (crash : CreditStore → Prop) :
    (expireOne now id).wp post crash ⟨store, []⟩ ↔ post true ⟨expiredStore now id store entry, []⟩ := by
  have read : findPending store id = .ok entry := by simp [findPending, found, pending]
  simp only [expireOne, wp_bind, wp_get, read, wp_modify, wp_write_lands, wp_pure]
  rfl

theorem cleanup_gap {ids : List Uuid} (store : CreditStore) (nodup : ids.Nodup)
    (held : ∀ id ∈ ids, ∃ entry, store.entries.lookup id = some entry ∧ entry.status = .pending ∧ 0 < entry.amount)
    (stored : StoredWell store.entries) (range : IsI64 store.balance.balance)
    (room : store.balance.balance + (ids.map (heldAt store.entries)).sum ≤ i64Max) :
    (countEach ids (expireOne now)).wp
      (fun _ after => after.store.balance.gap = store.balance.gap + (ids.map (heldAt store.entries)).sum ∧
        StoredWell after.store.entries)
      (fun _ => False) ⟨store, []⟩ := by
  induction ids generalizing store with
  | nil => exact ⟨by simp, stored⟩
  | cons id rest ih =>
    obtain ⟨entry, found, pending, amount⟩ := held id (by simp)
    have parts := List.nodup_cons.mp nodup
    have own : heldAt store.entries id = entry.amount := by
      rw [heldAt, Table.weight_at_found _ _ id entry found, pendingAmount, if_pos pending]
    have restHeld : ∀ other ∈ rest, other ≠ id := fun other member same => parts.1 (same ▸ member)
    have restSum : rest.map (heldAt ((store.entries.insert id { entry with status := .expired }).erase id)) =
        rest.map (heldAt store.entries) := by
      refine List.map_congr_left fun other member => ?_
      rw [heldAt, Table.weight_at_erase, if_neg (restHeld other member), Table.weight_at_insert, if_neg (restHeld other member)]
    have restNonneg : 0 ≤ (rest.map (heldAt store.entries)).sum :=
      List.sum_nonneg fun value member => by
        obtain ⟨other, _, rfl⟩ := List.mem_map.mp member
        exact held_nonneg stored other
    simp only [List.map_cons, List.sum_cons, own] at room ⊢
    have exact : satAdd store.balance.balance entry.amount = store.balance.balance + entry.amount :=
      sat_add_exact ⟨by have := range.1; omega, by omega⟩
    simp only [countEach, wp_bind, wp_pure, expire_one_lands now id store found pending]
    have next := ih (expiredStore now id store entry) parts.2
      (fun other member => by
        obtain ⟨value, read, facts⟩ := held other (by simp [member])
        refine ⟨value, ?_, facts⟩
        simp only [expiredStore, dropEntry, notePaid, putEntry, setEntry]
        rw [Table.lookup_erase_if, if_neg (restHeld other member), Table.lookup_insert_if, if_neg (restHeld other member)]
        exact read)
      (stored_erase (stored_insert stored id { entry with status := .expired } (stored id entry found).1 (by simp)) id)
      (by simp only [expiredStore, dropEntry, notePaid, putEntry, setEntry, exact]; exact ⟨by have := range.1; omega, by omega⟩)
      (by simp only [expiredStore, dropEntry, notePaid, putEntry, setEntry, exact, restSum]; omega)
    refine wp_mono _ _ _ _ _ next (fun _ after closed => ⟨?_, closed.2⟩) (fun _ impossible => impossible)
    rw [closed.1]
    simp only [expiredStore, dropEntry, notePaid, putEntry, setEntry, restSum, gap, exact]
    omega

structure LedgerWorld where
  store : CreditStore
  hostingRemainderMicro : Int

inductive LedgerOp where
  | earnInference (pool : Option PoolState) (tx : PoolTx) (inferenceServe : Int) (tokens : Nat) (id : Uuid) (now : DateTime)
  | spendInference (inferenceConsume : Int) (tokens : Nat) (now : DateTime)
  | hostingTick (shardHosting : Int) (totalGb : Float) (hours : Float32) (now : DateTime)
  | decayTick (now : DateTime)
  | applyDirect (delta : Int) (kind : CreditDelta) (now : DateTime)
  | createEscrow (requestId : Uuid) (amount : Int) (fromNode : NodeId) (id : Uuid) (now : DateTime)
  | releaseEscrow (id : Uuid) (toNode : NodeId) (actualCost : Int) (now : DateTime)
  | refundEscrow (id : Uuid) (now : DateTime)
  | cleanupExpired (now : DateTime)

section Runs

variable (prims : Primitives) (me : NodeId) (world : LedgerWorld)

def ledgerStep : LedgerOp → LedgerWorld
  | .earnInference pool tx inferenceServe tokens id now =>
    { world with store := landed (onBooks (earnInference prims me pool tx inferenceServe tokens id now)) world.store }
  | .spendInference inferenceConsume tokens now =>
    { world with store := landed (onBooks (spendInference inferenceConsume tokens now)) world.store }
  | .hostingTick shardHosting totalGb hours now =>
    match hostingMicro shardHosting totalGb hours with
    | none => world
    | some micro =>
      let accrual := hostingAccrual micro world.hostingRemainderMicro
      ⟨landed (onBooks (earn accrual.1 now)) world.store, accrual.2⟩
  | .decayTick now => { world with store := landed (onBooks (decayTick now)) world.store }
  | .applyDirect delta kind now => { world with store := landed (applyCredit delta kind now) world.store }
  | .createEscrow requestId amount fromNode id now =>
    { world with store := landed (createEscrow requestId amount fromNode id now) world.store }
  | .releaseEscrow id toNode actualCost now =>
    { world with store := landed (releaseEscrow id toNode actualCost now) world.store }
  | .refundEscrow id now => { world with store := landed (refundEscrow id now) world.store }
  | .cleanupExpired now => { world with store := landed (cleanupExpired now) world.store }

def NoSaturation : LedgerOp → Prop
  | .earnInference pool tx inferenceServe tokens id now =>
    let amount := localCredit prims me pool tx inferenceServe tokens id now
    0 < amount → Fits world.store.balance amount .earning
  | .spendInference inferenceConsume tokens _ => Fits world.store.balance (spendDelta inferenceConsume tokens) .spending
  | .hostingTick shardHosting totalGb hours _ =>
    ∀ micro, hostingMicro shardHosting totalGb hours = some micro → 0 < (hostingAccrual micro world.hostingRemainderMicro).1 →
        Fits world.store.balance (hostingAccrual micro world.hostingRemainderMicro).1 .earning
  | .decayTick _ =>
    world.store.balance.balance < 0 → Fits world.store.balance (negativeBalanceDecayAmount world.store.balance.balance) .refund
  | .applyDirect delta kind _ => Fits world.store.balance delta kind
  | .createEscrow _ amount _ _ _ => 0 < amount → Fits world.store.balance (-amount) .spending
  | .releaseEscrow id _ actualCost _ =>
    ∀ entry, findPending world.store id = .ok entry → Fits world.store.balance (entry.amount - max actualCost 0)
        (if 0 < entry.amount - max actualCost 0 then .refund else .spending)
  | .refundEscrow id _ => ∀ entry, findPending world.store id = .ok entry → Fits world.store.balance entry.amount .refund
  | .cleanupExpired now =>
    IsI64 world.store.balance.balance ∧ world.store.balance.balance + expiredTotal now world.store.entries ≤ i64Max

def DirectMatches : LedgerOp → Prop
  | .applyDirect delta kind _ => SignMatches delta kind
  | _ => True

def StepCloses : LedgerOp → Prop
  | .spendInference inferenceConsume tokens _ => spendDelta inferenceConsume tokens ≤ 0
  | .cleanupExpired now => expiredIds now world.store.entries = []
  | _ => True

def stepDrift : LedgerOp → Int
  | .spendInference inferenceConsume tokens _ => drift (spendDelta inferenceConsume tokens) .spending
  | .cleanupExpired now => expiredTotal now world.store.entries
  | _ => 0

variable (delta : Int) (kind : CreditDelta) {id : Uuid} (world : LedgerWorld) (op : LedgerOp) {store : CreditStore}
  {now : DateTime}

theorem step_drift_facts (stored : StoredWell world.store.entries) :
    0 ≤ stepDrift world op ∧ (stepDrift world op = 0 ↔ StepCloses world op) := by
  cases op with
  | spendInference inferenceConsume tokens now =>
    exact ⟨spending_drift_nonneg, drift_eq_zero_iff .spending⟩
  | cleanupExpired now => exact expired_total_pos now world.store stored
  | _ => simp [stepDrift, StepCloses]

theorem earn_lands {amount : Int} (fits : 0 < amount → Fits store.balance amount .earning) :
    (landed (onBooks (earn amount now)) store).balance.gap = store.balance.gap ∧
      (landed (onBooks (earn amount now)) store).entries = store.entries := by
  rw [earn]
  by_cases positive : 0 < amount
  · rw [if_pos positive]
    exact ⟨gap_matched now (fits positive) (Int.le_of_lt positive), rfl⟩
  · rw [if_neg positive]
    exact ⟨rfl, rfl⟩

theorem create_lands {requestId : Uuid} {amount : Int} {fromNode : NodeId} (stored : StoredWell store.entries)
    (fits : 0 < amount → Fits store.balance (-amount) .spending) :
    (landed (createEscrow requestId amount fromNode id now) store).balance.gap = store.balance.gap ∧
      StoredWell (landed (createEscrow requestId amount fromNode id now) store).entries := by
  rw [createEscrow]
  by_cases refused : amount ≤ 0
  · rw [if_pos refused]
    exact ⟨rfl, stored⟩
  · rw [if_neg refused]
    have positive : 0 < amount := by omega
    refine ⟨gap_matched now (fits positive) (by simp only [SignMatches]; omega), ?_⟩
    exact stored_insert stored id ⟨id, requestId, amount, fromNode, none, now, .pending⟩ rfl fun _ => positive

@[simp] theorem wp_apply_lands (now : DateTime) (store : CreditStore)
    (post : Except SwarmError Unit → Machine CreditStore → Prop) (crash : CreditStore → Prop) :
    (applyCredit delta kind now).wp post crash ⟨store, []⟩ ↔ post (.ok ()) ⟨store.withBooks ⟨store.balance.creditBy delta kind now,
        some (store.balance.creditBy delta kind now)⟩, []⟩ := Iff.rfl

theorem settle_delta_gap {delta : Int} (fits : Fits store.balance delta (if 0 < delta then .refund else .spending)) :
    (settleDelta delta now).wp
      (fun _ after => after.store.balance.gap = store.balance.gap ∧ after.store.entries = store.entries)
      (fun _ => False) ⟨store, []⟩ := by
  rw [settleDelta]
  by_cases back : 0 < delta
  · rw [if_pos back] at fits ⊢
    exact ⟨gap_matched now fits (Int.le_of_lt back), rfl⟩
  rw [if_neg back] at fits ⊢
  by_cases short : delta < 0
  · rw [if_pos short]
    exact ⟨gap_matched now fits (Int.le_of_lt short), rfl⟩
  · rw [if_neg short]
    exact ⟨rfl, rfl⟩

section

variable (stored : StoredWell store.entries)

include stored

theorem settled_entries_well
    {entry : EscrowEntry} (settled : EscrowEntry) (found : findPending store id = .ok entry) (named : settled.id = entry.id)
    (final : settled.status ≠ .pending) : StoredWell ((store.entries.insert id settled).erase id) := by
  have read := (find_pending_ok store id entry found).1
  exact stored_erase (stored_insert stored id settled (named.trans (stored id entry read).1)
    fun pending => absurd pending final) id

theorem release_lands {toNode : NodeId} {actualCost : Int}
    (fits : ∀ entry, findPending store id = .ok entry → Fits store.balance (entry.amount - max actualCost 0) (if 0 < entry.amount - max actualCost 0 then .refund else .spending)) :
    (landed (releaseEscrow id toNode actualCost now) store).balance.gap = store.balance.gap ∧
      StoredWell (landed (releaseEscrow id toNode actualCost now) store).entries := by
  refine wp_always (fun after => after.balance.gap = store.balance.gap ∧ StoredWell after.entries) ⟨store, []⟩ ?_
  simp only [releaseEscrow, wp_bind, wp_get]
  cases found : findPending store id with
  | error error => exact ⟨rfl, stored⟩
  | ok entry =>
    have well := settled_entries_well stored { entry with status := .released, toNode := some toNode }
      found rfl (by simp)
    simp only [wp_bind, wp_modify, wp_write_lands, wp_pure]
    refine wp_mono _ _ _ _ _ (settle_delta_gap (fits entry found)) (fun _ after closed => ?_)
      (fun _ impossible => impossible.elim)
    exact ⟨closed.1, by rw [closed.2]; exact well⟩

theorem refund_lands
    (fits : ∀ entry, findPending store id = .ok entry → Fits store.balance entry.amount .refund) :
    (landed (refundEscrow id now) store).balance.gap = store.balance.gap ∧
      StoredWell (landed (refundEscrow id now) store).entries := by
  refine wp_always (fun after => after.balance.gap = store.balance.gap ∧ StoredWell after.entries) ⟨store, []⟩ ?_
  simp only [refundEscrow, wp_bind, wp_get]
  cases found : findPending store id with
  | error error => exact ⟨rfl, stored⟩
  | ok entry =>
    obtain ⟨read, pending⟩ := find_pending_ok store id entry found
    have positive := (stored id entry read).2 pending
    have gap := gap_matched now (fits entry found) (Int.le_of_lt positive)
    simp only [wp_bind, wp_modify, wp_write_lands, wp_pure, wp_apply_lands]
    exact ⟨gap, settled_entries_well stored { entry with status := .refunded } found rfl (by simp)⟩

end

theorem decay_lands
    (fits : store.balance.balance < 0 → Fits store.balance (negativeBalanceDecayAmount store.balance.balance) .refund) :
    (landed (onBooks (decayTick now)) store).balance.gap = store.balance.gap ∧
      (landed (onBooks (decayTick now)) store).entries = store.entries := by
  refine wp_always (fun after => after.balance.gap = store.balance.gap ∧ after.entries = store.entries) ⟨store, []⟩ ?_
  simp only [onBooks, decayTick, wp_zoom, wp_bind, wp_get]
  by_cases negative : store.balance.balance < 0
  · have forgiven := decay_positive negative
    have gap := gap_matched now (fits negative) (Int.le_of_lt forgiven)
    rw [if_pos (show 0 < negativeBalanceDecayAmount store.books.balance.balance from forgiven)]
    exact ⟨gap, rfl⟩
  · have nothing : negativeBalanceDecayAmount store.balance.balance = 0 := by
      rw [negativeBalanceDecayAmount, if_pos (by omega)]
    rw [if_neg (show ¬ 0 < negativeBalanceDecayAmount store.books.balance.balance from nothing ▸ Int.lt_irrefl 0)]
    exact ⟨rfl, rfl⟩

theorem cleanup_lands (stored : StoredWell store.entries) (range : IsI64 store.balance.balance)
    (room : store.balance.balance + expiredTotal now store.entries ≤ i64Max) :
    (landed (cleanupExpired now) store).balance.gap = store.balance.gap + expiredTotal now store.entries ∧
      StoredWell (landed (cleanupExpired now) store).entries := by
  have swept := cleanup_gap now store (expired_ids_nodup now stored) (expired_id_pending now store stored) stored range room
  refine wp_always (fun after => after.balance.gap = store.balance.gap +
    expiredTotal now store.entries ∧ StoredWell after.entries) ⟨store, []⟩ ?_
  simp only [cleanupExpired, wp_bind, wp_get]
  exact wp_mono _ _ _ _ _ swept (fun _ _ closed => closed) (fun _ impossible => impossible.elim)

theorem ledger_step_gap (stored : StoredWell world.store.entries) (fits : NoSaturation prims me world op)
    (matched : DirectMatches op) :
    (ledgerStep prims me world op).store.balance.gap = world.store.balance.gap + stepDrift world op ∧
      StoredWell (ledgerStep prims me world op).store.entries := by
  cases op with
  | earnInference pool tx inferenceServe tokens id now =>
    obtain ⟨gap, kept⟩ := earn_lands fits
    exact ⟨gap.trans (Int.add_zero _).symm, kept ▸ stored⟩
  | spendInference inferenceConsume tokens now => exact ⟨gap_credit_by now fits, stored⟩
  | hostingTick shardHosting totalGb hours now =>
    simp only [ledgerStep, stepDrift, Int.add_zero]
    cases accrued : hostingMicro shardHosting totalGb hours with
    | none => exact ⟨rfl, stored⟩
    | some micro =>
      obtain ⟨gap, kept⟩ := earn_lands (fits micro accrued)
      exact ⟨gap, kept ▸ stored⟩
  | decayTick now =>
    obtain ⟨gap, kept⟩ := decay_lands fits
    exact ⟨gap.trans (Int.add_zero _).symm, kept ▸ stored⟩
  | applyDirect delta kind now =>
    exact ⟨(gap_matched now fits matched).trans (Int.add_zero _).symm, stored⟩
  | createEscrow requestId amount fromNode id now =>
    simp only [stepDrift, Int.add_zero]
    exact create_lands stored fits
  | releaseEscrow id toNode actualCost now =>
    simp only [stepDrift, Int.add_zero]
    exact release_lands stored fits
  | refundEscrow id now =>
    simp only [stepDrift, Int.add_zero]
    exact refund_lands stored fits
  | cleanupExpired now => exact cleanup_lands stored fits.1 fits.2

-- The gap never shrinks, and a run leaves it as it was exactly when every step does.
theorem run_gap {ops : List LedgerOp} (stored : StoredWell world.store.entries)
    (fits : RunMeets (ledgerStep prims me) (NoSaturation prims me) world ops) (matched : ∀ op ∈ ops, DirectMatches op) :
    world.store.balance.gap ≤ (run (ledgerStep prims me) world ops).store.balance.gap ∧
      ((run (ledgerStep prims me) world ops).store.balance.gap = world.store.balance.gap ↔
        RunMeets (ledgerStep prims me) StepCloses world ops) := by
  induction ops generalizing world with
  | nil => simp [RunMeets]
  | cons op rest ih =>
    obtain ⟨moved, well⟩ := ledger_step_gap prims me world op stored fits.1 (matched op (by simp))
    obtain ⟨grows, closes⟩ := step_drift_facts world op stored
    obtain ⟨restGrows, restCloses⟩ := ih (ledgerStep prims me world op) well fits.2
      fun other member => matched other (by simp [member])
    rw [run_cons, RunMeets, ← closes, ← restCloses]
    omega

theorem books_close_iff (ops : List LedgerOp) (closed : world.store.balance.booksBalance = true)
    (stored : StoredWell world.store.entries)
    (fits : RunMeets (ledgerStep prims me) (NoSaturation prims me) world ops) (matched : ∀ op ∈ ops, DirectMatches op) :
    (run (ledgerStep prims me) world ops).store.balance.booksBalance = true ↔
      RunMeets (ledgerStep prims me) StepCloses world ops := by
  rw [books_balance_iff] at closed ⊢
  obtain ⟨_, closes⟩ := run_gap prims me world stored fits matched
  rw [closed] at closes
  exact closes

end Runs

def sampleBooks : LedgerWorld := ⟨⟨⟨NodeId.ofByte 1, 100, 100, 0, 0, 0⟩, ∅, none, ∅, []⟩, 0⟩

def expiryOps : List LedgerOp :=
  [.createEscrow (Uuid.ofByte 3) 40 (NodeId.ofByte 1) (Uuid.ofByte 2) 0, .cleanupExpired (601 * secondsNs)]

theorem expiry_breaks_books :
    sampleBooks.store.balance.booksBalance = true ∧
      (run (ledgerStep samplePrims (NodeId.ofByte 1)) sampleBooks expiryOps).store.balance.booksBalance = false := by
  decide +kernel

theorem books_close_iff_sample :
    (run (ledgerStep samplePrims (NodeId.ofByte 1)) sampleBooks
      [.spendInference 10 3 0, .applyDirect 25 .earning 0]).store.balance.booksBalance = true :=
  (books_close_iff samplePrims (NodeId.ofByte 1) sampleBooks [.spendInference 10 3 0, .applyDirect 25 .earning 0] (by decide)
    (by intro id entry found; cases found)
    ⟨⟨by decide, by decide⟩, ⟨by decide, by decide⟩, trivial⟩
    (by simp [DirectMatches, SignMatches])).mpr ⟨(by decide : spendDelta 10 3 ≤ 0), trivial, trivial⟩

structure CreditChange where
  delta : Int
  kind : CreditDelta
  now : DateTime

open CreditChange

def CreditChange.apply (bal : CreditBalance) (change : CreditChange) : CreditBalance :=
  bal.creditBy change.delta change.kind change.now

-- A change is correctly recorded when its sign is its kind's and nothing is clamped.
def Recorded (bal : CreditBalance) (change : CreditChange) : Prop :=
  Fits bal change.delta change.kind ∧ SignMatches change.delta change.kind

-- What a backfill leaves: no gap to explain, or a counter that holds no more.
def Backfilled (bal : CreditBalance) : Prop := bal.gap ≤ 0 ∨ bal.lifetimeRefunded = u64Max

variable {bal : CreditBalance}

theorem backfill_settled (settled : Backfilled bal) : backfillHistoricalRefunds bal = bal := by
  rw [backfillHistoricalRefunds]
  split
  · rfl
  · next gap =>
      have full := settled.resolve_left gap
      rw [satAddU, full, Nat.min_eq_left (Nat.le_add_right _ _), ← full]

theorem backfill_gap (gap : 0 < bal.gap) :
    (backfillHistoricalRefunds bal).gap = max 0 (bal.balance - bal.lifetimeEarned + bal.lifetimeSpent - u64Max) := by
  rw [backfillHistoricalRefunds, if_neg (by omega)]
  simp only [CreditBalance.gap, satAddU, u64Max] at gap ⊢
  omega

theorem backfill_settles : Backfilled (backfillHistoricalRefunds bal) := by
  by_cases gap : bal.gap ≤ 0
  · rw [backfillHistoricalRefunds, if_pos gap]
    exact .inl gap
  · rw [backfillHistoricalRefunds, if_neg gap]
    simp only [Backfilled, CreditBalance.gap, satAddU, u64Max] at gap ⊢
    omega

theorem recorded_settled {change : CreditChange} (settled : Backfilled bal) (recorded : Recorded bal change) :
    Backfilled (change.apply bal) := by
  have gap := gap_matched change.now recorded.1 recorded.2
  refine settled.imp (fun none => gap.trans_le none) fun full => ?_
  have room := recorded.1.2
  cases kind : change.kind with
  | earning | spending => simp only [apply, creditBy, kind, full]
  | refund => simp [apply, creditBy, kind, satAddU, full]

theorem backfill_safe (bal : CreditBalance) (changes : List CreditChange) :
    { backfillHistoricalRefunds bal with lifetimeRefunded := bal.lifetimeRefunded } = bal ∧
      (bal.lifetimeRefunded ≤ u64Max → 0 ≤ bal.gap → ((backfillHistoricalRefunds bal).booksBalance = true ↔
        bal.balance - bal.lifetimeEarned + bal.lifetimeSpent ≤ u64Max)) ∧
      (bal.gap < 0 → backfillHistoricalRefunds bal = bal) ∧
      (RunMeets apply Recorded (backfillHistoricalRefunds bal) changes →
        backfillHistoricalRefunds (run apply (backfillHistoricalRefunds bal) changes) =
          run apply (backfillHistoricalRefunds bal) changes) := by
  refine ⟨?_, fun counted nonneg => ?_, fun negative => backfill_settled (.inl (by omega)), fun recorded => backfill_settled ?_⟩
  · rw [backfillHistoricalRefunds]
    split <;> rfl
  · rw [books_balance_iff]
    rcases Int.lt_or_eq_of_le nonneg with gap | none
    · rw [backfill_gap gap]
      omega
    · rw [backfill_settled (.inl (by omega)), ← none]
      simp only [CreditBalance.gap] at none
      omega
  · exact run_invariant Recorded Backfilled (fun _ _ => recorded_settled) _ changes backfill_settles recorded

theorem backfill_saturates :
    0 ≤ CreditBalance.gap ⟨NodeId.ofByte 1, 1, 0, u64Max, 0, 0⟩ ∧
      (backfillHistoricalRefunds ⟨NodeId.ofByte 1, 1, 0, u64Max, 0, 0⟩).booksBalance = false := by
  decide

end SwarmLlm.Credit
