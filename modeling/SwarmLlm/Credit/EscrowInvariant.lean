import SwarmLlm.Credit.Escrow

namespace SwarmLlm.Credit

open Lib Table

abbrev heldAt (entries : Table Uuid EscrowEntry) (id : Uuid) : Int := weightAt pendingAmount entries id

def StoredWell (tree : Table Uuid EscrowEntry) : Prop :=
  ∀ id entry, tree.lookup id = some entry → entry.id = id ∧ (entry.status = .pending → 0 < entry.amount)

-- What a restart may rely on, whatever point the process was stopped at.
structure DiskInv (nodeId : NodeId) (bound : Int) (record : Option CreditBalance) (tree : Table Uuid EscrowEntry)
    (paid : List Uuid) : Prop where
  range : IsI64 (restoreBalance nodeId 0 record).balance
  stored : StoredWell tree
  capped : (restoreBalance nodeId 0 record).balance + pendingTotal tree ≤ bound
  unpaid : ∀ id ∈ paid, heldAt tree id = 0
  once : paid.Nodup

variable (nodeId : NodeId) (bound : Int) (store : CreditStore)

def CreditStore.OnDisk : Prop :=
  DiskInv nodeId bound store.creditRecord store.escrowTree store.paid

-- The state between operations. Memory may hold an escrow that the disk already
-- calls settled, never the reverse, so a restart can only lose reservations.
structure EscrowInv (nodeId : NodeId) (bound : Int) (store : CreditStore) : Prop where
  own : store.balance.nodeId = nodeId
  range : IsI64 store.balance.balance
  active : ∀ id entry, store.entries.lookup id = some entry → entry.id = id ∧ entry.status = .pending ∧ 0 < entry.amount
  capped : store.balance.balance + pendingTotal store.entries ≤ bound
  covers : ∀ id, heldAt store.escrowTree id ≤ heldAt store.entries id
  unpaid : ∀ id ∈ store.paid, store.entries.lookup id = none
  recordRange : IsI64 (restoreBalance nodeId 0 store.creditRecord).balance
  stored : StoredWell store.escrowTree
  recordCapped : (restoreBalance nodeId 0 store.creditRecord).balance + pendingTotal store.entries ≤ bound
  once : store.paid.Nodup

variable {nodeId bound} {id : Uuid} {entries tree : Table Uuid EscrowEntry}

theorem held_nonneg (stored : StoredWell tree) (id : Uuid) : 0 ≤ heldAt tree id := by
  rw [heldAt, weightAt]
  cases found : tree.lookup id with
  | none => exact Int.le_refl 0
  | some entry =>
    have positive := (stored id entry found).2
    simp only [Option.map_some, Option.getD_some, pendingAmount]
    split
    · next pending => exact Int.le_of_lt (positive pending)
    · exact Int.le_refl 0

theorem stored_insert (stored : StoredWell entries) (id : Uuid) (entry : EscrowEntry) (named : entry.id = id)
    (positive : entry.status = .pending → 0 < entry.amount) : StoredWell (entries.insert id entry) :=
  forall_insert stored ⟨named, positive⟩

theorem stored_erase (stored : StoredWell entries) (id : Uuid) : StoredWell (entries.erase id) :=
  fun query other found => stored query other (lookup_erase_some found).2

theorem find_pending_ok (id : Uuid) (entry : EscrowEntry)
    (found : findPending store id = .ok entry) : store.entries.lookup id = some entry ∧ entry.status = .pending := by
  rw [findPending] at found
  cases read : store.entries.lookup id with
  | none => simp [read] at found
  | some other =>
    by_cases pending : other.status = .pending
    · simp only [read, pending, if_true, Except.ok.injEq] at found
      exact ⟨by rw [found], found ▸ pending⟩
    · simp [read, pending] at found

variable {store}

theorem active_stored (inv : EscrowInv nodeId bound store) : StoredWell store.entries :=
  fun id entry found => ⟨(inv.active id entry found).1, fun _ => (inv.active id entry found).2.2⟩

theorem pending_total_le (inv : EscrowInv nodeId bound store) : pendingTotal store.escrowTree ≤ pendingTotal store.entries :=
  total_le_total _ _ (held_nonneg (active_stored inv)) inv.covers

theorem held_absent (absent : entries.lookup id = none) : heldAt entries id = 0 := by
  rw [heldAt, weightAt, absent]
  rfl

section

variable (inv : EscrowInv nodeId bound store)

include inv

theorem held_active {entry : EscrowEntry}
    (found : store.entries.lookup id = some entry) : heldAt store.entries id = entry.amount := by
  rw [heldAt, weight_at_found _ _ id entry found, pendingAmount, if_pos (inv.active id entry found).2.1]

theorem disk_of_inv : store.OnDisk nodeId bound := by
  have below := pending_total_le inv
  have cap := inv.recordCapped
  refine ⟨inv.recordRange, inv.stored, by omega, fun id member => ?_, inv.once⟩
  have low := held_nonneg inv.stored id
  have high := inv.covers id
  rw [held_absent (inv.unpaid id member)] at high
  omega

theorem inv_weaken {wider : Int} (le : bound ≤ wider) : EscrowInv nodeId wider store :=
  { inv with
    capped := Int.le_trans inv.capped le
    recordCapped := Int.le_trans inv.recordCapped le }

end

theorem disk_weaken {wider : Int} (disk : store.OnDisk nodeId bound) (le : bound ≤ wider) : store.OnDisk nodeId wider :=
  { disk with capped := Int.le_trans disk.capped le }

theorem lookup_load_pending (stored : StoredWell tree) (id : Uuid) :
    (loadPending tree).lookup id = (tree.lookup id).filter fun entry => entry.status = .pending :=
  lookup_collect (fun id entry found => (stored id entry found).1) id

theorem held_load_pending (stored : StoredWell tree) (id : Uuid) : heldAt (loadPending tree) id = heldAt tree id := by
  rw [heldAt, heldAt, weightAt, weightAt, lookup_load_pending stored id]
  cases found : tree.lookup id with
  | none => rfl
  | some entry =>
    by_cases pending : entry.status = .pending
    · simp [Option.filter, pending]
    · simp [Option.filter, pendingAmount, pending]

theorem load_pending_total (stored : StoredWell tree) : pendingTotal (loadPending tree) = pendingTotal tree := by
  have same := held_load_pending stored
  have nonneg := held_nonneg stored
  apply Int.le_antisymm
  · exact total_le_total _ _ nonneg fun id => Int.le_of_eq (same id)
  · exact total_le_total _ _ (fun id => Int.le_trans (nonneg id) (Int.le_of_eq (same id).symm))
      fun id => Int.le_of_eq (same id).symm

theorem restart_keeps (now : DateTime) (disk : store.OnDisk nodeId bound) :
    EscrowInv nodeId bound (restart nodeId now store) := by
  have clock := restore_balance_clock nodeId now 0 store.creditRecord
  have total := load_pending_total disk.stored
  have lookups := lookup_load_pending disk.stored
  have cap := disk.capped
  refine ⟨restore_node nodeId now _, ?_, ?_, ?_, ?_, ?_, disk.range, disk.stored, ?_, disk.once⟩
  · simpa only [restart, clock] using disk.range
  · intro id entry found
    obtain ⟨read, pending⟩ := Option.filter_eq_some_iff.mp ((lookups id).symm.trans found)
    have well := disk.stored id entry read
    have status := of_decide_eq_true pending
    exact ⟨well.1, status, well.2 status⟩
  · simpa only [restart, clock, total] using cap
  · intro id
    exact Int.le_of_eq (held_load_pending disk.stored id).symm
  · intro id member
    have zero := disk.unpaid id member
    rw [restart, lookups id]
    cases found : store.escrowTree.lookup id with
    | none => rfl
    | some entry =>
      by_cases pending : entry.status = .pending
      · have positive := (disk.stored id entry found).2 pending
        rw [heldAt, weight_at_found _ _ id entry found, pendingAmount, if_pos pending] at zero
        omega
      · simp [Option.filter, pending]
  · simpa only [restart, total] using cap

section Moves

variable (inv : EscrowInv nodeId bound store)

include inv

theorem books_land (delta : Int) (bal : CreditBalance) (own : bal.nodeId = nodeId) (range : IsI64 bal.balance)
    (le : bal.balance ≤ store.balance.balance + delta) : EscrowInv nodeId (bound + delta) (store.withBooks ⟨bal, some bal⟩) := by
  have cap := inv.capped
  have restored : (restoreBalance nodeId 0 (some bal)).balance = bal.balance := restore_own own
  refine ⟨own, range, inv.active, ?_, inv.covers, inv.unpaid, ?_, inv.stored, ?_, inv.once⟩
  · simp only [CreditStore.withBooks]
    omega
  · simpa only [CreditStore.withBooks, restored] using range
  · simp only [CreditStore.withBooks, restored]
    omega

theorem books_revert (bal : CreditBalance) (own : bal.nodeId = nodeId) (range : IsI64 bal.balance)
    (le : bal.balance ≤ store.balance.balance) : EscrowInv nodeId bound (store.withBooks ⟨bal, store.creditRecord⟩) := by
  have cap := inv.capped
  refine { inv with own, range, capped := ?_ }
  simp only [CreditStore.withBooks]
  omega

variable {entry : EscrowEntry}

theorem open_entry (entry : EscrowEntry) (named : entry.id = id) (pending : entry.status = .pending) (positive : 0 < entry.amount)
    (fresh : store.entries.lookup id = none) (unpaid : id ∉ store.paid) :
    EscrowInv nodeId (bound + entry.amount) (setEntry id entry (putEntry id entry store)) := by
  have cap := inv.capped
  have recordCap := inv.recordCapped
  have grown : pendingTotal (store.entries.insert id entry) = pendingTotal store.entries + entry.amount := by
    rw [pendingTotal, total_insert_fresh _ id fresh, pendingAmount, if_pos pending]
    rfl
  refine ⟨inv.own, inv.range, ?_, ?_, ?_, ?_, inv.recordRange, ?_, ?_, inv.once⟩
  · exact forall_insert inv.active ⟨named, pending, positive⟩
  · simp only [setEntry, putEntry, grown]
    omega
  · intro query
    simp only [setEntry, putEntry, heldAt, weight_at_insert]
    split
    · exact Int.le_refl _
    · exact inv.covers query
  · intro query member
    have different : query ≠ id := fun same => unpaid (same ▸ member)
    rw [setEntry, putEntry, lookup_insert_if, if_neg different]
    exact inv.unpaid query member
  · exact stored_insert inv.stored id entry named fun _ => positive
  · simp only [setEntry, putEntry, grown]
    omega

theorem put_keeps (named : entry.id = id) (below : pendingAmount entry ≤ heldAt store.entries id)
    (positive : entry.status = .pending → 0 < entry.amount) : EscrowInv nodeId bound (putEntry id entry store) := by
  refine { inv with covers := ?_, stored := ?_ }
  · intro query
    simp only [putEntry, heldAt, weight_at_insert]
    split
    · next same => exact same ▸ below
    · exact inv.covers query
  · exact stored_insert inv.stored id entry named positive

theorem put_settled_keeps (entry : EscrowEntry) (named : entry.id = id) (settled : entry.status ≠ .pending) :
    EscrowInv nodeId bound (putEntry id entry store) := by
  refine put_keeps inv named ?_ fun pending => absurd pending settled
  rw [pendingAmount, if_neg settled]
  exact held_nonneg (active_stored inv) id

theorem set_back (other : EscrowEntry) (found : store.entries.lookup id = some entry) :
    EscrowInv nodeId bound (setEntry id entry (setEntry id other store)) := by
  have lookups : ∀ query, ((store.entries.insert id other).insert id entry).lookup query = store.entries.lookup query := by
    intro query
    rw [lookup_insert_if, lookup_insert_if]
    by_cases same : query = id
    · rw [if_pos same, same, found]
    · rw [if_neg same, if_neg same]
  have total : pendingTotal ((store.entries.insert id other).insert id entry) = pendingTotal store.entries :=
    total_congr lookups
  refine ⟨inv.own, inv.range, ?_, ?_, ?_, ?_, inv.recordRange, inv.stored, ?_, inv.once⟩
  · intro query value read
    exact inv.active query value ((lookups query).symm.trans read)
  · simpa only [setEntry, total] using inv.capped
  · intro query
    simp only [setEntry, heldAt, weightAt, lookups query]
    exact inv.covers query
  · intro query member
    exact (lookups query).trans (inv.unpaid query member)
  · simpa only [setEntry, total] using inv.recordCapped

theorem settle_keeps (settled : EscrowEntry) (found : store.entries.lookup id = some entry) (named : settled.id = id)
    (final : settled.status ≠ .pending) :
    EscrowInv nodeId (bound - entry.amount) (dropEntry id (notePaid id (putEntry id settled (setEntry id settled store)))) := by
  have lookups : ∀ query, ((store.entries.insert id settled).erase id).lookup query =
      if query = id then none else store.entries.lookup query := by
    intro query
    rw [lookup_erase_if, lookup_insert_if]
    split <;> rfl
  have held : heldAt store.entries id = entry.amount := held_active inv found
  have total : pendingTotal ((store.entries.insert id settled).erase id) = pendingTotal store.entries - entry.amount := by
    have inserted := total_insert store.entries pendingAmount id settled
    have erased := total_erase (store.entries.insert id settled) pendingAmount id
    rw [weight_at_insert, if_pos rfl] at erased
    simp only [pendingTotal, heldAt] at held ⊢
    omega
  have cap := inv.capped
  have recordCap := inv.recordCapped
  have unpaid : id ∉ store.paid := fun member => by
    rw [inv.unpaid id member] at found
    cases found
  have written := put_settled_keeps inv settled named final
  refine ⟨inv.own, inv.range, ?_, ?_, ?_, ?_, inv.recordRange, written.stored, ?_, List.nodup_cons.mpr ⟨unpaid, inv.once⟩⟩
  · intro query value read
    have read := (lookups query).symm.trans read
    by_cases same : query = id
    · rw [if_pos same] at read
      cases read
    · rw [if_neg same] at read
      exact inv.active query value read
  · simp only [dropEntry, notePaid, putEntry, setEntry, total]
    omega
  · intro query
    simp only [dropEntry, notePaid, putEntry, setEntry, heldAt, weight_at_erase, weight_at_insert]
    split
    · rw [pendingAmount, if_neg final]
    · exact inv.covers query
  · intro query member
    refine (lookups query).trans ?_
    split
    · rfl
    · next different => exact inv.unpaid query ((List.mem_cons.mp member).resolve_left different)
  · simp only [dropEntry, notePaid, putEntry, setEntry, total]
    omega

end Moves

end SwarmLlm.Credit
