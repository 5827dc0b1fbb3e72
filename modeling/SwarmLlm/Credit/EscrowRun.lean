import SwarmLlm.Credit.EscrowInvariant
import SwarmLlm.Lib.Run

namespace SwarmLlm.Credit

open Lib Prog

variable {id : Uuid} {now : DateTime}

section Programs

variable {nodeId : NodeId} {bound : Int} {machine : Machine CreditStore} (inv : EscrowInv nodeId bound machine.store)

include inv

theorem wp_apply_keeps (delta : Int) (kind : CreditDelta) (now : DateTime) (low : i64Min ≤ machine.store.balance.balance + delta) :
    (applyCredit delta kind now).wp
      (fun result after => (∃ books, after.store = machine.store.withBooks books) ∧
        match result with
        | .ok _ => EscrowInv nodeId (bound + delta) after.store
        | .error _ => EscrowInv nodeId bound after.store ∧ ∃ error, machine.fates.headD .lands = .fails error)
      (CreditStore.OnDisk nodeId (max bound (bound + delta))) machine := by
  have credited := books_land inv delta (machine.store.balance.creditBy delta kind now)
    (by rw [credit_by_node]; exact inv.own) (by rw [credit_by_balance]; exact clamp_in_range _)
    (by rw [credit_by_balance]; exact sat_add_le low)
  have reverted := books_revert inv
    ((machine.store.balance.creditBy delta kind now).revertBy delta kind)
    (by rw [revert_by_node, credit_by_node]; exact inv.own) (by rw [revert_by_balance]; exact clamp_in_range _)
    (by rw [revert_by_balance, credit_by_balance]; exact sat_sub_add_le inv.range low)
  rw [applyCredit, wp_zoom]
  apply wp_apply_credit
  · intro fates
    exact ⟨⟨_, rfl⟩, credited⟩
  · intro error fates fate
    exact ⟨⟨_, rfl⟩, reverted, error, fate⟩
  · exact disk_weaken (disk_of_inv inv :) (Int.le_max_left _ _)
  · exact disk_weaken (disk_of_inv credited :) (Int.le_max_right _ _)

theorem wp_create {requestId : Uuid} {amount : Int} {fromNode : NodeId}
    (low : 0 < amount → i64Min ≤ machine.store.balance.balance - amount)
    (fresh : machine.store.entries.lookup id = none) (unpaid : id ∉ machine.store.paid) :
    (createEscrow requestId amount fromNode id now).wp (fun _ after => EscrowInv nodeId bound after.store)
      (CreditStore.OnDisk nodeId bound) machine := by
  rw [createEscrow]
  by_cases refused : amount ≤ 0
  · rw [if_pos refused]
    exact inv
  have positive : 0 < amount := by omega
  rw [if_neg refused, wp_bind]
  have charged := wp_apply_keeps inv (-amount) .spending now (by have := low positive; omega)
  refine wp_mono _ _ _ _ machine charged ?_ (fun store disk => disk_weaken disk (by omega))
  intro result after outcome
  obtain ⟨⟨books, frame⟩, outcome⟩ := outcome
  cases result with
  | error error => exact outcome.1
  | ok _ =>
    have opened := open_entry outcome ⟨id, requestId, amount, fromNode, none, now, .pending⟩
      rfl rfl positive (by rw [frame]; exact fresh) (by rw [frame]; exact unpaid)
    rw [show bound + -amount + amount = bound by omega] at opened
    have kept : EscrowInv nodeId bound after.store := inv_weaken outcome (by omega)
    simp only [wp_bind]
    apply wp_write
    · exact opened
    · intro error _
      exact kept
    · exact (disk_of_inv kept :)
    · exact (disk_of_inv opened :)

theorem wp_settle_delta {delta : Int} (now : DateTime)
    (charge : delta < 0 → i64Min ≤ machine.store.balance.balance + delta ∧ ∀ error, machine.fates.headD .lands ≠ .fails error) :
    (settleDelta delta now).wp (fun _ after => EscrowInv nodeId (bound + delta) after.store)
      (CreditStore.OnDisk nodeId (max bound (bound + delta))) machine := by
  have range := inv.range
  rw [settleDelta]
  by_cases back : 0 < delta
  · rw [if_pos back, wp_bind]
    have low : i64Min ≤ machine.store.balance.balance + delta := by
      have := range.1
      omega
    refine wp_mono _ _ _ _ machine (wp_apply_keeps inv delta .refund now low) ?_ (fun _ disk => disk)
    intro result after outcome
    cases result with
    | ok _ => exact outcome.2
    | error _ => exact inv_weaken outcome.2.1 (by omega)
  rw [if_neg back]
  by_cases short : delta < 0
  · rw [if_pos short, wp_bind]
    refine wp_mono _ _ _ _ machine (wp_apply_keeps inv delta .spending now (charge short).1) ?_ (fun _ disk => disk)
    intro result after outcome
    cases result with
    | ok _ => exact outcome.2
    | error _ =>
      obtain ⟨error, fate⟩ := outcome.2.2
      exact absurd fate ((charge short).2 error)
  · rw [if_neg short]
    exact inv_weaken inv (by omega)

def releaseCost : Except SwarmError Int → Int
  | .ok actual => actual
  | .error _ => 0

theorem wp_release {toNode : NodeId} {actualCost : Int}
    (charge : ∀ entry, machine.store.entries.lookup id = some entry → entry.amount < max actualCost 0 → i64Min ≤ machine.store.balance.balance + (entry.amount - max actualCost 0) ∧ ∀ error, machine.fates.tail.headD .lands ≠ .fails error) :
    (releaseEscrow id toNode actualCost now).wp
      (fun result after => EscrowInv nodeId (bound - releaseCost result) after.store)
      (CreditStore.OnDisk nodeId bound) machine := by
  simp only [releaseEscrow, wp_bind, wp_get]
  cases found : findPending machine.store id with
  | error error => exact inv_weaken inv (by simp [releaseCost])
  | ok entry =>
    have read := (find_pending_ok machine.store id entry found).1
    have facts := inv.active id entry read
    have settled := settle_keeps inv { entry with status := .released, toNode := some toNode } read facts.1 (by simp)
    have restored := set_back inv { entry with status := .released, toNode := some toNode } read
    simp only [wp_bind, wp_modify]
    apply wp_write
    · simp only [wp_bind, wp_modify, wp_pure]
      have settling := @wp_settle_delta nodeId _ ⟨_, machine.fates.tail⟩ settled _ now (fun short => charge entry read (by omega))
      refine wp_mono _ _ _ _ _ settling (fun _ after kept => ?_) (fun store disk => ?_)
      · rw [show bound - entry.amount + (entry.amount - max actualCost 0) = bound - max actualCost 0 by omega] at kept
        exact kept
      · exact disk_weaken disk (by omega)
    · intro error _
      exact inv_weaken restored (by simp [releaseCost])
    · exact (disk_of_inv inv :)
    · exact disk_weaken (disk_of_inv settled :) (by omega)

theorem wp_refund :
    (refundEscrow id now).wp (fun _ after => EscrowInv nodeId bound after.store) (CreditStore.OnDisk nodeId bound) machine := by
  simp only [refundEscrow, wp_bind, wp_get]
  cases found : findPending machine.store id with
  | error error => exact inv
  | ok entry =>
    have read := (find_pending_ok machine.store id entry found).1
    have facts := inv.active id entry read
    have settled := settle_keeps inv { entry with status := .refunded } read facts.1 (by simp)
    have restored := set_back inv { entry with status := .refunded } read
    have low : i64Min ≤ machine.store.balance.balance + entry.amount := by
      have := inv.range.1
      omega
    simp only [wp_bind, wp_modify]
    apply wp_write
    · simp only [wp_bind, wp_modify, wp_pure]
      have paying := @wp_apply_keeps nodeId _ ⟨_, machine.fates.tail⟩ settled entry.amount .refund now low
      refine wp_mono _ _ _ _ _ paying (fun result after kept => ?_) (fun store disk => ?_)
      · cases result with
        | ok _ => exact inv_weaken kept.2 (by omega)
        | error _ => exact inv_weaken kept.2.1 (by omega)
      · exact disk_weaken disk (by omega)
    · intro error _
      exact restored
    · exact (disk_of_inv inv :)
    · exact disk_weaken (disk_of_inv settled :) (by omega)

theorem wp_expire_one :
    (expireOne now id).wp (fun _ after => EscrowInv nodeId bound after.store) (CreditStore.OnDisk nodeId bound) machine := by
  simp only [expireOne, wp_bind, wp_get]
  cases found : findPending machine.store id with
  | error error => exact inv
  | ok entry =>
    have read := (find_pending_ok machine.store id entry found).1
    have facts := inv.active id entry read
    have settled := settle_keeps inv { entry with status := .expired } read facts.1 (by simp)
    have restored := set_back inv { entry with status := .expired } read
    have marked := put_settled_keeps inv { entry with status := .expired } facts.1 (by simp)
    -- The raised balance is the settled state credited with the whole amount.
    have raised := books_land settled entry.amount
      { machine.store.balance with balance := satAdd machine.store.balance.balance entry.amount, lastUpdated := now }
      inv.own (clamp_in_range _) (sat_add_le (by have := inv.range.1; omega))
    rw [show bound - entry.amount + entry.amount = bound by omega] at raised
    -- A failed balance write leaves the disk at Expired until the revert lands.
    have unpaid := books_revert restored { machine.store.balance with lastUpdated := now } inv.own inv.range
      (Int.le_refl _)
    have diverged := put_settled_keeps unpaid { entry with status := .expired } facts.1 (by simp)
    have repaired := put_keeps diverged facts.1 (by
        simp only [putEntry, CreditStore.withBooks, setEntry, heldAt, Table.weight_at_insert, if_true]
        exact Int.le_refl _)
      (fun _ => facts.2.2)
    simp only [wp_bind, wp_modify]
    apply wp_write
    · simp only [wp_bind, wp_modify, wp_get]
      apply wp_write
      · exact raised
      · intro error _
        simp only [wp_bind, wp_modify]
        apply wp_write
        · exact repaired
        · intro error _
          exact diverged
        · exact (disk_of_inv diverged :)
        · exact (disk_of_inv repaired :)
      · exact (disk_of_inv marked :)
      · exact (disk_of_inv raised :)
    · intro error _
      exact restored
    · exact (disk_of_inv inv :)
    · exact (disk_of_inv marked :)

theorem wp_cleanup :
    (cleanupExpired now).wp (fun _ after => EscrowInv nodeId bound after.store) (CreditStore.OnDisk nodeId bound) machine := by
  simp only [cleanupExpired, wp_bind, wp_get]
  exact wp_count_each _ _ _ (fun id machine inv => wp_expire_one inv) machine inv

end Programs

-- `spent` adds up the costs reported by the releases that returned Ok.
structure EscrowWorld where
  store : CreditStore
  spent : Int

-- Every operation carries the fate of each of its writes. The id of a new escrow
-- is the uuid the operation draws.
inductive EscrowOp where
  | create (requestId : Uuid) (amount : Int) (fromNode : NodeId) (id : Uuid) (now : DateTime) (fates : List WriteFate)
  | release (id : Uuid) (toNode : NodeId) (actualCost : Int) (now : DateTime) (fates : List WriteFate)
  | refund (id : Uuid) (now : DateTime) (fates : List WriteFate)
  | cleanup (now : DateTime) (fates : List WriteFate)
  | restart (now : DateTime)

def finish {R : Type} (nodeId : NodeId) (now : DateTime) (world : EscrowWorld) (prog : Prog CreditStore R)
    (fates : List WriteFate) (cost : R → Int) : EscrowWorld :=
  match prog ⟨world.store, fates⟩ with
  | (.done value, after) => ⟨after.store, world.spent + cost value⟩
  | (.crashed, after) => ⟨restart nodeId now after.store, world.spent⟩

def escrowStep (nodeId : NodeId) (world : EscrowWorld) : EscrowOp → EscrowWorld
  | .create requestId amount fromNode id now fates =>
    finish nodeId now world (createEscrow requestId amount fromNode id now) fates fun _ => 0
  | .release id toNode actualCost now fates =>
    finish nodeId now world (releaseEscrow id toNode actualCost now) fates releaseCost
  | .refund id now fates => finish nodeId now world (refundEscrow id now) fates fun _ => 0
  | .cleanup now fates => finish nodeId now world (cleanupExpired now) fates fun _ => 0
  | .restart now => ⟨restart nodeId now world.store, world.spent⟩

variable (nodeId : NodeId) (now : DateTime) (record : Option CreditBalance) (tree : Table Uuid EscrowEntry)

def boot :
    EscrowWorld :=
  ⟨restart nodeId now ⟨CreditBalance.zero nodeId now, ∅, record, tree, []⟩, 0⟩

-- A drawn uuid names no escrow held in memory and none that was settled.
def DrawsFresh (world : EscrowWorld) : EscrowOp → Prop
  | .create _ _ _ id _ _ => world.store.entries.lookup id = none ∧ id ∉ world.store.paid
  | _ => True

-- No deduction leaves the signed 64-bit range, and the write that charges a
-- shortfall (the release's second) does not fail.
def DeductionsHold (world : EscrowWorld) : EscrowOp → Prop
  | .create _ amount _ _ _ _ => 0 < amount → i64Min ≤ world.store.balance.balance - amount
  | .release id _ actualCost _ fates =>
    ∀ entry, world.store.entries.lookup id = some entry → entry.amount < max actualCost 0 →
      i64Min ≤ world.store.balance.balance + (entry.amount - max actualCost 0) ∧ ∀ error, fates.tail.headD .lands ≠ .fails error
  | _ => True

theorem finish_keeps {R : Type} (nodeId : NodeId) (bound : Int) (now : DateTime) (world : EscrowWorld)
    (prog : Prog CreditStore R) (fates : List WriteFate) (cost : R → Int)
    (meets : prog.wp (fun value after => EscrowInv nodeId (bound - world.spent - cost value) after.store)
      (CreditStore.OnDisk nodeId (bound - world.spent)) ⟨world.store, fates⟩) :
    EscrowInv nodeId (bound - (finish nodeId now world prog fates cost).spent)
      (finish nodeId now world prog fates cost).store := by
  rw [wp] at meets
  rw [finish]
  cases result : prog ⟨world.store, fates⟩ with
  | mk outcome after =>
    rw [result] at meets
    cases outcome with
    | done value =>
      simp only at meets ⊢
      rw [show bound - (world.spent + cost value) = bound - world.spent - cost value by omega]
      exact meets
    | crashed => exact restart_keeps now meets

theorem escrow_step_keeps {nodeId : NodeId} {bound : Int} {world : EscrowWorld} {op : EscrowOp}
    (inv : EscrowInv nodeId (bound - world.spent) world.store) (fresh : DrawsFresh world op) (safe : DeductionsHold world op) :
    EscrowInv nodeId (bound - (escrowStep nodeId world op).spent) (escrowStep nodeId world op).store := by
  cases op with
  | create requestId amount fromNode id now fates =>
    apply finish_keeps
    simp only [Int.sub_zero]
    exact wp_create inv safe fresh.1 fresh.2
  | release id toNode actualCost now fates =>
    apply finish_keeps
    exact wp_release inv safe
  | refund id now fates =>
    apply finish_keeps
    simp only [Int.sub_zero]
    exact wp_refund inv
  | cleanup now fates =>
    apply finish_keeps
    simp only [Int.sub_zero]
    exact wp_cleanup inv
  | restart now => exact restart_keeps now (disk_of_inv inv)

theorem boot_inv (range : ∀ bal, record = some bal → IsI64 bal.balance) (stored : StoredWell tree) :
    EscrowInv nodeId ((boot nodeId now record tree).store.balance.balance +
      pendingTotal (boot nodeId now record tree).store.entries) (boot nodeId now record tree).store := by
  apply restart_keeps
  refine ⟨?_, stored, ?_, by simp, List.nodup_nil⟩
  · cases record with
    | none => exact (by decide : IsI64 0)
    | some bal =>
      simp only [restoreBalance]
      split
      · simpa only [backfill_balance] using range bal rfl
      · exact (by decide : IsI64 0)
  · simp only [boot, restart]
    rw [load_pending_total stored, restore_balance_clock nodeId now 0 record]

theorem escrow_never_mints
    (ops : List EscrowOp) (range : ∀ bal, record = some bal → IsI64 bal.balance) (stored : StoredWell tree)
    (fresh : RunMeets (escrowStep nodeId) DrawsFresh (boot nodeId now record tree) ops)
    (safe : RunMeets (escrowStep nodeId) DeductionsHold (boot nodeId now record tree) ops) :
    (run (escrowStep nodeId) (boot nodeId now record tree) ops).store.balance.balance +
        pendingTotal (run (escrowStep nodeId) (boot nodeId now record tree) ops).store.entries ≤
      (boot nodeId now record tree).store.balance.balance + pendingTotal (boot nodeId now record tree).store.entries -
        (run (escrowStep nodeId) (boot nodeId now record tree) ops).spent ∧
    (run (escrowStep nodeId) (boot nodeId now record tree) ops).store.paid.Nodup := by
  have start := boot_inv nodeId now record tree range stored
  have kept := run_invariant (fun world op => DrawsFresh world op ∧ DeductionsHold world op)
    (fun world => EscrowInv nodeId ((boot nodeId now record tree).store.balance.balance +
      pendingTotal (boot nodeId now record tree).store.entries - world.spent) world.store)
    (fun world op inv meets => escrow_step_keeps inv meets.1 meets.2)
    (boot nodeId now record tree) ops (by simpa [boot] using start) (run_meets_and _ _ _ fresh safe)
  exact ⟨kept.capped, kept.once⟩

def sampleNode : NodeId := NodeId.ofByte 1

def sampleRecord : CreditBalance := ⟨sampleNode, 100, 100, 0, 0, 0⟩

def shortfallOps (fates : List WriteFate) : List EscrowOp :=
  [.create (Uuid.ofByte 3) 10 sampleNode (Uuid.ofByte 2) 0 [], .release (Uuid.ofByte 2) (NodeId.ofByte 4) 30 0 fates]

theorem escrow_never_mints_sample :
    (run (escrowStep sampleNode) (boot sampleNode 0 (some sampleRecord) ∅) (shortfallOps [.lands, .lands])).store.balance.balance +
        pendingTotal (run (escrowStep sampleNode) (boot sampleNode 0 (some sampleRecord) ∅)
          (shortfallOps [.lands, .lands])).store.entries ≤
      (boot sampleNode 0 (some sampleRecord) ∅).store.balance.balance +
          pendingTotal (boot sampleNode 0 (some sampleRecord) ∅).store.entries -
        (run (escrowStep sampleNode) (boot sampleNode 0 (some sampleRecord) ∅) (shortfallOps [.lands, .lands])).spent ∧
    (run (escrowStep sampleNode) (boot sampleNode 0 (some sampleRecord) ∅) (shortfallOps [.lands, .lands])).store.paid.Nodup :=
  escrow_never_mints sampleNode 0 (some sampleRecord) ∅ (shortfallOps [.lands, .lands])
    (by rintro bal ⟨rfl⟩; decide) (by intro id entry found; cases found)
    (by exact ⟨⟨by decide, by decide⟩, trivial, trivial⟩)
    (by
      refine ⟨fun _ => by decide, ?_, trivial⟩
      intro entry found short
      refine ⟨?_, fun error => by simp⟩
      cases found
      decide)

-- The release reports 30 as paid although the charge beyond the reservation was
-- never applied.
theorem shortfall_charge_lost :
    let start := boot sampleNode 0 (some sampleRecord) ∅
    let world := run (escrowStep sampleNode) start (shortfallOps [.lands, .fails "disk full"])
    start.store.balance.balance + pendingTotal start.store.entries - world.spent <
      world.store.balance.balance + pendingTotal world.store.entries := by
  decide +kernel

end SwarmLlm.Credit
