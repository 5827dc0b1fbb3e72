import SwarmLlm.Daemon.WaitAnswers

namespace SwarmLlm.Daemon

open Lib List PendingLayerResult WaitOp Option LayerResult NodeId

variable {P : Type}

def Shrinks (store later : Waits) : Prop :=
  ∀ key wait, later.table.lookup key = some wait → store.table.lookup key = some wait

theorem shrinks_refl (store : Waits) : Shrinks store store := fun _ _ found => found

theorem shrinks_trans (first second : Waits) {third : Waits} (one : Shrinks first second) (two : Shrinks second third) :
    Shrinks first third := fun key wait found => one key wait (two key wait found)

theorem shrinks_none {store later : Waits} {key : WaiterKey} (shrinks : Shrinks store later) (absent : store.table.lookup key = none) :
    later.table.lookup key = none := by
  cases there : later.table.lookup key with
  | none => rfl
  | some wait =>
    rw [shrinks key wait there] at absent
    cases absent

def Targets (node : NodeId) (wait : PendingLayerResult) : Prop := wait.awaiting = some node ∨ node ∈ wait.chainMembers

def Formed (store : Waits) : Prop := ∀ key wait, store.table.lookup key = some wait → WellFormed key wait

variable {calls : List (WaitCall P)} (given : Delivery P) {reason : String} {store : Waits} {wait : PendingLayerResult}

theorem formed_shrinks {later : Waits} (shrinks : Shrinks store later) (formed : Formed store) : Formed later :=
  fun key wait found => formed key wait (shrinks key wait found)

variable {key : WaiterKey} {node : NodeId}

theorem target_sender (formed : WellFormed key wait) :
    wait.awaiting.isSome = true ∧ wait.admitsSender (some node) = true ↔ Targets node wait := by
  constructor
  · rintro ⟨pinned, admitted⟩
    obtain ⟨expected, awaits⟩ := isSome_iff_exists.mp pinned
    unfold admitsSender at admitted
    rw [awaits] at admitted
    dsimp only at admitted
    rcases Bool.or_eq_true_iff.mp admitted with same | member
    · left
      rw [awaits, beq_iff_eq.mp same]
    · exact .inr (contains_iff_mem.mp member)
  intro targets
  have pinned : wait.awaiting.isSome = true := by
    rcases targets with awaits | member
    · rw [awaits]
      rfl
    · exact formed.chained (ne_nil_of_mem member)
  refine ⟨pinned, ?_⟩
  obtain ⟨expected, awaits⟩ := isSome_iff_exists.mp pinned
  unfold admitsSender
  rw [awaits]
  dsimp only
  rcases targets with same | member
  · rw [awaits] at same
    rw [Option.some.inj same, beq_self_eq_true, Bool.true_or]
  · rw [contains_iff_mem.mpr member, Bool.or_true]

theorem failure_step_plain (plain : key.streamSeq = none) : failureStep key wait = none := by
  rw [failureStep, plain]
  rfl

theorem failure_step_streamed (formed : WellFormed key wait) {seq : Nat} (streamed : key.streamSeq = some seq) :
    ∃ step, failureStep key wait = some step ∧ step.streamSeq = some seq ∧ wait.admitsStep (some step) = true := by
  obtain ⟨expected, expects, ranged⟩ := formed.stepped (by rw [streamed]; rfl)
  cases ranges : expected.layerRanges with
  | nil => exact absurd ranges ranged
  | cons range hops =>
    refine ⟨⟨expected.indexPos, range, some seq⟩, ?_, rfl, ?_⟩
    · rw [failureStep, streamed, expects]
      dsimp only [bind_some]
      rw [ranges]
      rfl
    · unfold admitsStep
      rw [expects]
      dsimp only [ExpectedStep.admits]
      rw [ranges, beq_self_eq_true, Bool.true_and]
      exact contains_iff_mem.mpr mem_cons_self

theorem failure_key (formed : WellFormed key wait) :
    WaiterKey.ofResult { (error key.requestId reason : LayerResult P) with answersStep := failureStep key wait } =
      key := by
  obtain ⟨requestId, streamSeq⟩ := key
  cases streamSeq with
  | none => rfl
  | some seq =>
    obtain ⟨step, named, numbered, -⟩ := failure_step_streamed formed rfl
    rw [WaiterKey.ofResult, named]
    dsimp only [bind_some, error]
    rw [numbered]

theorem target_accepts (formed : WellFormed key wait) (targets : Targets node wait) :
    wait.accepts (some node) (failureStep key wait) = true := by
  have sender := ((target_sender formed).mpr targets).2
  rw [accepts, sender, Bool.and_true]
  cases streamed : key.streamSeq with
  | none =>
    rw [failure_step_plain streamed]
    unfold admitsStep
    cases wait.expectsStep <;> rfl
  | some seq =>
    obtain ⟨step, named, -, admitted⟩ := failure_step_streamed formed streamed
    rw [named]
    exact admitted

variable (sharding : Sharding) {shard : Nat} {table : Table WaiterKey PendingLayerResult}

theorem mem_awaiting (item : WaiterKey × Option ResultStep) : item ∈ awaitingNode sharding shard node table ↔
      ∃ wait, table.lookup item.1 = some wait ∧ sharding.shardOf item.1 = shard ∧ wait.awaiting.isSome = true ∧
        wait.accepts (some node) none = true ∧ item.2 = failureStep item.1 wait := by
  obtain ⟨key, step⟩ := item
  unfold awaitingNode
  rw [List.mem_map]
  constructor
  · rintro ⟨⟨other, wait⟩, kept, same⟩
    cases same
    have found := AList.mem_lookup_iff.mpr kept
    rw [Table.lookup_retain] at found
    obtain ⟨present, filtered⟩ := filter_eq_some_iff.mp found
    rw [Bool.and_eq_true, Bool.and_eq_true, decide_eq_true_eq] at filtered
    exact ⟨wait, present, filtered.1.1, filtered.1.2, filtered.2, rfl⟩
  rintro ⟨wait, present, inShard, pinned, accepts, named⟩
  refine ⟨⟨key, wait⟩, ?_, ?_⟩
  · apply AList.mem_lookup_iff.mp
    rw [Table.lookup_retain]
    apply filter_eq_some_iff.mpr
    rw [Bool.and_eq_true, Bool.and_eq_true, decide_eq_true_eq]
    exact ⟨present, ⟨inShard, pinned⟩, accepts⟩
  · rw [← named]

theorem streamed_waits_streamed {sharding : Sharding} {requestId : Uuid} {sender : Option NodeId}
    (listed : key ∈ streamedWaits sharding shard requestId sender table) : key.streamSeq.isSome = true := by
  unfold streamedWaits at listed
  obtain ⟨wait, found⟩ := isSome_iff_exists.mp (AList.lookup_isSome.mpr listed)
  rw [Table.lookup_retain] at found
  obtain ⟨-, filtered⟩ := filter_eq_some_iff.mp found
  rw [Bool.and_eq_true, Bool.and_eq_true] at filtered
  exact filtered.1.2

theorem oldest_mem {keys : List WaiterKey} (oldest : oldestOf keys = some key) : key ∈ keys := by
  induction keys with
  | nil => cases oldest
  | cons head rest ih =>
    unfold oldestOf at oldest
    split at oldest
    · cases oldest
      exact mem_cons_self
    rename_i other later
    split at oldest
    · cases oldest
      exact mem_cons_of_mem _ (ih later)
    · cases oldest
      exact mem_cons_self

def Sweeps (node : NodeId) : (op : WaitOp P) → op.Reply → Prop
  | .removeIf _ _ _, some wait => Targets node wait
  | .removeIf _ _ _, none => True
  | .insert _ _ _, _ => False
  | .remove _, _ => False
  | .len, _ => True
  | .containsKey _, _ => True
  | .streamedIn _ _ _, _ => True
  | .awaitingIn _ _, _ => True

variable {store : Waits}

section Sweep

variable (sharding : Sharding) (node : NodeId)

def Sweeping {R : Type} (post : R → Waits → Prop) (routine : WaitThread P R) (store : Waits) : Prop :=
  routine.Withstands (handler sharding) Shrinks (Sweeps node) post store

variable {reason : String} {store : Waits}

theorem shrinks_erase : Shrinks store ⟨store.table.erase key, store.issued⟩ :=
  fun _ _ found => (Table.lookup_erase_some found).2

theorem take_sweeps {result : LayerResult P}
    (targeted : ∀ wait, store.table.lookup key = some wait → wait.accepts (some node) result.answersStep = true → Targets node wait) :
    Sweeping sharding node (fun _ later => Shrinks store later ∧
        ∀ wait, later.table.lookup key = some wait → wait.accepts (some node) result.answersStep = false)
      (takeAccepted key (some node) result) store := by
  intro later moved fates reply after ran
  unfold handler at ran
  dsimp only at ran
  cases found : later.table.lookup key with
  | none =>
    rw [found] at ran
    cases ran
    refine ⟨trivial, fun last further => ⟨shrinks_trans _ _ moved further, ?_⟩⟩
    intro wait there
    rw [further key wait there] at found
    cases found
  | some pending =>
    rw [found] at ran
    dsimp only at ran
    by_cases accepted : pending.accepts (some node) result.answersStep = true
    · rw [if_pos accepted] at ran
      cases ran
      refine ⟨targeted pending (moved key pending found) accepted, fun last further => ⟨?_, ?_⟩⟩
      · exact shrinks_trans _ _ (shrinks_trans _ _ moved shrinks_erase) further
      · intro wait there
        have gone := further key wait there
        rw [Table.lookup_erase_if, if_pos rfl] at gone
        cases gone
    rw [if_neg accepted] at ran
    cases ran
    refine ⟨trivial, fun last further => ⟨shrinks_trans _ _ moved further, ?_⟩⟩
    intro wait there
    have same := further key wait there
    rw [found] at same
    cases same
    exact Bool.not_eq_true _ ▸ accepted

def Pends (store : Waits) (item : WaiterKey × Option ResultStep) : Prop :=
  ∃ noted, WellFormed item.1 noted ∧ Targets node noted ∧ item.2 = failureStep item.1 noted ∧
    ∀ wait, store.table.lookup item.1 = some wait → wait = noted

variable {item : WaiterKey × Option ResultStep}

theorem pends_shrinks {later : Waits} (shrinks : Shrinks store later)
    (pends : Pends node store item) : Pends node later item := by
  obtain ⟨noted, formed, targets, named, only⟩ := pends
  exact ⟨noted, formed, targets, named, fun wait found => only wait (shrinks _ wait found)⟩

theorem streamed_targeted {answers : Option ResultStep}
    (formed : Formed store) (streamed : key.streamSeq.isSome = true) (found : store.table.lookup key = some wait)
    (accepted : wait.accepts (some node) answers = true) : Targets node wait := by
  have shape := formed key wait found
  exact (target_sender shape).mp ⟨shape.pinned streamed, (Bool.and_eq_true_iff.mp accepted).2⟩

theorem oldest_sweeps {requestId : Uuid} : Sweeping (P := P) sharding node
      (fun oldest later => Shrinks store later ∧ ∀ key, oldest = some key → key.streamSeq.isSome = true)
      (oldestStreamedWait sharding requestId (some node)) store := by
  apply @withstands_bind _ _ _ _ _ (handler sharding) Shrinks (Sweeps node) shrinks_refl
    (fun keys later => Shrinks store later ∧ ∀ key ∈ keys, key.streamSeq.isSome = true)
  · have scan := @withstands_gather _ _ _ _ (handler (P := P) sharding) Shrinks (Sweeps node) shrinks_refl
      (fun shard => (streamedIn shard requestId (some node)).perform)
      (fun _ keys later => Shrinks store later ∧ ∀ key ∈ keys, key.streamSeq.isSome = true)
      (fun _ _ first second moved known => ⟨shrinks_trans _ _ known.1 moved, known.2⟩)
    apply scan _ sharding.shards [] store ⟨shrinks_refl store, nofun⟩
    intro part rest got current known later moved fates reply after ran
    cases ran
    refine ⟨trivial, fun last further => ⟨shrinks_trans _ _ known.1 (shrinks_trans _ _ moved further), ?_⟩⟩
    intro key listed
    rcases mem_append.mp listed with early | late
    · exact known.2 key early
    · exact streamed_waits_streamed late
  · intro keys current known later moved
    refine ⟨shrinks_trans _ _ known.1 moved, ?_⟩
    intro key oldest
    exact known.2 key (oldest_mem oldest)

theorem resolve_sweeps (formed : Formed store) (pends : Pends node store item) :
    Sweeping sharding node (fun _ later => Shrinks store later ∧ later.table.lookup item.1 = none)
      (resolvePendingLayerResult sharding (some node)
        { (error item.1.requestId reason : LayerResult P) with answersStep := item.2 }) store := by
  obtain ⟨noted, shape, targets, named, only⟩ := pends
  have finds : WaiterKey.ofResult
      { (error item.1.requestId reason : LayerResult P) with answersStep := item.2 } = item.1 := by
    rw [named]
    exact failure_key shape
  have takes : ∀ current, Shrinks store current → Sweeping sharding node
      (fun _ later => Shrinks store later ∧ later.table.lookup item.1 = none)
      (takeAccepted item.1 (some node)
        { (error item.1.requestId reason : LayerResult P) with answersStep := item.2 }) current := by
    intro current shrunk
    apply withstands_mono _ _ _ _ current _ (take_sweeps sharding node _)
    · rintro _ later ⟨fewer, refused⟩
      refine ⟨shrinks_trans _ _ shrunk fewer, ?_⟩
      cases there : later.table.lookup item.1 with
      | none => rfl
      | some wait =>
        have rejected := refused wait there
        dsimp only at rejected
        rw [only wait (shrunk _ _ (fewer _ _ there)), named, target_accepts shape targets] at rejected
        cases rejected
    · intro wait found _
      rw [only wait (shrunk _ _ found)]
      exact targets
  unfold resolvePendingLayerResult
  rw [finds]
  split
  · intro later moved fates present after ran
    cases ran
    refine ⟨trivial, ?_⟩
    change Sweeping sharding node _ (if (later.table.lookup item.1).isSome = true then _ else _ : WaitThread P Bool) later
    split
    · exact takes later moved
    rename_i absent
    have gone : later.table.lookup item.1 = none := not_isSome_iff_eq_none.mp absent
    apply withstands_bind Shrinks (Sweeps node) shrinks_refl _ _ _ _ later
      (oldest_sweeps sharding node)
    rintro oldest current ⟨fewer, streamed⟩
    have still := shrinks_none fewer gone
    apply withstands_mono _ _ _ _ current _ (take_sweeps sharding node _)
    · rintro _ last ⟨further, -⟩
      exact ⟨shrinks_trans _ _ moved (shrinks_trans _ _ fewer further), shrinks_none further still⟩
    intro wait found accepted
    cases oldest with
    | none =>
      rw [getD_none, still] at found
      cases found
    | some key =>
      exact streamed_targeted node (formed_shrinks (shrinks_trans _ _ moved fewer) formed) (streamed key rfl) found accepted
  · exact takes store (shrinks_refl store)

-- Every wait of the node is noted down, or in a part of the map still to be read.
structure Noting (left : List Nat) (noted : List (WaiterKey × Option ResultStep)) (store : Waits) : Prop where
  formed : Formed store
  pending : ∀ item ∈ noted, Pends node store item
  covered : ∀ key wait, store.table.lookup key = some wait → Targets node wait →
    sharding.shardOf key ∈ left ∨ key ∈ noted.map Prod.fst

variable {sharding} {node}

theorem noting_shrinks (left : List Nat) (noted : List (WaiterKey × Option ResultStep)) (store later : Waits)
    (shrinks : Shrinks store later) (noting : Noting sharding node left noted store) : Noting sharding node left noted later where
  formed := formed_shrinks shrinks noting.formed
  pending := fun item listed => pends_shrinks node shrinks (noting.pending item listed)
  covered := fun key wait found => noting.covered key wait (shrinks key wait found)

variable {noted : List (WaiterKey × Option ResultStep)}

theorem read_noting {left : List Nat} (noting : Noting sharding node (shard :: left) noted store) :
    Noting sharding node left (noted ++ awaitingNode sharding shard node store.table) store where
  formed := noting.formed
  pending := by
    intro item listed
    rcases mem_append.mp listed with early | late
    · exact noting.pending item early
    obtain ⟨wait, found, -, pinned, accepted, named⟩ := (mem_awaiting sharding item).mp late
    have shape := noting.formed item.1 wait found
    have targets := (target_sender shape).mp ⟨pinned, (Bool.and_eq_true_iff.mp accepted).2⟩
    refine ⟨wait, shape, targets, named, ?_⟩
    intro other again
    rw [found] at again
    exact (Option.some.inj again).symm
  covered := by
    intro key wait found targets
    rw [map_append, mem_append]
    rcases noting.covered key wait found targets with unread | before
    · rcases mem_cons.mp unread with here | behind
      · obtain ⟨pinned, admitted⟩ := (target_sender (noting.formed key wait found)).mpr targets
        have accepted : wait.accepts (some node) none = true := by
          unfold accepts admitsStep
          rw [admitted, Bool.and_true]
          cases wait.expectsStep <;> rfl
        have listed := (mem_awaiting sharding (key, failureStep key wait)).mpr
          ⟨wait, found, here, pinned, accepted, rfl⟩
        exact .inr (.inr (mem_map_of_mem listed))
      · exact .inl behind
    · exact .inr (.inl before)

theorem note_sweeps (formed : Formed store) :
    Sweeping (P := P) sharding node (fun noted later => Noting sharding node [] noted later)
      (gather (fun shard => (awaitingIn shard node).perform) sharding.shards) store := by
  have scan := @withstands_gather _ _ _ _ (handler (P := P) sharding) Shrinks (Sweeps node) shrinks_refl
    (fun shard => (awaitingIn shard node).perform) (Noting sharding node) (@noting_shrinks sharding node)
  apply scan _ sharding.shards [] store
  · exact ⟨formed, nofun, fun key _ _ _ => .inl (sharding.covers key)⟩
  · intro shard left noted current noting later moved fates reply after ran
    cases ran
    refine ⟨trivial, fun last further => ?_⟩
    apply noting_shrinks left _ later last further
    exact read_noting (noting_shrinks _ noted current later moved noting)

theorem fail_each_sweeps (failed : List Uuid) (noting : Noting sharding node [] noted store) :
    Sweeping (P := P) sharding node (fun _ later => ∀ key wait, later.table.lookup key = some wait → ¬ Targets node wait)
      (failEach sharding node reason noted failed) store := by
  induction noted generalizing failed store with
  | nil =>
    intro later moved key wait found targets
    rcases noting.covered key wait (moved key wait found) targets with unread | unnoted
    · cases unread
    · cases unnoted
  | cons item rest ih =>
    apply withstands_bind Shrinks (Sweeps node) shrinks_refl _ _ _ _ store
      (resolve_sweeps sharding node noting.formed (noting.pending item mem_cons_self))
    rintro resolved current ⟨fewer, gone⟩
    have kept := noting_shrinks [] _ store current fewer noting
    apply ih
    refine ⟨kept.formed, fun other listed => kept.pending other (mem_cons_of_mem _ listed), ?_⟩
    intro key wait found targets
    rcases kept.covered key wait found targets with unread | listed
    · exact .inl unread
    · rw [map_cons, mem_cons] at listed
      rcases listed with same | behind
      · rw [same, gone] at found
        cases found
      · exact .inr behind

theorem sweep_sweeps (formed : Formed store) :
    Sweeping (P := P) sharding node (fun _ later => ∀ key wait, later.table.lookup key = some wait → ¬ Targets node wait)
      ((WaitCall.failAwaiting node reason).code sharding) store := by
  apply withstands_bind Shrinks (Sweeps node) shrinks_refl
    (fun _ later => ∀ key wait, later.table.lookup key = some wait → ¬ Targets node wait)
  · apply withstands_bind Shrinks (Sweeps node) shrinks_refl _ _ _ _ store (note_sweeps formed)
    intro noted current noting
    exact fail_each_sweeps [] noting
  · intro requests current none later moved key wait found
    exact none key wait (moved key wait found)

end Sweep

def Ends : WaitEvent P → WaiterKey → PendingLayerResult → Prop
  | ⟨_, .removeIf taken _ _, some ended⟩, key, wait => taken = key ∧ ended = wait
  | ⟨_, .remove taken, _⟩, key, _ => taken = key
  | _, _, _ => False

theorem erase_ends {taken : WaiterKey} (found : store.table.lookup key = some wait) :
    (store.table.erase taken).lookup key = some wait ∨ taken = key := by
  by_cases same : key = taken
  · exact .inr same.symm
  · left
    rw [Table.lookup_erase_if, if_neg same]
    exact found

theorem handler_quiet (op : WaitOp P) (thread : Nat) {fates : List WriteFate}
    (reply : op.Reply) {after : Machine Waits} (quiet : registration ⟨thread, op, reply⟩ = none)
    (ran : handler sharding op ⟨store, fates⟩ = (.done reply, after)) :
    Shrinks store after.store ∧ ∀ key wait, store.table.lookup key = some wait →
      after.store.table.lookup key = some wait ∨ Ends ⟨thread, op, reply⟩ key wait := by
  cases op with
  | len | containsKey | streamedIn | awaitingIn =>
    cases ran
    exact ⟨shrinks_refl store, fun _ _ found => .inl found⟩
  | insert key pin expects => cases quiet
  | removeIf taken sender result =>
    unfold handler at ran
    dsimp only at ran
    split at ran
    · cases ran
      exact ⟨shrinks_refl store, fun _ _ found => .inl found⟩
    rename_i pending there
    split at ran
    · cases ran
      refine ⟨shrinks_erase, ?_⟩
      intro key wait found
      rcases erase_ends found with still | same
      · exact .inl still
      · right
        rw [same] at there
        exact ⟨same, Option.some.inj (there.symm.trans found)⟩
    · cases ran
      exact ⟨shrinks_refl store, fun _ _ found => .inl found⟩
  | remove taken =>
    cases ran
    exact ⟨shrinks_erase, fun key wait found => erase_ends found⟩

variable {turns : List Turn} {thread : Nat}

-- With nothing registered, every step of every thread leaves fewer waits, and a wait
-- goes only with an event that ended it.
theorem run_quiet (world : WaitWorld P) (added : List (WaitEvent P))
    (grown : (run (World.step (handler sharding)) world turns).trace = world.trace ++ added)
    (quiet : registered added = []) :
    RunMeets (World.step (handler sharding))
      (fun world turn => turn.thread ≠ thread → Shrinks world.store (world.step (handler sharding) turn).store) world turns ∧
    ∀ key wait, world.store.table.lookup key = some wait →
      (run (World.step (handler sharding)) world turns).store.table.lookup key = some wait ∨
        ∃ event ∈ added, Ends event key wait := by
  induction turns generalizing world added with
  | nil => exact ⟨trivial, fun _ _ found => .inl found⟩
  | cons turn rest ih =>
    rw [run_cons] at grown ⊢
    rcases step_cases world turn with idle | ⟨op, next, reply, after, _, ran, stepped⟩
    · rw [idle] at grown
      obtain ⟨meets, ended⟩ := ih world added grown quiet
      refine ⟨⟨?_, ?_⟩, ?_⟩
      · intro _
        rw [idle]
        exact shrinks_refl _
      · rw [idle]
        exact meets
      · rw [idle]
        exact ended
    have stored : (world.step (handler sharding) turn).store = after.store := by rw [stepped]
    have traced : (world.step (handler sharding) turn).trace = world.trace ++ [⟨turn.thread, op, reply⟩] := by
      rw [stepped]
    obtain ⟨later, grownLater⟩ := run_trace (handler sharding) (world.step (handler sharding) turn) rest
    have split : added = ⟨turn.thread, op, reply⟩ :: later := by
      rw [grownLater, traced, append_assoc] at grown
      exact (append_cancel_left grown).symm
    rw [split, registered, filterMap_cons] at quiet
    cases first : registration ⟨turn.thread, op, reply⟩ with
    | some entry =>
      rw [first] at quiet
      cases quiet
    | none =>
      rw [first] at quiet
      obtain ⟨shrinks, goes⟩ := handler_quiet sharding op turn.thread reply first ran
      obtain ⟨meets, ended⟩ := ih _ later grownLater quiet
      refine ⟨⟨?_, meets⟩, ?_⟩
      · intro _
        rw [stored]
        exact shrinks
      intro key wait found
      rw [split]
      rcases goes key wait found with still | here
      · rw [← stored] at still
        rcases ended key wait still with kept | ⟨event, listed, ends⟩
        · exact .inl kept
        · exact .inr ⟨event, mem_cons_of_mem _ listed, ends⟩
      · exact .inr ⟨_, mem_cons_self, here⟩

def waitRun (calls : List (WaitCall P)) (turns : List Turn) : WaitWorld P :=
  run (World.step (handler sharding)) (World.start Waits.none (calls.map (WaitCall.code sharding))) turns

theorem run_kept (calls : List (WaitCall P)) (turns : List Turn) :
    Kept (waitRun sharding calls turns).store (waitRun sharding calls turns).trace := by
  obtain ⟨owns, -, kept⟩ := run_abides (fun store trace (_ : List Unit) => Kept store trace) (fun _ _ => True)
    (fun world turn owns own op reply after kept _ _ _ allowed ran =>
      ⟨trivial, handler_kept kept allowed ran⟩)
    (World.start Waits.none (calls.map (WaitCall.code sharding))) turns (calls.map fun _ => ())
    (start_abides Anywhere Waits.none calls (fun _ => ()) code_follows)
    none_kept (run_meets_of _ _ _ (fun _ _ _ => trivial))
  exact kept

theorem run_formed : Formed (waitRun sharding calls turns).store := by
  intro key wait found
  have kept := run_kept sharding calls turns
  exact kept.formed (key, wait) (kept.listed key wait found)

section

variable (accepts : given.wait.accepts given.sender given.result.answersStep = true)

include accepts

theorem delivered_sender (node : NodeId)
    (pinned : given.wait.awaiting = some node) :
    ∃ sender, given.sender = some sender ∧ (sender = node ∨ sender ∈ given.wait.chainMembers) := by
  have admits := (Bool.and_eq_true_iff.mp accepts).2
  unfold admitsSender at admits
  rw [pinned] at admits
  cases from_ : given.sender with
  | none =>
    rw [from_] at admits
    cases admits
  | some sender =>
    rw [from_] at admits
    rcases Bool.or_eq_true_iff.mp admits with same | member
    · exact ⟨sender, rfl, .inl (beq_iff_eq.mp same).symm⟩
    · exact ⟨sender, rfl, .inr (contains_iff_mem.mp member)⟩

theorem delivered_step (step : ResultStep)
    (expected : ExpectedStep) (named : given.result.answersStep = some step) (expects : given.wait.expectsStep = some expected) :
    step.indexPos = expected.indexPos ∧ step.layerRange ∈ expected.layerRanges := by
  have admits := (Bool.and_eq_true_iff.mp accepts).1
  unfold admitsStep at admits
  rw [named, expects] at admits
  obtain ⟨position, ranged⟩ := Bool.and_eq_true_iff.mp admits
  exact ⟨beq_iff_eq.mp position, contains_iff_mem.mp ranged⟩

structure Answers (given : Delivery P) : Prop where
  sender : ∀ node, given.wait.awaiting = some node →
    ∃ sender, given.sender = some sender ∧ (sender = node ∨ sender ∈ given.wait.chainMembers)
  numbered : ∀ step, given.result.answersStep = some step →
    given.key.requestId = given.result.requestId ∧ given.key.streamSeq = step.streamSeq
  admitted : ∀ step expected, given.result.answersStep = some step → given.wait.expectsStep = some expected →
    step.indexPos = expected.indexPos ∧ step.layerRange ∈ expected.layerRanges
  streamed : given.key.streamSeq.isSome = true → given.wait.awaiting.isSome = true ∧ given.wait.expectsStep.isSome = true

end

theorem run_answers {sharding : Sharding} {given : Delivery P}
    (listed : given ∈ delivered (waitRun sharding calls turns).trace) : Answers given := by
  have kept := run_kept sharding calls turns
  obtain ⟨known, accepts, named⟩ := kept.accepted given listed
  have formed := kept.formed (given.key, given.wait) known
  refine ⟨delivered_sender given accepts, ?_, delivered_step given accepts, ?_⟩
  · intro step names
    have key := named (by rw [names]; rfl)
    rw [key, WaiterKey.ofResult, names]
    exact ⟨rfl, rfl⟩
  · intro streamed
    obtain ⟨expected, expects, -⟩ := formed.stepped streamed
    exact ⟨formed.pinned streamed, by rw [expects]; rfl⟩

theorem sweep_leaves {sharding : Sharding} {before during : List Turn} {outcome : WaitOutcome} {added : List (WaitEvent P)}
    (starts : (waitRun sharding calls before).threads[thread]? = some ((WaitCall.failAwaiting node reason).code sharding))
    (returns : (waitRun sharding calls (before ++ during)).threads[thread]? = some (.done outcome))
    (grown : (waitRun sharding calls (before ++ during)).trace = (waitRun sharding calls before).trace ++ added)
    (quiet : registered added = []) :
    (∀ key wait, (waitRun sharding calls (before ++ during)).store.table.lookup key = some wait → ¬ Targets node wait) ∧
    ∀ key wait, (waitRun sharding calls before).store.table.lookup key = some wait → ¬ Targets node wait →
      (waitRun sharding calls (before ++ during)).store.table.lookup key = some wait ∨
        ∃ event ∈ added, event.thread ≠ thread ∧ Ends event key wait := by
  have joined : waitRun sharding calls (before ++ during) =
      run (World.step (handler sharding)) (waitRun sharding calls before) during := run_append
  rw [joined] at returns grown ⊢
  obtain ⟨others, ended⟩ := run_quiet sharding (waitRun sharding calls before) added grown quiet
  obtain ⟨later, mine, laterAt, withstands, grownMine, each⟩ :=
    run_withstands Shrinks (Sweeps node) shrinks_refl shrinks_trans _ thread (waitRun sharding calls before) _ starts
      (sweep_sweeps (run_formed sharding)) others
  have same : mine = added := append_cancel_left (grownMine.symm.trans grown)
  constructor
  · rw [returns] at laterAt
    cases laterAt
    exact withstands _ (shrinks_refl _)
  intro key wait found untargeted
  rcases ended key wait found with still | ⟨event, listed, ends⟩
  · exact .inl still
  refine .inr ⟨event, listed, ?_, ends⟩
  intro own
  rw [← same] at listed
  have kind := each event listed own
  obtain ⟨_, op, reply⟩ := event
  cases op with
  | removeIf taken sender result =>
    cases reply with
    | none => exact ends
    | some ended => exact untargeted (ends.2 ▸ kind)
  | remove taken => exact kind
  | len | insert | containsKey | streamedIn | awaitingIn => exact ends

theorem waits_answered (calls : List (WaitCall P)) (turns : List Turn) :
    ((registered (waitRun sharding calls turns).trace).map fun entry => entry.2.tx).Nodup ∧
    ((delivered (waitRun sharding calls turns).trace).map fun given => given.wait.tx).Nodup ∧
    (∀ given ∈ delivered (waitRun sharding calls turns).trace,
      (given.key, given.wait) ∈ registered (waitRun sharding calls turns).trace ∧ Answers given) ∧
    ∀ before during thread node reason outcome added, turns = before ++ during →
      (waitRun sharding calls before).threads[thread]? = some ((WaitCall.failAwaiting node reason).code sharding) →
      (waitRun sharding calls turns).threads[thread]? = some (.done outcome) →
      (waitRun sharding calls turns).trace = (waitRun sharding calls before).trace ++ added → registered added = [] →
        (∀ key wait, (waitRun sharding calls turns).store.table.lookup key = some wait → ¬ Targets node wait) ∧
        ∀ key wait, (waitRun sharding calls before).store.table.lookup key = some wait → ¬ Targets node wait →
          (waitRun sharding calls turns).store.table.lookup key = some wait ∨
            ∃ event ∈ added, event.thread ≠ thread ∧ Ends event key wait := by
  have kept := run_kept sharding calls turns
  refine ⟨kept.distinct, kept.single, ?_, ?_⟩
  · intro given listed
    exact ⟨(kept.accepted given listed).1, run_answers listed⟩
  · intro before during thread node reason outcome added split starts returns grown quiet
    subst split
    exact sweep_leaves starts returns grown quiet

def oneShard : Sharding := ⟨[0], fun _ => 0, fun _ => mem_singleton_self 0⟩

def twoWaits : List (WaitCall Unit) :=
  [.register false (Uuid.ofByte 1) (some ⟨ofByte 1, []⟩) none,
   .register false (Uuid.ofByte 2) (some ⟨ofByte 2, []⟩) none,
   .failAwaiting (ofByte 1) "gone"]

theorem waits_answered_two :
    ¬ Targets (ofByte 1) ⟨1, some (ofByte 2), [], none⟩ ∧
    (waitRun oneShard twoWaits [⟨0, none⟩, ⟨1, none⟩, ⟨2, none⟩, ⟨2, none⟩, ⟨2, none⟩]).store.table.lookup (.request (Uuid.ofByte 2)) =
      some ⟨1, some (ofByte 2), [], none⟩ ∧
    ∀ key wait, (waitRun oneShard twoWaits [⟨0, none⟩, ⟨1, none⟩, ⟨2, none⟩, ⟨2, none⟩, ⟨2, none⟩]).store.table.lookup key = some wait →
      ¬ Targets (ofByte 1) wait := by
  obtain ⟨-, -, -, swept⟩ := waits_answered oneShard twoWaits [⟨0, none⟩, ⟨1, none⟩, ⟨2, none⟩, ⟨2, none⟩, ⟨2, none⟩]
  refine ⟨?_, by rfl, ?_⟩
  · rintro (same | member)
    · exact absurd same (by decide)
    · cases member
  · exact (swept [⟨0, none⟩, ⟨1, none⟩] [⟨2, none⟩, ⟨2, none⟩, ⟨2, none⟩] 2 (ofByte 1) "gone" (.failed [Uuid.ofByte 1]) _
      rfl rfl rfl rfl rfl).1

end SwarmLlm.Daemon
