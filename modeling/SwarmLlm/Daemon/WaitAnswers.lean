import SwarmLlm.Daemon.LayerWaits

namespace SwarmLlm.Daemon

open Lib List Routine

variable {P : Type}

abbrev WaitEvent (P : Type) := Event (fun op : WaitOp P => op.Reply)

abbrev WaitWorld (P : Type) := World (fun op : WaitOp P => op.Reply) Waits WaitOutcome

def registration : WaitEvent P → Option (WaiterKey × PendingLayerResult)
  | ⟨_, .insert key pin expects, tx⟩ => some (key, Pin.wait pin expects tx)
  | _ => none

structure Delivery (P : Type) where
  key : WaiterKey
  wait : PendingLayerResult
  sender : Option NodeId
  result : LayerResult P

def delivery : WaitEvent P → Option (Delivery P)
  | ⟨_, .removeIf key sender result, some wait⟩ => some ⟨key, wait, sender, result⟩
  | _ => none

variable (trace : List (WaitEvent P))

def registered : List (WaiterKey × PendingLayerResult) := trace.filterMap registration

def delivered : List (Delivery P) := trace.filterMap delivery

-- A wait as the code registers it: with a chain only when pinned, and a streamed one
-- pinned and with the step it is for.
structure WellFormed (key : WaiterKey) (wait : PendingLayerResult) : Prop where
  chained : wait.chainMembers ≠ [] → wait.awaiting.isSome = true
  pinned : key.streamSeq.isSome = true → wait.awaiting.isSome = true
  stepped : key.streamSeq.isSome = true → ∃ expected, wait.expectsStep = some expected ∧ expected.layerRanges ≠ []

-- What the code asks of the map: a result that names a step only by the key it names.
def waitProtocol : Protocol (fun op : WaitOp P => op.Reply) Unit where
  allowed := fun op _ =>
    match op with
    | .insert key pin expects => ∀ tx, WellFormed key (Pin.wait pin expects tx)
    | .removeIf key _ result => result.answersStep.isSome = true → key = WaiterKey.ofResult result
    | _ => True
  replies := fun _ _ => True
  move := fun _ _ own => own

def Anywhere {R : Type} : R → Unit → Prop := fun _ _ => True

variable {key : WaiterKey} {pin : Option Pin} {expects : Option ExpectedStep}

section Follows

variable {sharding : Sharding}

theorem gather_follows {A : Type} {read : Nat → WaitThread P (List A)} {shards : List Nat}
    (each : ∀ shard, (read shard).Follows waitProtocol Anywhere ()) : (gather read shards).Follows waitProtocol Anywhere () := by
  induction shards with
  | nil => exact trivial
  | cons shard rest ih =>
    apply follows_bind waitProtocol Anywhere (read shard) _ () (each shard)
    intro got own _
    exact follows_bind waitProtocol Anywhere (gather read rest) _ own ih (fun _ _ _ => trivial)

theorem take_follows (key : WaiterKey) (sender : Option NodeId) (result : LayerResult P)
    (named : result.answersStep.isSome = true → key = WaiterKey.ofResult result) :
    (takeAccepted key sender result).Follows waitProtocol Anywhere () := ⟨named, fun _ _ => trivial⟩

theorem resolve_follows {sender : Option NodeId} {result : LayerResult P} :
    (resolvePendingLayerResult sharding sender result).Follows waitProtocol Anywhere () := by
  unfold resolvePendingLayerResult
  split
  · rename_i unnamed
    refine ⟨trivial, fun present _ => ?_⟩
    change (if present = true then _ else _ : WaitThread P Bool).Follows _ _ _
    split
    · exact take_follows _ sender result (fun _ => rfl)
    apply follows_bind waitProtocol Anywhere _ _ ()
    · exact follows_bind waitProtocol Anywhere _ _ () (gather_follows fun _ => ⟨trivial, fun _ _ => trivial⟩)
        (fun _ _ _ => trivial)
    · intro oldest own _
      apply take_follows
      rw [unnamed.1]
      nofun
  · exact take_follows _ sender result (fun _ => rfl)

theorem fail_each_follows {node : NodeId} {reason : String} {waiting : List (WaiterKey × Option ResultStep)} (failed : List Uuid) :
    (failEach (P := P) sharding node reason waiting failed).Follows waitProtocol Anywhere () := by
  induction waiting generalizing failed with
  | nil => exact trivial
  | cons entry rest ih =>
    apply follows_bind waitProtocol Anywhere _ _ () resolve_follows
    intro resolved own _
    exact ih _

theorem register_follows {capped : Bool} (formed : ∀ tx, WellFormed key (Pin.wait pin expects tx)) :
    (register (P := P) capped key pin expects).Follows waitProtocol Anywhere () := by
  apply follows_bind waitProtocol Anywhere (pendingCount capped) _ ()
  · unfold pendingCount
    split
    · exact ⟨trivial, fun _ _ => trivial⟩
    · exact trivial
  · intro count own _
    split
    · exact trivial
    · exact ⟨formed, fun _ _ => trivial⟩

theorem plain_formed {requestId : Uuid} (tx : Nat) : WellFormed (.request requestId) (Pin.wait pin expects tx) where
  chained := by
    intro chained
    cases pin with
    | none => exact absurd rfl chained
    | some pin => rfl
  pinned := nofun
  stepped := nofun

theorem streamed_formed {requestId : Uuid} {seq : Nat} {pin : Pin} {indexPos : Nat} {range : Nat × Nat}
    {hops : List (Nat × Nat)} (tx : Nat) :
    WellFormed (.streamed requestId seq) (Pin.wait (some pin) (some ⟨indexPos, range :: hops⟩) tx) where
  chained := fun _ => rfl
  pinned := fun _ => rfl
  stepped := fun _ => ⟨_, rfl, cons_ne_nil _ _⟩

theorem code_follows (call : WaitCall P) : (call.code sharding).Follows waitProtocol Anywhere () := by
  cases call with
  | register capped requestId pin expects =>
    exact follows_bind waitProtocol Anywhere _ _ () (register_follows plain_formed) (fun _ _ _ => trivial)
  | registerStreamed capped requestId seq pin indexPos range hops =>
    exact follows_bind waitProtocol Anywhere _ _ () (register_follows streamed_formed) (fun _ _ _ => trivial)
  | withdraw key => exact ⟨trivial, fun _ _ => trivial⟩
  | resolve sender result =>
    exact follows_bind waitProtocol Anywhere _ _ () resolve_follows (fun _ _ _ => trivial)
  | failAwaiting node reason =>
    apply follows_bind waitProtocol Anywhere _ _ ()
    · apply follows_bind waitProtocol Anywhere _ _ ()
      · exact gather_follows fun _ => ⟨trivial, fun _ _ => trivial⟩
      · intro waiting own _
        exact fail_each_follows []
    · exact fun _ _ _ => trivial

end Follows

structure Kept (store : Waits) (trace : List (WaitEvent P)) : Prop where
  listed : ∀ key wait, store.table.lookup key = some wait → (key, wait) ∈ registered trace
  unanswered : ∀ key wait, store.table.lookup key = some wait → wait.tx ∉ (delivered trace).map fun given => given.wait.tx
  issued : ∀ entry ∈ registered trace, entry.2.tx < store.issued
  distinct : ((registered trace).map fun entry => entry.2.tx).Nodup
  formed : ∀ entry ∈ registered trace, WellFormed entry.1 entry.2
  single : ((delivered trace).map fun given => given.wait.tx).Nodup
  accepted : ∀ given ∈ delivered trace, (given.key, given.wait) ∈ registered trace ∧
    given.wait.accepts given.sender given.result.answersStep = true ∧
    (given.result.answersStep.isSome = true → given.key = WaiterKey.ofResult given.result)

variable {added : List (WaitEvent P)}

theorem registered_append : registered (trace ++ added) = registered trace ++ registered added := filterMap_append

theorem delivered_append : delivered (trace ++ added) = delivered trace ++ delivered added := filterMap_append

theorem none_kept : Kept Waits.none ([] : List (WaitEvent P)) where
  listed := nofun
  unanswered := nofun
  issued := nofun
  distinct := nodup_nil
  formed := nofun
  single := nodup_nil
  accepted := nofun

theorem shrunk_kept {store : Waits} (after : Waits) {trace : List (WaitEvent P)} {event : WaitEvent P} (kept : Kept store trace)
    (unregistered : registration event = none) (undelivered : delivery event = none) (same : after.issued = store.issued)
    (fewer : ∀ key wait, after.table.lookup key = some wait → store.table.lookup key = some wait) :
    Kept after (trace ++ [event]) := by
  have registrations : registered (trace ++ [event]) = registered trace := by
    rw [registered_append, registered, registered, filterMap_cons_none unregistered, filterMap_nil, append_nil]
  have deliveries : delivered (trace ++ [event]) = delivered trace := by
    rw [delivered_append, delivered, delivered, filterMap_cons_none undelivered, filterMap_nil, append_nil]
  constructor
  · intro key wait found
    rw [registrations]
    exact kept.listed key wait (fewer key wait found)
  · intro key wait found
    rw [deliveries]
    exact kept.unanswered key wait (fewer key wait found)
  · rw [registrations, same]
    exact kept.issued
  · rw [registrations]
    exact kept.distinct
  · rw [registrations]
    exact kept.formed
  · rw [deliveries]
    exact kept.single
  · rw [deliveries, registrations]
    exact kept.accepted

variable {thread : Nat} {store : Waits} {trace : List (WaitEvent P)}

theorem insert_kept (kept : Kept store trace) (formed : ∀ tx, WellFormed key (Pin.wait pin expects tx)) :
    Kept ⟨store.table.insert key (Pin.wait pin expects store.issued), store.issued + 1⟩
      (trace ++ [⟨thread, .insert key pin expects, store.issued⟩]) := by
  have registrations : registered (trace ++ [⟨thread, .insert key pin expects, store.issued⟩]) =
      registered trace ++ [(key, Pin.wait pin expects store.issued)] := registered_append _
  have deliveries : delivered (trace ++ [⟨thread, .insert key pin expects, store.issued⟩]) = delivered trace := by
    rw [delivered_append]
    exact append_nil _
  have fresh : ∀ given ∈ delivered trace, given.wait.tx ≠ store.issued := by
    intro given listed same
    have bound := kept.issued _ (kept.accepted given listed).1
    dsimp only at bound
    omega
  constructor
  · rw [registrations]
    exact Table.forall_insert (fun query wait found => mem_append_left _ (kept.listed query wait found))
      (mem_append_right _ mem_cons_self)
  · rw [deliveries]
    refine Table.forall_insert kept.unanswered fun answered => ?_
    obtain ⟨given, listed, same⟩ := mem_map.mp answered
    exact fresh given listed same
  · rw [registrations]
    exact forall_concat (fun entry early => Nat.lt_succ_of_lt (kept.issued entry early)) (Nat.lt_succ_self _)
  · rw [registrations, map_append]
    refine nodup_last kept.distinct fun early => ?_
    obtain ⟨entry, listed, here⟩ := mem_map.mp early
    exact Nat.lt_irrefl _ (here ▸ kept.issued entry listed)
  · rw [registrations]
    exact forall_concat kept.formed (formed _)
  · rw [deliveries]
    exact kept.single
  · intro given listed
    rw [deliveries] at listed
    rw [registrations]
    obtain ⟨known, rest⟩ := kept.accepted given listed
    exact ⟨mem_append_left _ known, rest⟩

theorem registered_same {first second : WaiterKey × PendingLayerResult}
    (distinct : ((registered trace).map fun entry => entry.2.tx).Nodup) (one : first ∈ registered trace)
    (other : second ∈ registered trace) (same : first.2.tx = second.2.tx) : first = second :=
  inj_on_of_nodup_map distinct one other same

theorem taken_kept {sender : Option NodeId} {result : LayerResult P} {wait : PendingLayerResult}
    (kept : Kept store trace) (named : result.answersStep.isSome = true → key = WaiterKey.ofResult result)
    (found : store.table.lookup key = some wait) (accepts : wait.accepts sender result.answersStep = true) :
    Kept ⟨store.table.erase key, store.issued⟩ (trace ++ [⟨thread, .removeIf key sender result, some wait⟩]) := by
  have registrations : registered (trace ++ [⟨thread, .removeIf key sender result, some wait⟩]) = registered trace := by
    rw [registered_append]
    exact append_nil _
  have deliveries : delivered (trace ++ [⟨thread, .removeIf key sender result, some wait⟩]) =
      delivered trace ++ [⟨key, wait, sender, result⟩] := delivered_append _
  constructor
  · intro query other there
    rw [registrations]
    exact kept.listed query other (Table.lookup_erase_some there).2
  · intro query other there answered
    obtain ⟨apart, before⟩ := Table.lookup_erase_some there
    rw [deliveries, map_append] at answered
    rcases mem_append.mp answered with early | last
    · exact kept.unanswered query other before early
    · rw [map_singleton, mem_singleton] at last
      have same := registered_same kept.distinct (kept.listed _ _ before) (kept.listed _ _ found) last
      exact apart (congrArg Prod.fst same)
  · rw [registrations]
    exact kept.issued
  · rw [registrations]
    exact kept.distinct
  · rw [registrations]
    exact kept.formed
  · rw [deliveries, map_append]
    exact nodup_last kept.single (kept.unanswered key wait found)
  rw [deliveries, registrations]
  exact forall_concat kept.accepted ⟨kept.listed key wait found, accepts, named⟩

theorem handler_kept {sharding : Sharding} {op : WaitOp P} {fates : List WriteFate} {reply : op.Reply}
    {after : Machine Waits} (kept : Kept store trace) (allowed : waitProtocol.allowed op ())
    (ran : WaitOp.handler sharding op ⟨store, fates⟩ = (.done reply, after)) :
    Kept after.store (trace ++ [⟨thread, op, reply⟩]) := by
  cases op with
  | len | containsKey | streamedIn | awaitingIn =>
    cases ran
    exact shrunk_kept store kept rfl rfl rfl (fun _ _ found => found)
  | insert key pin expects =>
    cases ran
    exact insert_kept kept allowed
  | removeIf key sender result =>
    unfold WaitOp.handler at ran
    dsimp only at ran
    split at ran
    · cases ran
      exact shrunk_kept store kept rfl rfl rfl (fun _ _ found => found)
    rename_i wait found
    split at ran
    · rename_i accepts
      cases ran
      exact taken_kept kept allowed found accepts
    · cases ran
      exact shrunk_kept store kept rfl rfl rfl (fun _ _ found => found)
  | remove key =>
    cases ran
    exact shrunk_kept ⟨store.table.erase key, store.issued⟩ kept rfl rfl rfl fun _ _ found => (Table.lookup_erase_some found).2

end SwarmLlm.Daemon
