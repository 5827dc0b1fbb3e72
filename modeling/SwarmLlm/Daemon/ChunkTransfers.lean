import Mathlib.Data.List.Forall2
import SwarmLlm.Daemon.ChunkAssembly
import SwarmLlm.Lib.Run
import SwarmLlm.Network.Encrypted

namespace SwarmLlm.Daemon

open Lib Network List LayerForward ChunkAssemblyState

-- A forward as a sender splits it: only its frames carry chunk numbers.
structure Transfer where
  sender : Bytes
  forward : LayerForward
  chunkSize : Nat
  whole : forward.chunkMeta = none

namespace Transfer

def frames (transfer : Transfer) : List LayerForward := chunkLayerForward transfer.forward transfer.chunkSize

def key (transfer : Transfer) : Bytes × Uuid := (transfer.sender, transfer.forward.requestId)

def arrived (transfer : Transfer) : LayerForward := { transfer.forward with senderPeerBytes := some transfer.sender }

end Transfer

-- The transfer a sender makes for a request now, and how many of its frames came.
structure Lane where
  number : Nat
  delivered : Nat

abbrev Lanes := Table (Bytes × Uuid) Lane

structure ChunkWorld where
  pending : PendingChunks
  lanes : Lanes
  begun : List Transfer
  returned : List LayerForward

open ChunkWorld

-- A transfer that begins ends the one its sender made for the request before it:
-- what of it has not come is lost.
inductive ChunkEvent where
  | begins (transfer : Transfer)
  | arrives (sender : Bytes) (requestId : Uuid) (now : Nat)
  | sweeps (ttlSecs now : Nat)

namespace ChunkWorld

def start : ChunkWorld := ⟨∅, ∅, [], []⟩

variable (world : ChunkWorld)

def upcoming (key : Bytes × Uuid) : Option (Lane × Transfer × LayerForward) := do
  let lane ← world.lanes.lookup key
  let transfer ← world.begun[lane.number]?
  let frame ← transfer.frames[lane.delivered]?
  return (lane, transfer, frame)

def receive (key : Bytes × Uuid) (now : Nat) (lane : Lane) (frame : LayerForward) : ChunkWorld :=
  let outcome := tryAssembleChunkedForward world.pending frame key.1 now
  { world with
    pending := outcome.2
    lanes := world.lanes.insert key ⟨lane.number, lane.delivered + 1⟩
    returned := world.returned ++ (outcome.1.toOption.bind id).toList }

def step : ChunkEvent → ChunkWorld
  | .begins transfer =>
    { world with
      lanes := world.lanes.insert transfer.key ⟨world.begun.length, 0⟩
      begun := world.begun ++ [transfer] }
  | .arrives sender requestId now =>
    match world.upcoming (sender, requestId) with
    | none => world
    | some (lane, _, frame) => world.receive (sender, requestId) now lane frame
  | .sweeps ttlSecs now => { world with pending := sweepStaleChunkAssemblies world.pending ttlSecs now }

end ChunkWorld

theorem chunk_slices (data : Bytes) (size count : Nat) :
    ((List.range count).map fun idx => (data.drop (idx * size)).take size).flatten = data.take (count * size) := by
  induction count with
  | zero => simp
  | succ count ih =>
    rw [range_succ, map_append, flatten_append, ih, Nat.succ_mul, take_add]
    simp

variable {pending : PendingChunks} {sender : Bytes} {chunk : ChunkMeta} {state : ChunkAssemblyState} {now idx : Nat}

theorem chunk_frame_activations {forward : LayerForward} {size total : Nat} :
    (chunkFrame forward size total idx).activations = (forward.activations.drop (idx * size)).take size := by
  change (forward.activations.drop (idx * size)).take (min ((idx + 1) * size) forward.activations.length - idx * size) = _
  rw [take_eq_take_iff, length_drop, Nat.succ_mul]
  omega

theorem chunk_count_covers {total size : Nat} (positive : 0 < size) (few : chunkCount total size < u32Max) :
    total ≤ chunkCount total size * size := by
  have exact : chunkCount total size = (total + size - 1) / size := by
    rw [chunkCount] at few ⊢
    omega
  have rest := Nat.mod_lt (total + size - 1) positive
  have split := Nat.div_add_mod (total + size - 1) size
  rw [exact, mul_comm]
  omega

structure SplitFrame (transfer : Transfer) (idx : Nat) (frame : LayerForward) (chunk : ChunkMeta) : Prop where
  idx : chunk.chunkIdx.toNat = idx
  total : chunk.totalChunks.toNat = transfer.frames.length
  request : frame.requestId = transfer.forward.requestId
  same : ({ frame with activations := [], chunkMeta := none } : LayerForward) = { transfer.forward with activations := [] }
  joins : chunk.totalChunks ≤ maxTotalChunks → (transfer.frames.map activations).flatten = transfer.forward.activations

variable {transfer : Transfer} {frame : LayerForward}

theorem split_frame (listed : transfer.frames[idx]? = some frame)
    (carried : frame.chunkMeta = some chunk) : SplitFrame transfer idx frame chunk := by
  have positive : 0 < max transfer.chunkSize 1 := Nat.le_max_right _ _
  have framed : transfer.frames = chunkLayerForward transfer.forward transfer.chunkSize := rfl
  rw [chunkLayerForward] at framed
  by_cases small : transfer.forward.activations.length ≤ max transfer.chunkSize 1
  · rw [if_pos small] at framed
    rw [framed, getElem?_singleton] at listed
    split at listed
    · cases listed
      rw [transfer.whole] at carried
      cases carried
    · cases listed
  rw [if_neg small] at framed
  have length : transfer.frames.length = chunkCount transfer.forward.activations.length (max transfer.chunkSize 1) := by
    rw [framed, length_map, length_range]
  have capped : transfer.frames.length ≤ u32Max := length ▸ min_le_right _ _
  have inside := (List.getElem?_eq_some_iff.mp listed).1
  rw [framed, List.getElem?_map, List.getElem?_range (length ▸ inside), Option.map_some] at listed
  cases listed
  cases carried
  have total : (UInt32.ofNat (chunkCount transfer.forward.activations.length (max transfer.chunkSize 1))).toNat =
      transfer.frames.length := by
    rw [← length, UInt32.toNat_ofNat']
    exact Nat.mod_eq_of_lt (lt_of_le_of_lt capped (by decide))
  refine ⟨?_, total, rfl, ?_, ?_⟩
  · rw [UInt32.toNat_ofNat']
    exact Nat.mod_eq_of_lt (lt_of_lt_of_le inside (le_trans capped (by decide)))
  · change ({ transfer.forward with activations := [], chunkMeta := none } : LayerForward) = _
    rw [← transfer.whole]
  intro few
  have under : transfer.frames.length ≤ 4096 := total ▸ UInt32.le_iff_toNat_le.mp few
  rw [framed, map_map]
  have slices : (activations ∘ chunkFrame transfer.forward (max transfer.chunkSize 1)
      (chunkCount transfer.forward.activations.length (max transfer.chunkSize 1))) =
      fun idx => (transfer.forward.activations.drop (idx * max transfer.chunkSize 1)).take (max transfer.chunkSize 1) :=
    funext fun idx => chunk_frame_activations
  rw [slices, chunk_slices]
  refine take_of_length_le (chunk_count_covers positive ?_)
  rw [← length]
  exact lt_of_le_of_lt under (by decide)

structure PartOf (transfer : Transfer) (state : ChunkAssemblyState) : Prop where
  template : state.template = { transfer.forward with activations := [] }
  sender : state.senderPeerBytes = transfer.sender
  total : state.totalChunks.toNat = transfer.frames.length
  joins : (transfer.frames.map activations).flatten = transfer.forward.activations
  slots : ∀ (idx : Nat) (chunk : Bytes), state.received[idx]? = some (some chunk) →
    (transfer.frames.map activations)[idx]? = some chunk

theorem slot_after_fill {other : Nat} {data chunk : Bytes} (empty : state.received[idx]? = some none)
    (slot : (state.fill idx now data empty).received[other]? = some (some chunk)) :
    other = idx ∧ chunk = data ∨ state.received[other]? = some (some chunk) := by
  change (state.received.set idx (some data))[other]? = some (some chunk) at slot
  by_cases same : idx = other
  · subst same
    rw [List.getElem?_set_self (List.getElem?_eq_some_iff.mp empty).1] at slot
    cases slot
    exact Or.inl ⟨rfl, rfl⟩
  · rw [getElem?_set_ne same] at slot
    exact Or.inr slot

theorem new_slot {total : UInt32} {template : LayerForward} {chunk : Bytes} :
    (new total template sender now).received[idx]? ≠ some (some chunk) := by
  intro slot
  change (List.replicate total.toNat none)[idx]? = some (some chunk) at slot
  rw [getElem?_replicate] at slot
  split at slot <;> cases slot

theorem listed_activations (listed : transfer.frames[idx]? = some frame) :
    (transfer.frames.map activations)[idx]? = some frame.activations := by
  rw [getElem?_map, listed]
  rfl

theorem opened_part (valid : ¬chunk.invalid = true)
    (listed : transfer.frames[idx]? = some frame) (carried : frame.chunkMeta = some chunk)
    (few : chunk.totalChunks ≤ maxTotalChunks) : PartOf transfer (.opened chunk frame transfer.sender now valid) := by
  have split := split_frame listed carried
  refine ⟨split.same, rfl, split.total, split.joins few, ?_⟩
  intro other data slot
  rcases slot_after_fill _ slot with ⟨rfl, rfl⟩ | earlier
  · rw [split.idx]
    exact listed_activations listed
  · exact absurd earlier new_slot

theorem fill_part (empty : state.received[idx]? = some none)
    (part : PartOf transfer state) (listed : transfer.frames[idx]? = some frame) :
    PartOf transfer (state.fill idx now frame.activations empty) := by
  refine { part with slots := ?_ }
  intro other data slot
  rcases slot_after_fill _ slot with ⟨rfl, rfl⟩ | earlier
  · exact listed_activations listed
  · exact part.slots other data earlier

variable {state : ChunkAssemblyState}

theorem complete_slots (complete : state.isComplete = true) : ∀ slot ∈ state.received, slot.isSome = true := by
  have count : state.received.countP Option.isSome = state.received.length := by
    rw [← state.counted, state.sized]
    exact of_decide_eq_true complete
  exact countP_eq_length.mp count

theorem complete_received (part : PartOf transfer state) (complete : state.isComplete = true) :
    state.received = (transfer.frames.map activations).map some := by
  refine ext_getElem? fun idx => ?_
  cases slot : state.received[idx]? with
  | none =>
    have outside := getElem?_eq_none_iff.mp slot
    rw [state.sized, part.total] at outside
    symm
    rw [getElem?_eq_none_iff, length_map, length_map]
    exact outside
  | some content =>
    obtain ⟨chunk, rfl⟩ := Option.isSome_iff_exists.mp (complete_slots complete content (mem_of_getElem? slot))
    rw [getElem?_map, part.slots idx chunk slot]
    rfl

theorem complete_part (part : PartOf transfer state) (complete : state.isComplete = true) :
    state.complete = transfer.arrived := by
  have assembled : state.assemble = transfer.forward.activations := by
    rw [assemble, complete_received part complete, filterMap_map]
    simpa using part.joins
  rw [ChunkAssemblyState.complete, part.template, part.sender, assembled]
  rfl

-- The assembly a chunk was filed in: one it opened, or one with its slot empty.
inductive Filed (pending : PendingChunks) (chunk : ChunkMeta) (frame : LayerForward) (sender : Bytes) (now : Nat) :
    ChunkAssemblyState → Prop where
  | opened (valid : ¬chunk.invalid = true) (absent : pending.lookup frame.requestId = none) :
      Filed pending chunk frame sender now (.opened chunk frame sender now valid)
  | filled (state : ChunkAssemblyState) (empty : state.received[chunk.chunkIdx.toNat]? = some none)
      (held : pending.lookup frame.requestId = some state) (total : state.totalChunks = chunk.totalChunks)
      (sent : state.senderPeerBytes = sender) :
      Filed pending chunk frame sender now (state.fill chunk.chunkIdx.toNat now frame.activations empty)

theorem file_chunk_ok (valid : ¬chunk.invalid = true)
    (ok : fileChunk pending chunk frame sender now valid = .ok state) : Filed pending chunk frame sender now state := by
  rw [fileChunk] at ok
  split at ok
  · rename_i old held
    rw [file] at ok
    split at ok
    · cases ok
    rename_i total
    split at ok
    · cases ok
    rename_i sent
    split at ok
    · rename_i empty
      cases ok
      exact .filled old empty held (Decidable.not_not.mp total) (Decidable.not_not.mp sent)
    · cases ok
  · rename_i absent
    cases ok
    exact .opened valid absent

theorem assemble_cases : (∃ error, tryAssembleChunkedForward pending frame sender now = (.error error, pending)) ∨
      ∃ chunk state, frame.chunkMeta = some chunk ∧ chunk.totalChunks ≤ maxTotalChunks ∧
        Filed pending chunk frame sender now state ∧ tryAssembleChunkedForward pending frame sender now =
          if state.isComplete then (.ok (some state.complete), (pending.insert frame.requestId state).erase frame.requestId)
          else (.ok none, pending.insert frame.requestId state) := by
  rw [tryAssembleChunkedForward]
  cases frame.chunkMeta with
  | none => exact Or.inl ⟨_, rfl⟩
  | some chunk =>
    simp only
    by_cases invalid : chunk.invalid = true
    · rw [dif_pos invalid]
      exact Or.inl ⟨_, rfl⟩
    rw [dif_neg invalid]
    by_cases many : maxTotalChunks < chunk.totalChunks
    · rw [if_pos many]
      exact Or.inl ⟨_, rfl⟩
    · rw [if_neg many]
      cases filed : fileChunk pending chunk frame sender now invalid with
      | error error => exact Or.inl ⟨_, rfl⟩
      | ok state =>
        exact Or.inr ⟨chunk, state, rfl, UInt32.not_lt.mp many, file_chunk_ok _ filed, rfl⟩

-- The transfer an assembly is of, against the one its sender makes now: of the
-- current one only frames that came are in it, and no other of as many frames is
-- under way.
structure HeldFor (lanes : Lanes) (begun : List Transfer) (id : Uuid) (state : ChunkAssemblyState) (number : Nat)
    (transfer : Transfer) : Prop where
  started : begun[number]? = some transfer
  request : transfer.forward.requestId = id
  part : PartOf transfer state
  came : ∀ lane, lanes.lookup transfer.key = some lane → lane.number = number →
    ∀ (idx : Nat) (chunk : Bytes), state.received[idx]? = some (some chunk) → idx < lane.delivered
  current : ∀ lane other, lanes.lookup transfer.key = some lane → 0 < lane.delivered →
    begun[lane.number]? = some other → other.frames.length = state.totalChunks.toNat → lane.number = number

structure Delivers (lanes : Lanes) (begun : List Transfer) (id : Nat) (result : LayerForward) : Prop where
  whole : ∃ transfer, begun[id]? = some transfer ∧ result = transfer.arrived
  finished : ∀ key lane transfer, lanes.lookup key = some lane → lane.number = id → begun[id]? = some transfer →
    transfer.frames.length ≤ lane.delivered

def Lanes.Named (lanes : Lanes) (begun : List Transfer) : Prop :=
  ∀ key lane, lanes.lookup key = some lane → ∃ transfer, begun[lane.number]? = some transfer ∧ transfer.key = key

structure Assembling (world : ChunkWorld) : Prop where
  named : world.lanes.Named world.begun
  held : ∀ id state, world.pending.lookup id = some state →
    ∃ number transfer, HeldFor world.lanes world.begun id state number transfer
  returned : ∃ ids : List Nat, ids.Nodup ∧ List.Forall₂ (Delivers world.lanes world.begun) ids world.returned

-- The first frame of a transfer finds no assembly of as many chunks left of an
-- earlier transfer of its sender for its request.
def ChunkWorld.clearFor (world : ChunkWorld) : ChunkEvent → Bool
  | .arrives sender requestId _ =>
    match world.upcoming (sender, requestId), world.pending.lookup requestId with
    | some (lane, transfer, _), some state =>
      decide (0 < lane.delivered) || state.senderPeerBytes != sender ||
        state.totalChunks.toNat != transfer.frames.length
    | _, _ => true
  | _ => true

variable {world : ChunkWorld}

theorem upcoming_some {key : Bytes × Uuid} {lane : Lane} (next : world.upcoming key = some (lane, transfer, frame)) :
    world.lanes.lookup key = some lane ∧ world.begun[lane.number]? = some transfer ∧
      transfer.frames[lane.delivered]? = some frame := by
  simp only [upcoming, Option.bind_eq_bind, Option.bind_eq_some_iff, Option.pure_def, Option.some.injEq, Prod.mk.injEq] at next
  obtain ⟨_, laneAt, _, begun, _, listed, rfl, rfl, rfl⟩ := next
  exact ⟨laneAt, begun, listed⟩

theorem begins_assembling (inv : Assembling world) : Assembling (world.step (.begins transfer)) := by
  have kept : ∀ (number : Nat) (other : Transfer), world.begun[number]? = some other →
      (world.begun ++ [transfer])[number]? = some other := by
    intro number other begun
    rw [List.getElem?_append_left (List.getElem?_eq_some_iff.mp begun).1]
    exact begun
  have known : ∀ (number : Nat) (earlier other : Transfer), world.begun[number]? = some earlier →
      (world.begun ++ [transfer])[number]? = some other → world.begun[number]? = some other := by
    intro number earlier other begun after
    rwa [List.getElem?_append_left (List.getElem?_eq_some_iff.mp begun).1] at after
  have fresh : ∀ (number : Nat) (other : Transfer), world.begun[number]? = some other → world.begun.length ≠ number := by
    intro number other begun same
    exact lt_irrefl _ (same ▸ (List.getElem?_eq_some_iff.mp begun).1)
  refine ⟨Table.forall_insert (fun key lane found => ?_) ⟨transfer, getElem?_concat_length, rfl⟩, ?_, ?_⟩
  · obtain ⟨other, begun, its⟩ := inv.named key lane found
    exact ⟨other, kept _ _ begun, its⟩
  · intro id state pending
    obtain ⟨number, other, held⟩ := inv.held id state pending
    refine ⟨number, other, kept _ _ held.started, held.request, held.part, ?_, ?_⟩
    · intro lane found same
      rcases Table.lookup_insert_some found with ⟨_, rfl⟩ | found
      · exact absurd same (fresh number other held.started)
      · exact held.came lane found same
    intro lane next found some begun
    rcases Table.lookup_insert_some found with ⟨_, rfl⟩ | found
    · exact absurd some (lt_irrefl 0)
    · obtain ⟨earlier, before, _⟩ := inv.named _ lane found
      exact held.current lane next found some (known _ earlier next before begun)
  obtain ⟨ids, distinct, delivers⟩ := inv.returned
  refine ⟨ids, distinct, delivers.imp fun id result delivered => ?_⟩
  obtain ⟨other, begun, same⟩ := delivered.whole
  refine ⟨⟨other, kept _ _ begun, same⟩, ?_⟩
  intro key lane its found number after
  rcases Table.lookup_insert_some found with ⟨_, rfl⟩ | found
  · exact absurd number (fresh id other begun)
  · exact delivered.finished key lane its found number (known id other its begun after)

theorem sweeps_assembling {ttlSecs : Nat} (inv : Assembling world) : Assembling (world.step (.sweeps ttlSecs now)) := by
  refine ⟨inv.named, ?_, inv.returned⟩
  intro id state pending
  change (world.pending.retain _).lookup id = some state at pending
  rw [Table.lookup_retain] at pending
  exact inv.held id state (Option.filter_eq_some_iff.mp pending).1

structure Arriving (world : ChunkWorld) (lane : Lane) (transfer : Transfer) (frame : LayerForward) : Prop where
  way : world.lanes.lookup transfer.key = some lane
  begun : world.begun[lane.number]? = some transfer
  listed : transfer.frames[lane.delivered]? = some frame
  clear : ∀ state, world.pending.lookup transfer.forward.requestId = some state → state.senderPeerBytes = transfer.sender →
    state.totalChunks.toNat = transfer.frames.length → 0 < lane.delivered

section Arrival

variable (world : ChunkWorld) (lane : Lane) (transfer : Transfer) {frame : LayerForward}

def ChunkWorld.moveOn : Lanes := world.lanes.insert transfer.key ⟨lane.number, lane.delivered + 1⟩

variable {world} {lane} {transfer} (inv : Assembling world) (arriving : Arriving world lane transfer frame)

include inv arriving

theorem move_on_named : (world.moveOn lane transfer).Named world.begun :=
  Table.forall_insert inv.named ⟨transfer, arriving.begun, rfl⟩

theorem move_on_held (id : Uuid) (state : ChunkAssemblyState) (pending : world.pending.lookup id = some state) :
    ∃ number its, HeldFor (world.moveOn lane transfer) world.begun id state number its := by
  obtain ⟨number, its, held⟩ := inv.held id state pending
  refine ⟨number, its, held.started, held.request, held.part, ?_, ?_⟩
  · intro other found same idx chunk slot
    rcases Table.lookup_insert_some found with ⟨key, rfl⟩ | found
    · exact Nat.lt_succ_of_lt (held.came lane (key ▸ arriving.way) same idx chunk slot)
    · exact held.came other found same idx chunk slot
  intro other next found some begun total
  rcases Table.lookup_insert_some found with ⟨key, rfl⟩ | found
  · cases arriving.begun.symm.trans begun
    obtain ⟨sender, request⟩ := Prod.mk.inj key
    have going := arriving.clear state (by rw [← request, held.request]; exact pending)
      (held.part.sender.trans sender) total.symm
    exact held.current lane transfer (key ▸ arriving.way) going begun total
  · exact held.current other next found some begun total

omit inv in
theorem move_on_delivers (id : Nat) (result : LayerForward) (delivered : Delivers world.lanes world.begun id result) :
    Delivers (world.moveOn lane transfer) world.begun id result := by
  refine ⟨delivered.whole, ?_⟩
  intro key other its found same begun
  rcases Table.lookup_insert_some found with ⟨rfl, rfl⟩ | found
  · exact Nat.le_succ_of_le (delivered.finished transfer.key lane its arriving.way same begun)
  · exact delivered.finished key other its found same begun

theorem filed_held (carried : frame.chunkMeta = some chunk)
    (few : chunk.totalChunks ≤ maxTotalChunks) (filed : Filed world.pending chunk frame transfer.sender now state) :
    HeldFor (world.moveOn lane transfer) world.begun transfer.forward.requestId state lane.number transfer := by
  have split := split_frame arriving.listed carried
  have moved : ∀ other, (world.moveOn lane transfer).lookup transfer.key = some other →
      other = ⟨lane.number, lane.delivered + 1⟩ := by
    intro other found
    exact Option.some.inj (found.symm.trans (AList.lookup_insert _))
  have current : ∀ other next, (world.moveOn lane transfer).lookup transfer.key = some other → 0 < other.delivered →
      world.begun[other.number]? = some next → next.frames.length = state.totalChunks.toNat →
      other.number = lane.number := by
    intro other next found _ _ _
    rw [moved other found]
  cases filed with
  | opened valid absent =>
    refine ⟨arriving.begun, rfl, opened_part valid arriving.listed carried few, ?_, current⟩
    intro other found _ idx data slot
    rw [moved other found]
    rcases slot_after_fill _ slot with ⟨rfl, _⟩ | earlier
    · exact Nat.lt_succ_of_le (le_of_eq split.idx)
    · exact absurd earlier new_slot
  | filled old empty held total sent =>
    rw [split.request] at held
    obtain ⟨number, its, owner⟩ := inv.held _ old held
    have size : old.totalChunks.toNat = transfer.frames.length := by rw [total, split.total]
    have key : its.key = transfer.key := Prod.ext (owner.part.sender.symm.trans sent) owner.request
    have same : lane.number = number :=
      owner.current lane transfer (key ▸ arriving.way) (arriving.clear old held sent size) arriving.begun size.symm
    subst same
    cases arriving.begun.symm.trans owner.started
    have listed : transfer.frames[chunk.chunkIdx.toNat]? = some frame := split.idx.symm ▸ arriving.listed
    refine ⟨arriving.begun, rfl, fill_part empty owner.part listed, ?_, current⟩
    intro other found _ idx data slot
    rw [moved other found]
    rcases slot_after_fill _ slot with ⟨rfl, _⟩ | earlier
    · exact Nat.lt_succ_of_le (le_of_eq split.idx)
    · exact Nat.lt_succ_of_lt (owner.came lane arriving.way rfl idx data earlier)

omit inv arriving in
theorem complete_finished {lanes : Lanes} {begun : List Transfer} {id : Uuid} {number : Nat}
    (held : HeldFor lanes begun id state number transfer) (found : lanes.lookup transfer.key = some lane)
    (same : lane.number = number) (complete : state.isComplete = true) : transfer.frames.length ≤ lane.delivered := by
  by_contra short
  have received := complete_received held.part complete
  have inside : lane.delivered < (transfer.frames.map activations).length := by
    rw [length_map]
    exact Nat.lt_of_not_le short
  have slot : state.received[lane.delivered]? = some (some (transfer.frames.map activations)[lane.delivered]) := by
    rw [received, getElem?_map, getElem?_eq_getElem inside]
    rfl
  exact lt_irrefl _ (held.came lane found same _ _ slot)

theorem completed_delivers (complete : state.isComplete = true)
    (held : HeldFor (world.moveOn lane transfer) world.begun transfer.forward.requestId state lane.number transfer) :
    Delivers (world.moveOn lane transfer) world.begun lane.number state.complete := by
  refine ⟨⟨transfer, arriving.begun, complete_part held.part complete⟩, ?_⟩
  intro key other its found same begun
  cases arriving.begun.symm.trans begun
  obtain ⟨named, known, keyed⟩ := move_on_named inv arriving key other found
  rw [same] at known
  cases arriving.begun.symm.trans known
  exact complete_finished held (keyed ▸ found) same complete

omit inv in
theorem arriving_fresh {ids : List Nat} (delivers : List.Forall₂ (Delivers world.lanes world.begun) ids world.returned) :
    lane.number ∉ ids := by
  intro member
  obtain ⟨idx, inside, same⟩ := getElem_of_mem member
  have returned := List.forall₂_iff_get.mp delivers
  have delivered := returned.2 idx inside (returned.1 ▸ inside)
  rw [get_eq_getElem, same] at delivered
  have past := delivered.finished transfer.key lane transfer arriving.way rfl arriving.begun
  exact absurd (List.getElem?_eq_some_iff.mp arriving.listed).1 (not_lt.mpr past)

theorem receive_assembling : Assembling (world.receive transfer.key now lane frame) := by
  obtain ⟨ids, distinct, before⟩ := inv.returned
  have delivers : List.Forall₂ (Delivers (world.moveOn lane transfer) world.begun) ids world.returned :=
    before.imp (move_on_delivers arriving)
  have named := move_on_named inv arriving
  have moved := move_on_held inv arriving
  have sender : transfer.key.1 = transfer.sender := rfl
  rw [receive, sender]
  rcases assemble_cases with
    ⟨error, refused⟩ | ⟨chunk, state, carried, few, filed, outcome⟩
  · rw [refused]
    exact ⟨named, moved, ids, distinct, (append_nil world.returned).symm ▸ delivers⟩
  have held := filed_held inv arriving carried few filed
  rw [outcome, (split_frame arriving.listed carried).request]
  by_cases complete : state.isComplete = true
  · rw [if_pos complete]
    have last := completed_delivers inv arriving complete held
    refine ⟨named, ?_, ids ++ [lane.number], ?_, rel_append delivers (.cons last .nil)⟩
    · intro id other pending
      obtain ⟨apart, pending⟩ := Table.lookup_erase_some pending
      exact moved id other (AList.lookup_insert_ne apart ▸ pending)
    · have fresh := arriving_fresh arriving before
      exact nodup_last distinct fresh
  rw [if_neg complete]
  refine ⟨named, ?_, ids, distinct, (append_nil world.returned).symm ▸ delivers⟩
  exact Table.forall_insert moved ⟨lane.number, transfer, held⟩

end Arrival

theorem step_assembling {event : ChunkEvent} (inv : Assembling world) (clear : world.clearFor event = true) :
    Assembling (world.step event) := by
  cases event with
  | begins transfer => exact begins_assembling inv
  | sweeps ttlSecs now => exact sweeps_assembling inv
  | arrives sender requestId now =>
    rw [step]
    cases next : world.upcoming (sender, requestId) with
    | none => exact inv
    | some found =>
      obtain ⟨lane, transfer, frame⟩ := found
      obtain ⟨way, begun, listed⟩ := upcoming_some next
      obtain ⟨its, known, keyed⟩ := inv.named _ lane way
      cases begun.symm.trans known
      simp only
      rw [← keyed] at way ⊢
      refine receive_assembling inv ⟨way, begun, listed, ?_⟩
      intro state pending sent total
      obtain ⟨rfl, rfl⟩ := Prod.mk.inj keyed
      simpa [clearFor, next, pending, sent, total] using clear

theorem start_assembling : Assembling .start := by
  refine ⟨?_, ?_, [], .nil, .nil⟩
  · intro key lane found
    have missing : (∅ : Lanes).lookup key = none := AList.lookup_empty key
    cases missing.symm.trans found
  · intro id state pending
    have missing : (∅ : PendingChunks).lookup id = none := AList.lookup_empty id
    cases missing.symm.trans pending

theorem assembled_is_one_forward (events : List ChunkEvent)
    (clear : RunMeets step (fun world event => world.clearFor event = true) .start events) :
    ∃ ids : List Nat, ids.Nodup ∧ List.Forall₂
      (fun id result => ∃ transfer, (run step .start events).begun[id]? = some transfer ∧ result = transfer.arrived)
      ids (run step .start events).returned := by
  have inv := run_invariant (fun world event => world.clearFor event = true) Assembling
    (fun world event inv ok => step_assembling inv ok) .start events start_assembling clear
  obtain ⟨ids, distinct, delivers⟩ := inv.returned
  exact ⟨ids, distinct, delivers.imp fun _ _ delivered => delivered.whole⟩

def sampleTransfer (sender request fill : UInt8) : Transfer where
  sender := [sender]
  forward := { start (.ofByte request) 5 11 .fp32 "m" (4, 12) with activations := List.replicate 5 fill }
  chunkSize := 2
  whole := rfl

-- Two senders' transfers interleave; a third one breaks off, is swept, and its
-- sender's next forward of the request comes whole.
def clearRun : List ChunkEvent :=
  [.begins (sampleTransfer 1 7 10), .begins (sampleTransfer 2 8 20), .arrives [1] (.ofByte 7) 0, .arrives [2] (.ofByte 8) 0,
    .arrives [1] (.ofByte 7) 0, .arrives [1] (.ofByte 7) 0, .arrives [2] (.ofByte 8) 0, .begins (sampleTransfer 1 7 30),
    .arrives [1] (.ofByte 7) 0, .sweeps 1 3000000000, .begins (sampleTransfer 1 7 40), .arrives [1] (.ofByte 7) 3000000000,
    .arrives [1] (.ofByte 7) 3000000000, .arrives [1] (.ofByte 7) 3000000000]

theorem assembled_is_one_forward_sample :
    (∃ ids : List Nat, ids.Nodup ∧ List.Forall₂
      (fun id result => ∃ transfer, (run step .start clearRun).begun[id]? = some transfer ∧ result = transfer.arrived)
      ids (run step .start clearRun).returned) ∧
      (run step .start clearRun).returned = [(sampleTransfer 1 7 10).arrived, (sampleTransfer 1 7 40).arrived] :=
  ⟨assembled_is_one_forward clearRun (by decide +kernel), by decide +kernel⟩

-- The first transfer breaks off after one chunk. The first chunk of the sender's
-- next forward is refused as a duplicate, and the others are filed beside the
-- chunk left from the first.
def brokenRun : List ChunkEvent :=
  [.begins (sampleTransfer 1 7 10), .arrives [1] (.ofByte 7) 0, .begins (sampleTransfer 1 7 20), .arrives [1] (.ofByte 7) 0,
    .arrives [1] (.ofByte 7) 0, .arrives [1] (.ofByte 7) 0]

theorem broken_transfer_is_mixed :
    ¬∃ ids : List Nat, ids.Nodup ∧ List.Forall₂
      (fun id result => ∃ transfer, (run step .start brokenRun).begun[id]? = some transfer ∧ result = transfer.arrived)
      ids (run step .start brokenRun).returned := by
  rintro ⟨ids, _, delivers⟩
  have mixed : (run step .start brokenRun).returned.map activations = [[10, 10, 20, 20, 20]] := by
    decide +kernel
  have whole : ∀ transfer ∈ (run step .start brokenRun).begun, transfer.arrived.activations ≠ [10, 10, 20, 20, 20] := by
    decide +kernel
  obtain ⟨result, single, its⟩ := map_eq_singleton_iff.mp mixed
  rw [single] at delivers
  cases delivers with
  | cons delivered _ =>
    obtain ⟨transfer, begun, rfl⟩ := delivered
    exact whole transfer (mem_of_getElem? begun) its

end SwarmLlm.Daemon
