import Mathlib.Data.Vector.Defs
import SwarmLlm.Types
import SwarmLlm.Lib.Bytes
import SwarmLlm.Lib.Run
import SwarmLlm.Lib.Saturating
import SwarmLlm.Lib.Tally

namespace SwarmLlm.Crypto

open Lib Tally Table
open List hiding Vector

def relayedMaxAgeMs : Nat := 5 * 60 * 1000

def relayedSkewMs : Nat := 60 * 1000

def sweepEveryMs : Nat := 10000

inductive Refused where
  | datedAhead (byMs : Nat)
  | tooOld (byMs : Nat)
  | replay
  | memoryFull
  | originShareFull
  | networkShareFull
  deriving DecidableEq

structure Taken where
  sentAtMs : UInt64
  origin : UInt64
  network : UInt64
  deriving DecidableEq

structure Limits where
  total : Nat
  perOrigin : Nat
  perNetwork : Nat
  deriving DecidableEq

def Limits.default : Limits := ⟨262144, 16384, 32768⟩

abbrev Digest := Vector UInt8 32

structure RelayReplayGuard where
  taken : Table Digest Taken
  perOrigin : Table UInt64 Nat
  perNetwork : Table UInt64 Nat
  sweptAtMs : UInt64
  limits : Limits

def RelayReplayGuard.new (limits : Limits) : RelayReplayGuard := ⟨∅, ∅, ∅, 0, limits⟩

def Taken.keep (nowMs : UInt64) (taken : Taken) : Bool := decide (nowMs.toNat - taken.sentAtMs.toNat ≤ relayedMaxAgeMs)

def RelayReplayGuard.sweep (guard : RelayReplayGuard) (nowMs : UInt64) : RelayReplayGuard :=
  let gone := (values guard.taken).filter fun taken => !taken.keep nowMs
  { guard with
    sweptAtMs := nowMs
    taken := retain (fun _ taken => taken.keep nowMs) guard.taken
    perOrigin := prune ((gone.map (·.origin)).foldl lower guard.perOrigin)
    perNetwork := prune ((gone.map (·.network)).foldl lower guard.perNetwork) }

def RelayReplayGuard.take (guard : RelayReplayGuard) (digest : Digest) (taken : Taken) : RelayReplayGuard :=
  { guard with
    perOrigin := bump guard.perOrigin taken.origin
    perNetwork := bump guard.perNetwork taken.network
    taken := guard.taken.insert digest taken }

-- The first eight bytes of a BLAKE3 hash.
variable (shortKey : Bytes → UInt64)

def RelayReplayGuard.swept (guard : RelayReplayGuard) (nowMs : UInt64) : RelayReplayGuard :=
  if sweepEveryMs ≤ nowMs.toNat - guard.sweptAtMs.toNat then guard.sweep nowMs else guard

def RelayReplayGuard.admitAt (guard : RelayReplayGuard) (origin : NodeId) (network : Bytes) (digest : Digest)
    (sentAtMs nowMs : UInt64) : RelayReplayGuard × Except Refused Unit :=
  if satAddU nowMs.toNat relayedSkewMs < sentAtMs.toNat then (guard, .error (.datedAhead (sentAtMs.toNat - nowMs.toNat)))
  else if relayedMaxAgeMs < nowMs.toNat - sentAtMs.toNat then (guard, .error (.tooOld (nowMs.toNat - sentAtMs.toNat)))
  else if (guard.taken.lookup digest).isSome then (guard, .error .replay)
  else
    let guard := guard.swept nowMs
    if guard.limits.total ≤ guard.taken.entries.length then (guard, .error .memoryFull)
    else
      let origin := shortKey origin.bytes.toList
      let network := shortKey network
      if guard.limits.perOrigin ≤ amount guard.perOrigin origin then (guard, .error .originShareFull)
      else if guard.limits.perNetwork ≤ amount guard.perNetwork network then (guard, .error .networkShareFull)
      else
        (guard.take digest ⟨sentAtMs, origin, network⟩, .ok ())

structure RelayReplayGuard.Exact (guard : RelayReplayGuard) : Prop where
  origins : Tally.Tallies guard.perOrigin ((values guard.taken).map (·.origin))
  networks : Tally.Tallies guard.perNetwork ((values guard.taken).map (·.network))

structure RelayReplayGuard.Bounded (guard : RelayReplayGuard) : Prop where
  total : guard.taken.entries.length ≤ guard.limits.total
  origins : ∀ key, amount guard.perOrigin key ≤ guard.limits.perOrigin
  networks : ∀ key, amount guard.perNetwork key ≤ guard.limits.perNetwork

structure Admits (guard : RelayReplayGuard) (digest : Digest) (taken : Taken) (nowMs : UInt64) : Prop where
  young : nowMs.toNat - taken.sentAtMs.toNat ≤ relayedMaxAgeMs
  fresh : guard.taken.lookup digest = none
  room : (guard.swept nowMs).taken.entries.length < (guard.swept nowMs).limits.total
  originRoom : amount (guard.swept nowMs).perOrigin taken.origin < (guard.swept nowMs).limits.perOrigin
  networkRoom : amount (guard.swept nowMs).perNetwork taken.network < (guard.swept nowMs).limits.perNetwork

variable (limits : Limits) (sentAt : Digest → UInt64) {network : Bytes} {origin : NodeId} {K : Type} {taken : Taken}
  (guard : RelayReplayGuard) (nowMs : UInt64) (digest : Digest)

theorem admit_cases (origin : NodeId) (network : Bytes) (digest : Digest) (sentAtMs nowMs : UInt64) :
    (∃ error, guard.admitAt shortKey origin network digest sentAtMs nowMs = (guard, .error error)) ∨
      (∃ error, guard.admitAt shortKey origin network digest sentAtMs nowMs = (guard.swept nowMs, .error error)) ∨
      ∃ taken : Taken, taken.sentAtMs = sentAtMs ∧ Admits guard digest taken nowMs ∧
        guard.admitAt shortKey origin network digest sentAtMs nowMs = ((guard.swept nowMs).take digest taken, .ok ()) := by
  unfold RelayReplayGuard.admitAt
  by_cases ahead : satAddU nowMs.toNat relayedSkewMs < sentAtMs.toNat
  · exact .inl ⟨_, if_pos ahead⟩
  rw [if_neg ahead]
  by_cases old : relayedMaxAgeMs < nowMs.toNat - sentAtMs.toNat
  · exact .inl ⟨_, if_pos old⟩
  rw [if_neg old]
  by_cases known : (guard.taken.lookup digest).isSome = true
  · exact .inl ⟨_, if_pos known⟩
  rw [if_neg known]
  by_cases full : (guard.swept nowMs).limits.total ≤ (guard.swept nowMs).taken.entries.length
  · exact .inr (.inl ⟨_, if_pos full⟩)
  simp only [if_neg full]
  by_cases originFull : (guard.swept nowMs).limits.perOrigin ≤
      amount (guard.swept nowMs).perOrigin (shortKey origin.bytes.toList)
  · exact .inr (.inl ⟨_, if_pos originFull⟩)
  rw [if_neg originFull]
  by_cases networkFull : (guard.swept nowMs).limits.perNetwork ≤ amount (guard.swept nowMs).perNetwork (shortKey network)
  · exact .inr (.inl ⟨_, if_pos networkFull⟩)
  rw [if_neg networkFull]
  refine .inr (.inr ⟨⟨sentAtMs, shortKey origin.bytes.toList, shortKey network⟩, rfl, ⟨?_, ?_, ?_, ?_, ?_⟩, rfl⟩)
  · exact not_lt.mp old
  · exact Option.not_isSome_iff_eq_none.mp known
  · exact not_le.mp full
  · exact not_le.mp originFull
  · exact not_le.mp networkFull

theorem swept_cases {guard : RelayReplayGuard} {nowMs : UInt64} :
    guard.swept nowMs = guard ∨ guard.swept nowMs = guard.sweep nowMs := by
  unfold RelayReplayGuard.swept
  split
  · exact .inr rfl
  · exact .inl rfl

theorem lookup_sweep : (guard.sweep nowMs).taken.lookup digest = (guard.taken.lookup digest).filter (Taken.keep nowMs) :=
  lookup_retain

theorem lookup_swept {guard : RelayReplayGuard} {nowMs : UInt64} {digest : Digest} (found : guard.taken.lookup digest = some taken)
    : (guard.swept nowMs).taken.lookup digest = some taken ∨ relayedMaxAgeMs < nowMs.toNat - taken.sentAtMs.toNat := by
  rcases swept_cases with same | ran
  · rw [same]
    exact .inl found
  · by_cases young : nowMs.toNat - taken.sentAtMs.toNat ≤ relayedMaxAgeMs
    · rw [ran, lookup_sweep, found, Option.filter_some, Taken.keep, decide_eq_true young, if_pos rfl]
      exact .inl rfl
    · exact .inr (not_le.mp young)

theorem lookup_swept_fresh (fresh : guard.taken.lookup digest = none) : (guard.swept nowMs).taken.lookup digest = none := by
  rcases swept_cases with same | ran
  · rw [same, fresh]
  · rw [ran, lookup_sweep, fresh]
    rfl

theorem limits_swept : (guard.swept nowMs).limits = guard.limits := by
  rcases swept_cases with same | ran
  · rw [same]
  · rw [ran]
    rfl

theorem sweep_parts {part : Taken → K} : (((values guard.taken).filter fun taken => !taken.keep nowMs).map part ++
      (values (guard.sweep nowMs).taken).map part).Perm ((values guard.taken).map part) := by
  have kept : values (guard.sweep nowMs).taken = (values guard.taken).filter (Taken.keep nowMs) :=
    values_retain
  rw [kept, ← map_append]
  refine List.Perm.map part ?_
  exact perm_append_comm.trans (filter_append_perm (Taken.keep nowMs) (values guard.taken))

theorem exact_sweep {guard : RelayReplayGuard} {nowMs : UInt64} (exact : guard.Exact) : (guard.sweep nowMs).Exact where
  origins := tallies_prune (tallies_lower_all _ _ (tallies_perm (sweep_parts guard nowMs).symm exact.origins))
  networks := tallies_prune (tallies_lower_all _ _ (tallies_perm (sweep_parts guard nowMs).symm exact.networks))

theorem exact_swept (exact : guard.Exact) : (guard.swept nowMs).Exact := by
  rcases swept_cases with same | ran
  · rwa [same]
  · rw [ran]
    exact exact_sweep exact

theorem exact_take (exact : guard.Exact) (fresh : guard.taken.lookup digest = none) : (guard.take digest taken).Exact := by
  have values : values (guard.take digest taken).taken = taken :: values guard.taken :=
    values_insert_fresh digest taken fresh
  constructor
  · rw [values, map_cons]
    exact tallies_bump exact.origins
  · rw [values, map_cons]
    exact tallies_bump exact.networks

variable {guard}

theorem fewer_sweep [DecidableEq K] {nowMs : UInt64} {part : Taken → K}
    {before after : Table K Nat} (exactBefore : Tally.Tallies before ((values guard.taken).map part))
    (exactAfter : Tally.Tallies after ((values (guard.sweep nowMs).taken).map part)) {key : K} :
    amount after key ≤ amount before key := by
  rw [exactBefore, exactAfter, ← (sweep_parts guard nowMs).count_eq key, count_append]
  exact Nat.le_add_left _ _

theorem bounded_sweep {nowMs : UInt64} (exact : guard.Exact) (bounded : guard.Bounded) : (guard.sweep nowMs).Bounded where
  total := le_trans (length_filter_le _ _) bounded.total
  origins := fun key => le_trans
    (fewer_sweep exact.origins (exact_sweep exact).origins) (bounded.origins key)
  networks := fun key => le_trans
    (fewer_sweep exact.networks (exact_sweep exact).networks)
    (bounded.networks key)

variable (guard)

theorem bounded_swept (exact : guard.Exact) (bounded : guard.Bounded) : (guard.swept nowMs).Bounded := by
  rcases swept_cases with same | ran
  · rwa [same]
  · rw [ran]
    exact bounded_sweep exact bounded

theorem bumped_within {counts : Table UInt64 Nat} {limit : Nat} {key : UInt64} (within : ∀ query, amount counts query ≤ limit)
    (room : amount counts key < limit) (query : UInt64) : amount (bump counts key) query ≤ limit := by
  rw [amount_bump]
  split
  · exact room
  · exact within query

theorem bounded_take (bounded : guard.Bounded) (fresh : guard.taken.lookup digest = none)
    (room : guard.taken.entries.length < guard.limits.total)
    (originRoom : amount guard.perOrigin taken.origin < guard.limits.perOrigin)
    (networkRoom : amount guard.perNetwork taken.network < guard.limits.perNetwork) :
    (guard.take digest taken).Bounded where
  total := by
    have values := congrArg List.length (values_insert_fresh digest taken fresh)
    simp only [Table.values, length_map, length_cons] at values
    exact le_trans (le_of_eq values) room
  origins := bumped_within bounded.origins originRoom
  networks := bumped_within bounded.networks networkRoom

theorem books_admit {guard : RelayReplayGuard} {digest : Digest} {sentAtMs nowMs : UInt64} (books : guard.Exact ∧ guard.Bounded) :
    (guard.admitAt shortKey origin network digest sentAtMs nowMs).1.Exact ∧
      (guard.admitAt shortKey origin network digest sentAtMs nowMs).1.Bounded := by
  obtain ⟨exact, bounded⟩ := books
  have sweptExact := exact_swept guard nowMs exact
  have sweptBounded := bounded_swept guard nowMs exact bounded
  rcases admit_cases shortKey guard origin network digest sentAtMs nowMs with
    ⟨_, unchanged⟩ | ⟨_, full⟩ | ⟨taken, _, admits, took⟩
  · rw [unchanged]
    exact ⟨exact, bounded⟩
  · rw [full]
    exact ⟨sweptExact, sweptBounded⟩
  · rw [took]
    have fresh := lookup_swept_fresh guard nowMs digest admits.fresh
    exact ⟨exact_take _ digest sweptExact fresh,
      bounded_take _ digest sweptBounded fresh admits.room admits.originRoom admits.networkRoom⟩

structure Admission where
  origin : NodeId
  network : Bytes
  digest : Digest
  sentAtMs : UInt64
  nowMs : UInt64

structure Gate where
  guard : RelayReplayGuard
  admitted : List Digest
  clock : UInt64

open Gate

def Gate.step (world : Gate) (call : Admission) : Gate :=
  let result := world.guard.admitAt shortKey call.origin call.network call.digest call.sentAtMs call.nowMs
  { guard := result.1
    admitted := match result.2 with
      | .ok _ => call.digest :: world.admitted
      | .error _ => world.admitted
    clock := call.nowMs }

def Gate.start (limits : Limits) : Gate := ⟨.new limits, [], 0⟩

-- A body that was taken is held, or too old by now to be taken again.
structure Remembers (sentAt : Digest → UInt64) (world : Gate) : Prop where
  held : ∀ digest ∈ world.admitted, (∃ taken, world.guard.taken.lookup digest = some taken ∧ taken.sentAtMs = sentAt digest) ∨
    relayedMaxAgeMs < world.clock.toNat - (sentAt digest).toNat
  once : world.admitted.Nodup

theorem remembers_swept (world : Gate) (nowMs : UInt64) (later : world.clock ≤ nowMs)
    (remembers : Remembers sentAt world) (digest : Digest) (listed : digest ∈ world.admitted) :
    (∃ taken, (world.guard.swept nowMs).taken.lookup digest = some taken ∧ taken.sentAtMs = sentAt digest) ∨
      relayedMaxAgeMs < nowMs.toNat - (sentAt digest).toNat := by
  rcases remembers.held digest listed with ⟨taken, found, sent⟩ | old
  · rcases lookup_swept found with kept | gone
    · exact .inl ⟨taken, kept, sent⟩
    · rw [sent] at gone
      exact .inr gone
  · exact .inr (lt_of_lt_of_le old (Nat.sub_le_sub_right (UInt64.le_iff_toNat_le.mp later) _))

variable {call : Admission} {world : Gate}

theorem remembers_step {sentAt : Digest → UInt64} (remembers : Remembers sentAt world) (later : world.clock ≤ call.nowMs)
    (dated : call.sentAtMs = sentAt call.digest) : Remembers sentAt (world.step shortKey call) := by
  rcases admit_cases shortKey world.guard call.origin call.network call.digest call.sentAtMs call.nowMs with
    ⟨_, unchanged⟩ | ⟨_, full⟩ | ⟨taken, sent, admits, took⟩
  · simp only [step, unchanged]
    refine ⟨fun digest listed => ?_, remembers.once⟩
    rcases remembers.held digest listed with held | old
    · exact .inl held
    · exact .inr (lt_of_lt_of_le old (Nat.sub_le_sub_right (UInt64.le_iff_toNat_le.mp later) _))
  · simp only [step, full]
    exact ⟨remembers_swept sentAt world call.nowMs later remembers, remembers.once⟩
  simp only [step, took]
  have young := admits.young
  rw [sent, dated] at young
  have unlisted : call.digest ∉ world.admitted := by
    intro listed
    rcases remembers.held call.digest listed with ⟨other, found, _⟩ | old
    · rw [admits.fresh] at found
      cases found
    · exact not_lt.mpr young (lt_of_lt_of_le old (Nat.sub_le_sub_right (UInt64.le_iff_toNat_le.mp later) _))
  refine ⟨fun digest listed => ?_, nodup_cons.mpr ⟨unlisted, remembers.once⟩⟩
  simp only [RelayReplayGuard.take, lookup_insert_if]
  rcases mem_cons.mp listed with rfl | earlier
  · exact .inl ⟨taken, if_pos rfl, sent.trans dated⟩
  · have apart : digest ≠ call.digest := fun same => unlisted (same ▸ earlier)
    rw [if_neg apart]
    exact remembers_swept sentAt world call.nowMs later remembers digest earlier

variable {calls : List Admission}

theorem ordered_later (world : Gate) (clock : (calls.map (·.nowMs)).Pairwise (· ≤ ·))
    (later : ∀ call ∈ calls, world.clock ≤ call.nowMs) (dated : ∀ call ∈ calls, call.sentAtMs = sentAt call.digest) :
    RunMeets (step shortKey) (fun world call => world.clock ≤ call.nowMs ∧ call.sentAtMs = sentAt call.digest) world
      calls := by
  induction calls generalizing world with
  | nil => trivial
  | cons call rest ih =>
    obtain ⟨after, ordered⟩ := pairwise_cons.mp clock
    refine ⟨⟨later call mem_cons_self, dated call mem_cons_self⟩, ih _ ordered (fun other listed => ?_)
      fun other listed => dated other (mem_cons_of_mem _ listed)⟩
    exact after other.nowMs (mem_map.mpr ⟨other, listed, rfl⟩)

theorem swept_refused {guard other : RelayReplayGuard} {held : Digest} {nowMs : UInt64}
    (found : guard.taken.lookup held = some taken) (gone : (guard.sweep nowMs).taken.lookup held = none)
    {digest : Digest} :
    (other.admitAt shortKey origin network digest taken.sentAtMs nowMs).2 = .error (.tooOld (nowMs.toNat - taken.sentAtMs.toNat)) := by
  have old : relayedMaxAgeMs < nowMs.toNat - taken.sentAtMs.toNat := by
    rw [lookup_sweep, found, Option.filter_some] at gone
    by_cases young : nowMs.toNat - taken.sentAtMs.toNat ≤ relayedMaxAgeMs
    · rw [Taken.keep, decide_eq_true young, if_pos rfl] at gone
      cases gone
    · exact not_le.mp young
  have inRange : taken.sentAtMs.toNat < 18446744073709551616 := taken.sentAtMs.toNat_lt
  have past : ¬ satAddU nowMs.toNat relayedSkewMs < taken.sentAtMs.toNat := by
    unfold satAddU u64Max
    omega
  rw [RelayReplayGuard.admitAt, if_neg past, if_pos old]

theorem limits_step : (world.step shortKey call).guard.limits = world.guard.limits := by
  rcases admit_cases shortKey world.guard call.origin call.network call.digest call.sentAtMs call.nowMs with
    ⟨_, unchanged⟩ | ⟨_, full⟩ | ⟨taken, _, _, took⟩
  · simp only [step, unchanged]
  · simp only [step, full, limits_swept]
  · simp only [step, took, RelayReplayGuard.take, limits_swept]

def firstSent (calls : List Admission) (digest : Digest) : UInt64 :=
  ((calls.find? fun call => call.digest = digest).map (·.sentAtMs)).getD 0

theorem first_sent
    (committed : ∀ first ∈ calls, ∀ second ∈ calls, first.digest = second.digest → first.sentAtMs = second.sentAtMs)
    (call : Admission) (listed : call ∈ calls) : call.sentAtMs = firstSent calls call.digest := by
  cases found : calls.find? fun other => other.digest = call.digest with
  | none => exact absurd (decide_eq_true rfl) (find?_eq_none.mp found call listed)
  | some first =>
    have same : first.digest = call.digest := by simpa using find?_some found
    rw [firstSent, found]
    exact committed call listed first (mem_of_find?_eq_some found) same.symm

structure Gate.Sound (limits : Limits) (world : Gate) : Prop where
  limits : world.guard.limits = limits
  bounded : world.guard.Bounded
  exact : world.guard.Exact
  sweeps : ∀ held taken nowMs, world.guard.taken.lookup held = some taken →
    (world.guard.sweep nowMs).taken.lookup held = none → ∀ origin network digest,
      (world.guard.admitAt shortKey origin network digest taken.sentAtMs nowMs).2 =
        .error (.tooOld (nowMs.toNat - taken.sentAtMs.toNat))

theorem sound_of_books {limits : Limits} (kept : world.guard.limits = limits) (exact : world.guard.Exact)
    (bounded : world.guard.Bounded) : world.Sound shortKey limits :=
  ⟨kept, bounded, exact, fun held taken nowMs found gone origin network digest =>
    swept_refused shortKey found gone⟩

theorem start_sound : (start limits).Sound shortKey limits :=
  sound_of_books shortKey rfl ⟨fun _ => rfl, fun _ => rfl⟩
    ⟨Nat.zero_le _, fun _ => Nat.zero_le _, fun _ => Nat.zero_le _⟩

-- The result is named so that the kernel compares it and does not compute it.
theorem guard_step {result : RelayReplayGuard × Except Refused Unit}
    (ran : world.guard.admitAt shortKey call.origin call.network call.digest call.sentAtMs call.nowMs = result) :
    (world.step shortKey call).guard = result.1 := by
  simp only [step, ran]

theorem sound_step (world : Gate) (call : Admission) (sound : world.Sound shortKey limits) :
    (world.step shortKey call).Sound shortKey limits := by
  obtain ⟨exact, bounded⟩ := books_admit shortKey ⟨sound.exact, sound.bounded⟩
  rw [← guard_step shortKey rfl] at exact bounded
  exact sound_of_books shortKey ((limits_step shortKey).trans sound.limits) exact bounded

theorem relay_guard_admits_once (limits : Limits) (calls : List Admission) (clock : (calls.map (·.nowMs)).Pairwise (· ≤ ·)) :
    (run (step shortKey) (.start limits) calls).Sound shortKey limits ∧
      ((∀ first ∈ calls, ∀ second ∈ calls, first.digest = second.digest → first.sentAtMs = second.sentAtMs) →
        (run (step shortKey) (.start limits) calls).admitted.Nodup) := by
  constructor
  · exact run_keeps (Gate.Sound shortKey limits) (sound_step shortKey limits) _ calls (start_sound shortKey limits)
  intro committed
  have meets := ordered_later shortKey (firstSent calls) (.start limits) clock (fun _ _ => UInt64.zero_le)
    (first_sent committed)
  have start : Remembers (firstSent calls) (.start limits) :=
    ⟨fun _ listed => absurd listed not_mem_nil, nodup_nil⟩
  exact (run_invariant _ (Remembers (firstSent calls))
    (fun world call remembers ok => remembers_step shortKey remembers ok.1 ok.2) _ calls start
    meets).once

def sampleShortKey (bytes : Bytes) : UInt64 := UInt64.ofNat (fromLe (bytes.take 8))

def sampleAdmission (digest : UInt8) (sentAtMs nowMs : UInt64) : Admission :=
  ⟨NodeId.ofByte 1, [7], Vector.replicate 32 digest, sentAtMs, nowMs⟩

theorem relay_guard_admits_once_sample :
    (run (step sampleShortKey) (.start .default)
      [sampleAdmission 1 0 0, sampleAdmission 1 0 5, sampleAdmission 2 300001 300001, sampleAdmission 1 0 300001]).admitted.Nodup :=
  (relay_guard_admits_once sampleShortKey .default _ (by decide)).2 (by decide)

-- A digest presented again with a later time, after its first entry was swept.
theorem redated_digest_admitted_twice :
    (run (step sampleShortKey) (.start .default)
      [sampleAdmission 1 0 0, sampleAdmission 2 300001 300001, sampleAdmission 1 300001 300001]).admitted =
      [Vector.replicate 32 1, Vector.replicate 32 2, Vector.replicate 32 1] := by decide +kernel

end SwarmLlm.Crypto
