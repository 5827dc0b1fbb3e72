import SwarmLlm.Inference.PrefixEntries
import SwarmLlm.Inference.SnapshotCopies

namespace SwarmLlm.Inference

open Lib PrefixCache List

variable {P : Type}

def Agree (n : Nat) (left right : List UInt32) : Prop := n ≤ left.length ∧ n ≤ right.length ∧ left.take n = right.take n

theorem shared_len_cons (first second : UInt32) (left right : List UInt32) :
    sharedLen (first :: left) (second :: right) = if first = second then sharedLen left right + 1 else 0 := by
  simp only [sharedLen, zip_cons_cons, takeWhile_cons, beq_iff_eq]
  split
  · rfl
  · rfl

variable {blockTokens : UInt32} {model : String} {cache : PrefixCache P} {calls : List (PrefixCall P)}
  {narrowFails : Bool} {snap : KvSnapshot P} {want n : Nat} (cfg : PrefixConfig) (tokens : List UInt32)
  (entry : Entry P) (rest : List (Entry P)) (index : Nat)

theorem le_shared_len_iff {left right : List UInt32} : n ≤ sharedLen left right ↔ Agree n left right := by
  induction left generalizing right n with
  | nil => simp +contextual [sharedLen, Agree]
  | cons first left ih =>
    cases right with
    | nil => simp +contextual [sharedLen, Agree]
    | cons second right =>
      rw [shared_len_cons]
      cases n with
      | zero => simp [Agree]
      | succ n =>
        by_cases same : first = second
        · rw [if_pos same, Nat.succ_le_succ_iff, ih]
          simp [Agree, same]
        · rw [if_neg same]
          simp [Agree, same]

def usable (tokens : List UInt32) (entry : Entry P) : Nat := min (sharedLen entry.tokens tokens) (tokens.length - 1)

def Serves (cfg : PrefixConfig) (tokens : List UInt32) (entry : Entry P) (n : Nat) : Prop :=
  cfg.minTokens ≤ n ∧ n ≤ tokens.length - 1 ∧ Agree n entry.tokens tokens ∧ entry.snapshot.servesFrom ≤ n

theorem serves_le_usable {cfg : PrefixConfig} {tokens : List UInt32} {entry : Entry P}
    (serves : Serves cfg tokens entry n) : n ≤ usable tokens entry :=
  Nat.le_min.mpr ⟨le_shared_len_iff.mpr serves.2.2.1, serves.2.1⟩

theorem usable_serves (enough : cfg.minTokens ≤ usable tokens entry)
    (past : entry.snapshot.servesFrom ≤ usable tokens entry) : Serves cfg tokens entry (usable tokens entry) :=
  ⟨enough, min_le_right _ _, le_shared_len_iff.mp (min_le_left _ _), past⟩

variable {found : Option (Nat × Nat)}

theorem better_some {index : Nat} : ∃ winner most, better index n found = some (winner, most) ∧
    n ≤ most ∧ (∀ earlier m, found = some (earlier, m) → m ≤ most) ∧
    (found = some (winner, most) ∨ winner = index ∧ most = n) := by
  cases found with
  | none => exact ⟨index, n, rfl, le_refl _, nofun, .inr ⟨rfl, rfl⟩⟩
  | some other =>
    obtain ⟨place, current⟩ := other
    by_cases more : current < n
    · refine ⟨index, n, if_pos more, le_refl _, ?_, .inr ⟨rfl, rfl⟩⟩
      intro earlier m same
      cases same
      exact le_of_lt more
    · refine ⟨place, current, if_neg more, Nat.le_of_not_lt more, ?_, .inl rfl⟩
      intro earlier m same
      cases same
      exact le_refl _

structure Best (cfg : PrefixConfig) (tokens : List UInt32) (entries : List (Entry P)) (index : Nat) (found : Option (Nat × Nat))
    (winner n : Nat) : Prop where
  origin : found = some (winner, n) ∨
    ∃ place entry, entries[place]? = some entry ∧ winner = index + place ∧ Serves cfg tokens entry n
  most : ∀ entry ∈ entries, ∀ m, Serves cfg tokens entry m → m ≤ n
  above : ∀ earlier m, found = some (earlier, m) → m ≤ n

variable {winner : Nat}

theorem best_skip (n : Nat) (later : Best cfg tokens rest (index + 1) found winner n)
    (unfit : usable tokens entry < cfg.minTokens ∨ usable tokens entry < entry.snapshot.servesFrom) :
    Best cfg tokens (entry :: rest) index found winner n := by
  refine ⟨?_, ?_, later.above⟩
  · rcases later.origin with same | ⟨place, other, listed, here, serves⟩
    · exact .inl same
    · exact .inr ⟨place + 1, other, listed, by omega, serves⟩
  intro other member m serves
  rcases mem_cons.mp member with rfl | member
  · have most := serves_le_usable serves
    have enough := serves.1
    have past := serves.2.2.2
    omega
  · exact later.most other member m serves

theorem best_take (n : Nat) (later : Best cfg tokens rest (index + 1) (better index (usable tokens entry) found) winner n)
    (serves : Serves cfg tokens entry (usable tokens entry)) : Best cfg tokens (entry :: rest) index found winner n := by
  obtain ⟨first, most, taken, least, above, origin⟩ := better_some
  have reached := later.above first most taken
  refine ⟨?_, ?_, ?_⟩
  · rcases later.origin with same | ⟨place, other, listed, here, served⟩
    · cases taken.symm.trans same
      rcases origin with before | ⟨rfl, rfl⟩
      · exact .inl before
      · exact .inr ⟨0, entry, rfl, rfl, serves⟩
    · exact .inr ⟨place + 1, other, listed, by omega, served⟩
  · intro other member m served
    rcases mem_cons.mp member with rfl | member
    · exact le_trans (serves_le_usable served) (le_trans least reached)
    · exact later.most other member m served
  · exact fun earlier m before => le_trans (above earlier m before) reached

theorem best_some {entries : List (Entry P)} (index : Nat) (found : Option (Nat × Nat)) (n : Nat)
    (result : best cfg tokens entries index found = some (winner, n)) : Best cfg tokens entries index found winner n := by
  induction entries generalizing index found with
  | nil =>
    have same : found = some (winner, n) := result
    refine ⟨.inl same, nofun, ?_⟩
    intro earlier m other
    cases same.symm.trans other
    exact le_refl _
  | cons entry rest ih =>
    have later := ih (index + 1) _ result
    by_cases unfit : usable tokens entry < cfg.minTokens ∨ usable tokens entry < entry.snapshot.servesFrom
    · rw [if_pos (by simpa [usable] using unfit)] at later
      exact best_skip cfg tokens entry rest index n later unfit
    · rw [if_neg (by simpa [usable] using unfit)] at later
      obtain ⟨enough, past⟩ := not_or.mp unfit
      exact best_take cfg tokens entry rest index n later
        (usable_serves cfg tokens entry (Nat.le_of_not_lt enough) (Nat.le_of_not_lt past))

theorem cut_holds {layers : List (Option (LayerKv P))} {ssmStates : List (Option (SsmState P))} {saved : Nat}
    {full : KvSnapshot P} (holds : Holds layers ssmStates saved full) (done : cut full n narrowFails = some snap) :
    Holds layers ssmStates n snap ∧ snap.servesFrom = full.servesFrom ∧ n ≤ saved := by
  rw [cut, holds.count] at done
  split at done
  · rename_i whole
    cases done
    subst whole
    exact ⟨holds, rfl, le_refl _⟩
  · split at done
    · cases done
    · exact narrow_snapshot_holds holds done

inductive SavedAs (calls : List (PrefixCall P)) (model : String) (entry : Entry P) : Prop where
  | tokens (request : String) (kvStore : KvCacheStore P) (prompt : List UInt32) (room : LetGo → SnapshotRoom)
      (keep copyFails : Bool) (kv : KvCacheEntry P) (n : Nat)
      (called : .insertFromKv model request kvStore prompt room keep copyFails ∈ calls)
      (stored : kvStore.lookup (cacheKey model request) = some kv) (within : n ≤ prompt.length)
      (tokens : entry.tokens = prompt.take n) (chain : entry.chain = []) (holds : Holds kv.layers kv.ssmStates n entry.snapshot)
  | chain (request : String) (kvStore : KvCacheStore P) (keys : List BlockKey) (room : LetGo → SnapshotRoom)
      (copyFails : Bool) (kv : KvCacheEntry P) (n : Nat)
      (called : .insertChainFromKv model request kvStore entry.chainBlock keys room copyFails ∈ calls)
      (stored : kvStore.lookup (cacheKey model request) = some kv) (blocks : WholeBlocks entry.chainBlock keys n)
      (tokens : entry.tokens = []) (chain : entry.chain = keys.take (n / entry.chainBlock.toNat))
      (holds : Holds kv.layers [] n entry.snapshot)

theorem saved_as_stable (calls : List (PrefixCall P)) (model : String) (entry : Entry P) (tick : Nat)
    (saved : SavedAs calls model entry) : SavedAs calls model { entry with lastHit := tick } := by
  cases saved with
  | tokens request kvStore prompt room keep copyFails kv n called stored within tokens chain holds =>
    exact .tokens request kvStore prompt room keep copyFails kv n called stored within tokens chain holds
  | chain request kvStore keys room copyFails kv n called stored blocks tokens chain holds =>
    exact .chain request kvStore keys room copyFails kv n called stored blocks tokens chain holds

theorem step_saved {cfg : PrefixConfig} {call : PrefixCall P} (all : cache.All (SavedAs calls))
    (listed : call ∈ calls) : (cache.step cfg call).All (SavedAs calls) := by
  have stable := saved_as_stable calls
  cases call with
  | insertFromKv model request kvStore prompt room keep copyFails =>
    refine insert_tokens_all stable all ?_
    intro kv n dim maxSeqLen home snap tick keptHere stored within copied
    exact .tokens request kvStore prompt room keep copyFails kv n listed stored within rfl rfl
      (snapshot_at_holds copied)
  | insertChainFromKv model request kvStore blockTokens keys room copyFails =>
    refine insert_chain_all stable all ?_
    intro kv n dim maxSeqLen home snap tick stored blocks copied
    exact .chain request kvStore keys room copyFails kv n listed stored blocks rfl rfl
      (snapshot_at_holds copied)
  | lookup model tokens narrowFails => exact lookup_all stable all
  | lookupChain model blockTokens keys want narrowFails =>
    exact lookup_chain_all stable all
  | release needed home => exact release_all all

theorem run_saved (calls : List (PrefixCall P)) : (run (PrefixCache.step cfg) .new calls).All (SavedAs calls) := by
  refine run_invariant (fun _ call => call ∈ calls) (PrefixCache.All (SavedAs calls)) ?_ .new calls ?_ ?_
  · exact fun cache call all listed => step_saved all listed
  · refine all_iff_table.mpr ?_
    intro model bucket found
    have missing : (∅ : Table String (List (Entry P))).lookup model = none := AList.lookup_empty model
    cases missing.symm.trans found
  · exact run_meets_of _ _ _ fun _ _ listed => listed

-- The first `n` positions of a cache saved for the model from a prompt that
-- agrees with this one on them. A split's prompt agrees with any on none.
def SavedFrom (calls : List (PrefixCall P)) (model : String) (tokens : List UInt32) (n : Nat) (snap : KvSnapshot P) : Prop :=
  (∃ request kvStore prompt room keep copyFails kv, .insertFromKv model request kvStore prompt room keep copyFails ∈ calls ∧
      kvStore.lookup (cacheKey model request) = some kv ∧ Agree n prompt tokens ∧ Holds kv.layers kv.ssmStates n snap) ∨
    n = 0 ∧ ∃ request kvStore blockTokens keys room copyFails kv,
      .insertChainFromKv model request kvStore blockTokens keys room copyFails ∈ calls ∧
      kvStore.lookup (cacheKey model request) = some kv ∧ Holds kv.layers [] 0 snap

-- The first `want` positions of a cache saved for the model under blocks of
-- this size that begin with these keys.
def SavedUnder (calls : List (PrefixCall P)) (model : String) (blockTokens : UInt32) (keys : List BlockKey) (want : Nat)
    (snap : KvSnapshot P) : Prop :=
  ∃ request kvStore saved room copyFails kv, .insertChainFromKv model request kvStore blockTokens saved room copyFails ∈ calls ∧
    kvStore.lookup (cacheKey model request) = some kv ∧ want / blockTokens.toNat ≤ keys.length ∧
    keys.take (want / blockTokens.toNat) <+: saved ∧ Holds kv.layers [] want snap

variable {cfg}

theorem lookup_answer {tokens : List UInt32} (all : cache.All (SavedAs calls))
    (answered : (cache.lookup cfg model tokens narrowFails).1 = some snap) :
    cfg.minTokens ≤ snap.tokenCount ∧ snap.tokenCount ≤ tokens.length - 1 ∧ snap.servesFrom ≤ snap.tokenCount ∧
      SavedFrom calls model tokens snap.tokenCount snap ∧
      ∀ entry ∈ cache.bucket model, ∀ n, Serves cfg tokens entry n → n ≤ snap.tokenCount := by
  rw [PrefixCache.lookup] at answered
  split at answered
  · cases answered
  split at answered
  · cases answered
  rename_i index n found
  obtain ⟨winner, place, done⟩ := Option.bind_eq_some_iff.mp answered
  have walk := best_some cfg tokens 0 none n found
  rcases walk.origin with impossible | ⟨index', entry, listed, here, serves⟩
  · cases impossible
  rw [zero_add] at here
  subst here
  cases place.symm.trans listed
  obtain ⟨enough, within, agree, past⟩ := serves
  cases all model winner (mem_of_getElem? place) with
  | tokens request kvStore prompt room keep copyFails kv saved called stored short keyed _ holds =>
    obtain ⟨holds, serves, cut⟩ := cut_holds holds done
    rw [holds.count, serves]
    refine ⟨enough, within, past, .inl ⟨request, kvStore, prompt, room, keep, copyFails, kv, called, stored, ?_, holds⟩,
      walk.most⟩
    rw [keyed, Agree, take_take, min_eq_left cut] at agree
    exact ⟨le_trans cut short, agree.2⟩
  | chain request kvStore keys room copyFails kv saved called stored blocks keyed _ holds =>
    obtain ⟨holds, serves, cut⟩ := cut_holds holds done
    rw [holds.count, serves]
    have none : n = 0 := by
      have bound := agree.1
      rw [keyed] at bound
      exact Nat.le_zero.mp bound
    refine ⟨enough, within, past, .inr ⟨none, request, kvStore, winner.chainBlock, keys, room, copyFails, kv, called,
      stored, none ▸ holds⟩, walk.most⟩

theorem asked_blocks (some : want ≠ 0) (whole : want % blockTokens.toNat = 0) : 0 < want / blockTokens.toNat := by
  have split := Nat.div_add_mod want blockTokens.toNat
  rcases Nat.eq_zero_or_pos (want / blockTokens.toNat) with none | blocks
  · rw [none, whole] at split
    exact absurd split.symm some
  · exact blocks

theorem lookup_chain_answer {keys : List BlockKey} (all : cache.All (SavedAs calls))
    (answered : (cache.lookupChain cfg model blockTokens keys want narrowFails).1 = some snap) :
    snap.tokenCount = want ∧ SavedUnder calls model blockTokens keys want snap := by
  rw [lookupChain] at answered
  dsimp only at answered
  split at answered
  · cases answered
  rename_i runs
  split at answered
  · cases answered
  rename_i few
  obtain ⟨_, _, some, whole⟩ : cfg.enabled = true ∧ ¬blockTokens.toNat = 0 ∧ ¬want = 0 ∧ want % blockTokens.toNat = 0 := by
    simpa [and_assoc] using runs
  split at answered
  · cases answered
  rename_i index found
  obtain ⟨winner, place, done⟩ := Option.bind_eq_some_iff.mp answered
  have covers : winner.coversChain (keys.take (want / blockTokens.toNat)) blockTokens want = true := by
    obtain ⟨inside, covering, _⟩ := List.findIdx?_eq_some_iff_getElem.mp found
    have same := (List.getElem?_eq_some_iff.mp place).2
    rwa [same] at covering
  simp only [Entry.coversChain, Bool.and_eq_true, beq_iff_eq, decide_eq_true_eq, List.isPrefixOf_iff_prefix] at covers
  obtain ⟨⟨⟨block, opening⟩, _⟩, _⟩ := covers
  cases all model winner (mem_of_getElem? place) with
  | tokens request kvStore prompt room keep copyFails kv saved called stored short keyed unchained holds =>
    rw [unchained] at opening
    have length := opening.length_le
    rw [length_take, min_eq_left (Nat.le_of_not_lt few), length_nil] at length
    exact absurd length (not_le.mpr (asked_blocks some whole))
  | chain request kvStore saved room copyFails kv n called stored blocks keyed chained holds =>
    obtain ⟨holds, _, _⟩ := cut_holds holds done
    rw [block] at called
    refine ⟨holds.count, request, kvStore, saved, room, copyFails, kv, called, stored, Nat.le_of_not_lt few, ?_, holds⟩
    rw [chained] at opening
    exact opening.trans ( take_prefix _ _)

theorem answers_own_prompt (cfg : PrefixConfig) (calls : List (PrefixCall P)) :
    (∀ model tokens narrowFails snap, ((run (PrefixCache.step cfg) .new calls).lookup cfg model tokens narrowFails).1 = some snap →
      cfg.minTokens ≤ snap.tokenCount ∧ snap.tokenCount ≤ tokens.length - 1 ∧ snap.servesFrom ≤ snap.tokenCount ∧
        SavedFrom calls model tokens snap.tokenCount snap ∧
        ∀ entry ∈ (run (PrefixCache.step cfg) .new calls).bucket model, ∀ n, Serves cfg tokens entry n → n ≤ snap.tokenCount) ∧
      ∀ model blockTokens keys want narrowFails snap,
        ((run (PrefixCache.step cfg) .new calls).lookupChain cfg model blockTokens keys want narrowFails).1 = some snap →
        snap.tokenCount = want ∧ SavedUnder calls model blockTokens keys want snap := by
  have all := run_saved cfg calls
  refine ⟨?_, ?_⟩
  · exact fun model tokens narrowFails snap => lookup_answer all
  · exact fun model blockTokens keys want narrowFails snap =>
      lookup_chain_answer all

section Sample

def sampleTensor (cells : List UInt32) : Tensor UInt32 := ⟨cells, 1, 2, .cpu⟩

def sampleStore (model request : String) (cells : List UInt32) : KvCacheStore UInt32 :=
  (∅ : KvCacheStore UInt32).insert (cacheKey model request)
    ⟨[some ⟨some (sampleTensor cells), some (sampleTensor cells), 0, cells.length, none, 2, 64⟩], []⟩

def sampleConfig : PrefixConfig := ⟨true, 4, 0, 2, 0, 2, false, fun _ => Vector.replicate 32 0⟩

def sampleRoom (_ : LetGo) : SnapshotRoom := ⟨.besideLive, 64, 0⟩

def sampleCalls : List (PrefixCall UInt32) :=
  [.insertFromKv "m" "first" (sampleStore "m" "first" [1, 2, 3, 4, 5]) [1, 2, 3, 4, 5] sampleRoom false false,
    .insertFromKv "m" "second" (sampleStore "m" "second" [1, 2, 7, 8]) [1, 2, 7, 8] sampleRoom false false,
    .insertChainFromKv "m" "split" (sampleStore "m" "split" [5, 6, 7, 8]) 2
      [Vector.replicate 32 1, Vector.replicate 32 2] sampleRoom false]

def sampleCache : PrefixCache UInt32 := run (PrefixCache.step sampleConfig) .new sampleCalls

-- The entry that shares three tokens answers, cut to them; the split's prompt
-- answers with its first block.
def sampleAnswer (cells : List UInt32) : KvSnapshot UInt32 :=
  ⟨cells.length, [some (sampleTensor cells, sampleTensor cells)], 2, 64, [none], [0], 0, []⟩

theorem answers_own_prompt_sample :
    ((sampleCache.lookup sampleConfig "m" [1, 2, 3, 9] false).1 = some (sampleAnswer [1, 2, 3]) ∧
        SavedFrom sampleCalls "m" [1, 2, 3, 9] 3 (sampleAnswer [1, 2, 3])) ∧
      (sampleCache.lookupChain sampleConfig "m" 2 [Vector.replicate 32 1] 2 false).1 = some (sampleAnswer [5, 6]) ∧
        SavedUnder sampleCalls "m" 2 [Vector.replicate 32 1] 2 (sampleAnswer [5, 6]) := by
  have prompt : (sampleCache.lookup sampleConfig "m" [1, 2, 3, 9] false).1 = some (sampleAnswer [1, 2, 3]) := by decide +kernel
  have split : (sampleCache.lookupChain sampleConfig "m" 2 [Vector.replicate 32 1] 2 false).1 = some (sampleAnswer [5, 6]) := by
    decide +kernel
  obtain ⟨prompts, splits⟩ := answers_own_prompt sampleConfig sampleCalls
  exact ⟨⟨prompt, (prompts _ _ _ _ prompt).2.2.2.1⟩, split, (splits _ _ _ _ _ _ split).2⟩

end Sample

end SwarmLlm.Inference
