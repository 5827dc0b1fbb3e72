import SwarmLlm.Lib.Bytes
import SwarmLlm.Lib.Run
import SwarmLlm.Lib.Table

namespace SwarmLlm.Storage

open Lib List Table Function

def makeKey (tree key : Bytes) : Bytes := tree ++ 0 :: key.filter (· ≠ 0)

def treeRangeStart (tree : Bytes) : Bytes := tree ++ [0]

def treeRangeEnd (tree : Bytes) : Bytes := tree ++ [1]

-- What redb's table gives of the keys from `low` up to `high`, in their order.
def range (low high : Bytes) (data : Table Bytes Bytes) : List (Sigma fun _ : Bytes => Bytes) :=
  (data.entries.filter fun entry => low ≤ entry.1 ∧ entry.1 < high).mergeSort fun first second => first.1 ≤ second.1

abbrev Name := { bytes : Bytes // 0 ∉ bytes }

-- A value is put as the bytes serde_json made of it, and read by the decoder of the
-- type that is asked for.
inductive DbOp (V : Type) where
  | putJson (tree key : Name) (bytes : Bytes)
  | getJson (tree key : Name) (fromSlice : Bytes → Except String V)
  | remove (tree key : Name)
  | iterJson (tree : Name) (fromSlice : Bytes → Except String V)
  | replaceTree (tree : Name) (entries : List (Name × Bytes))

abbrev DbAnswer (V : Type) := Except String (Option V) ⊕ List V

variable {V : Type}

def readJson (fromSlice : Bytes → Except String V) : Option Bytes → Except String (Option V)
  | none => .ok none
  | some bytes => (fromSlice bytes).map some

def dbStep (data : Table Bytes Bytes) : DbOp V → Table Bytes Bytes
  | .putJson tree key bytes => data.insert (makeKey tree key) bytes
  | .remove tree key => data.erase (makeKey tree key)
  | .replaceTree tree entries =>
    let staleKeys := (range (treeRangeStart tree) (treeRangeEnd tree) data).map Sigma.fst
    entries.foldl (fun data entry => data.insert (makeKey tree entry.1) entry.2)
      (staleKeys.foldl (fun data key => data.erase key) data)
  | _ => data

def dbAnswer (data : Table Bytes Bytes) : DbOp V → List (DbAnswer V)
  | .getJson tree key fromSlice => [.inl (readJson fromSlice (data.lookup (makeKey tree key)))]
  | .iterJson tree fromSlice =>
    [.inr ((range (treeRangeStart tree) (treeRangeEnd tree) data).filterMap fun entry => (fromSlice entry.2).toOption)]
  | _ => []

-- What the database is for: a map of its own for each tree.
abbrev Trees := Name → Table Name Bytes

def treesStep (trees : Trees) : DbOp V → Trees
  | .putJson tree key bytes => update trees tree ((trees tree).insert key bytes)
  | .remove tree key => update trees tree ((trees tree).erase key)
  | .replaceTree tree entries => update trees tree (entries.foldl (fun held entry => held.insert entry.1 entry.2) ∅)
  | _ => trees

def treesAnswer (trees : Trees) : DbOp V → List (DbAnswer V)
  | .getJson tree key fromSlice => [.inl (readJson fromSlice ((trees tree).lookup key))]
  | .iterJson tree fromSlice =>
    [.inr (((trees tree).entries.mergeSort fun first second => first.1.1 ≤ second.1.1).filterMap fun entry =>
      (fromSlice entry.2).toOption)]
  | _ => []

structure Holds (data : Table Bytes Bytes) (trees : Trees) : Prop where
  same : ∀ tree key : Name, data.lookup (makeKey tree key) = (trees tree).lookup key
  only : ∀ key bytes, data.lookup key = some bytes → ∃ tree name : Name, key = makeKey tree name

variable {data : Table Bytes Bytes} {trees : Trees} {tree key other query : Name} {bytes low high : Bytes}

theorem make_key_name : makeKey tree key = tree.1 ++ 0 :: key.1 := by
  rw [makeKey, filter_eq_self.mpr]
  intro byte member
  exact decide_eq_true fun nul => key.2 (nul ▸ member)

theorem make_key_inj : makeKey tree key = makeKey other query ↔ tree = other ∧ key = query := by
  simp [make_key_name, append_cons_inj_of_notMem tree.2 key.2, Subtype.ext_iff]

theorem in_range_iff {tree : Bytes} : treeRangeStart tree ≤ bytes ∧ bytes < treeRangeEnd tree ↔ ∃ rest, bytes = tree ++ 0 :: rest := by
  unfold treeRangeStart treeRangeEnd
  induction tree generalizing bytes with
  | nil =>
    cases bytes with
    | nil => simp
    | cons byte rest =>
      simp only [nil_append, cons_le_cons_iff, cons_lt_cons_iff, cons.injEq, not_lt_nil, nil_le]
      grind
  | cons first tree ih =>
    cases bytes with
    | nil => simp
    | cons byte rest =>
      simp only [cons_append, cons_le_cons_iff, cons_lt_cons_iff, cons.injEq]
      grind

theorem prefix_le_iff {first second : Bytes} : tree.1 ++ first ≤ tree.1 ++ second ↔ first ≤ second := by
  induction tree.1 with
  | nil => rfl
  | cons byte rest ih => simpa [cons_le_cons_iff] using ih

theorem key_in_range : treeRangeStart tree ≤ makeKey other key ∧ makeKey other key < treeRangeEnd tree ↔ other = tree := by
  rw [in_range_iff, make_key_name]
  simp [append_cons_inj_of_notMem other.2 key.2, Subtype.ext_iff]

variable {after : Table Bytes Bytes} {held : Table Name Bytes}

section

variable (holds : Holds data trees)

include holds

theorem holds_change (here : ∀ key : Name, after.lookup (makeKey tree key) = held.lookup key)
    (there : ∀ other ≠ tree, ∀ key : Name, after.lookup (makeKey other key) = data.lookup (makeKey other key))
    (only : ∀ key bytes, after.lookup key = some bytes → data.lookup key = some bytes ∨ ∃ name : Name, key = makeKey tree name) :
    Holds after (update trees tree held) where
  same other key := by
    by_cases own : other = tree
    · rw [own, update_self, here]
    · rw [update_of_ne own, there other own, holds.same]
  only key bytes found := (only key bytes found).elim (holds.only key bytes) fun own => ⟨tree, own⟩

theorem holds_at {value : Option Bytes}
    (data' : ∀ query, after.lookup query = if query = makeKey tree key then value else data.lookup query)
    (held' : ∀ query, held.lookup query = if query = key then value else (trees tree).lookup query) :
    Holds after (update trees tree held) := by
  refine holds_change holds (fun query => ?_) (fun other apart query => ?_) fun query found listed => ?_
  · simp only [data', held', make_key_inj, true_and, holds.same]
  · rw [data', if_neg fun same => apart (make_key_inj.mp same).1]
  · rw [data'] at listed
    split at listed
    · next same => exact .inr ⟨key, same⟩
    · exact .inl listed

theorem range_holds (tree : Name) : range (treeRangeStart tree) (treeRangeEnd tree) data =
      ((trees tree).entries.mergeSort fun first second => first.1.1 ≤ second.1.1).map
        fun entry => ⟨makeKey tree entry.1, entry.2⟩ := by
  have perm : (data.entries.filter fun entry => treeRangeStart tree ≤ entry.1 ∧ entry.1 < treeRangeEnd tree).Perm
      ((trees tree).entries.map fun entry => ⟨makeKey tree entry.1, entry.2⟩) := by
    have distinct : Injective fun entry : Sigma fun _ : Name => Bytes =>
        (⟨makeKey tree entry.1, entry.2⟩ : Sigma fun _ : Bytes => Bytes) := by
      rintro ⟨key, bytes⟩ ⟨query, others⟩ same
      simpa [make_key_inj] using same
    rw [perm_ext_iff_of_nodup (data.nodupKeys.nodup.filter _) ((trees tree).nodupKeys.nodup.map distinct)]
    rintro ⟨key, bytes⟩
    rw [mem_filter, ← AList.mem_lookup_iff, decide_eq_true_eq, mem_map]
    constructor
    · rintro ⟨found, inside⟩
      obtain ⟨other, name, rfl⟩ := holds.only key bytes found
      rw [key_in_range.mp inside, holds.same] at found
      exact ⟨⟨name, bytes⟩, AList.mem_lookup_iff.mp found, by rw [key_in_range.mp inside]⟩
    · rintro ⟨⟨name, _⟩, found, same⟩
      cases same
      exact ⟨(holds.same tree name).trans (AList.mem_lookup_iff.mpr found), key_in_range.mpr rfl⟩
  rw [range, map_mergeSort]
  · exact sort_unique Sigma.fst perm fun first here second there =>
      data.nodupKeys.eq_of_fst_eq (mem_of_mem_filter here) (mem_of_mem_filter there)
  · intro first _ second _
    rw [make_key_name, make_key_name, decide_eq_decide, prefix_le_iff, cons_le_cons_iff]
    simp

theorem holds_clear (tree : Name) :
    Holds (((range (treeRangeStart tree) (treeRangeEnd tree) data).map Sigma.fst).foldl (fun data key => data.erase key) data)
      (update trees tree ∅) := by
  have stale : ∀ other query : Name, makeKey other query ∈ (range (treeRangeStart tree) (treeRangeEnd tree) data).map Sigma.fst ↔
      other = tree ∧ query ∈ trees tree := by
    intro other query
    rw [range_holds holds, map_map]
    simp only [mem_map, mem_mergeSort, comp_apply, make_key_inj, AList.mem_keys, AList.keys, List.keys]
    grind
  refine holds_change holds (fun query => ?_) (fun other apart query => ?_) fun query bytes found => ?_
  · simp only [lookup_erase_each, stale, true_and, holds.same]
    split
    · rfl
    · next absent => exact AList.lookup_eq_none.mpr absent
  · rw [lookup_erase_each, if_neg fun listed => apart ((stale other query).mp listed).1]
  · rw [lookup_erase_each] at found
    split at found
    · cases found
    · exact .inl found

theorem holds_step (op : DbOp V) :
    Holds (dbStep data op) (treesStep trees op) ∧ dbAnswer data op = treesAnswer trees op := by
  cases op with
  | putJson tree key bytes => exact ⟨holds_at holds (fun _ => lookup_insert_if) fun _ => lookup_insert_if, rfl⟩
  | remove tree key => exact ⟨holds_at holds (lookup_erase_if _ _) (lookup_erase_if _ _), rfl⟩
  | getJson tree key fromSlice => exact ⟨holds, by rw [dbAnswer, treesAnswer, holds.same]⟩
  | iterJson tree fromSlice =>
    refine ⟨holds, ?_⟩
    rw [dbAnswer, treesAnswer, range_holds holds, filterMap_map]
    rfl
  | replaceTree tree entries =>
    refine ⟨?_, rfl⟩
    have cleared := holds_clear holds tree
    rw [dbStep, treesStep]
    generalize foldl (fun data key => AList.erase key data) data _ = data, (∅ : Table Name Bytes) = held at cleared ⊢
    induction entries generalizing data held with
    | nil => exact cleared
    | cons entry rest ih =>
      refine ih _ _ ?_
      have stored := @holds_at _ _ tree entry.1 _ _ cleared (some entry.2) (fun _ => lookup_insert_if) fun _ => lookup_insert_if
      rwa [update_idem, update_self] at stored

end

theorem trees_independent (ops : List (DbOp V)) :
    observed dbStep dbAnswer ∅ ops = observed treesStep treesAnswer (fun _ => ∅) ops := by
  have start : Holds ∅ fun _ => ∅ := ⟨fun _ _ => rfl, nofun⟩
  generalize (∅ : Table Bytes Bytes) = data, (fun _ => ∅ : Trees) = trees at start
  induction ops generalizing data trees with
  | nil => rfl
  | cons op rest ih =>
    obtain ⟨holds, same⟩ := holds_step start op
    rw [observed, observed, same, ih _ _ holds]

-- A tree holds bytes that are no value of the type asked for.
theorem undecoded_skipped :
    let data := dbStep (V := Nat) ∅ (.replaceTree ⟨[112], by decide⟩ [(⟨[107], by decide⟩, [120])])
    data.lookup (makeKey [112] [107]) = some [120] ∧
      dbAnswer data (.iterJson ⟨[112], by decide⟩ fun _ => (.error "expected value" : Except String Nat)) = [.inr []] :=
  ⟨by decide +kernel, by simp [dbAnswer, Except.toOption]⟩

end SwarmLlm.Storage
