import Mathlib.Data.List.AList
import Mathlib.Algebra.BigOperators.Group.List.Basic
import Mathlib.Algebra.Ring.Int.Defs

namespace Lib

open List AList

-- A concurrent map is modelled by its contents: an association list whose keys
-- are distinct. Iteration order is the list's own and no result depends on it.
abbrev Table (K V : Type) := AList (fun _ : K => V)

namespace Table

variable {K V : Type}

def values (table : Table K V) : List V := table.entries.map Sigma.snd

def retain (keep : K → V → Bool) (table : Table K V) : Table K V :=
  ⟨table.entries.filter fun entry => keep entry.1 entry.2, table.nodupKeys.sublist filter_sublist⟩

def total (weight : V → Int) (table : Table K V) : Int := (table.values.map weight).sum

theorem values_retain {table : Table K V} {keep : V → Bool} :
    (table.retain fun _ value => keep value).values = table.values.filter keep := by
  rw [values, retain, values, filter_map]
  rfl

variable [DecidableEq K]

def weightAt (weight : V → Int) (table : Table K V) (key : K) : Int := ((table.lookup key).map weight).getD 0

def collect (keyOf : V → K) (keep : V → Bool) (values : List V) : Table K V :=
  values.foldl (fun table value => if keep value then table.insert (keyOf value) value else table) ∅

variable (keys : List K) {value : V} (table : Table K V) (query : K)

theorem lookup_insert_if {table : Table K V} {key query : K} :
    (table.insert key value).lookup query = if query = key then some value else table.lookup query := by
  by_cases same : query = key
  · subst query
    simp
  · rw [if_neg same, lookup_insert_ne same]

variable (weight : V → Int) (key : K)

theorem lookup_erase_if (query : K) : (table.erase key).lookup query = if query = key then none else table.lookup query := by
  by_cases same : query = key
  · subst query
    simp
  · rw [if_neg same, lookup_erase_ne same]

section Each

variable {table : Table K V} {key : K}

theorem lookup_erase_some {query : K} (found : (table.erase key).lookup query = some value) :
    query ≠ key ∧ table.lookup query = some value := by
  rw [lookup_erase_if] at found
  split at found
  · cases found
  · next apart => exact ⟨apart, found⟩

theorem lookup_insert_some {query : K} {other : V} (found : (table.insert key value).lookup query = some other) :
    query = key ∧ other = value ∨ table.lookup query = some other := by
  rw [lookup_insert_if] at found
  split at found
  · next same => exact .inl ⟨same, (Option.some.inj found).symm⟩
  · exact .inr found

theorem forall_insert {P : K → V → Prop} (each : ∀ query value, table.lookup query = some value → P query value)
    (here : P key value) (query : K) (other : V) (found : (table.insert key value).lookup query = some other) : P query other := by
  rcases lookup_insert_some found with ⟨rfl, rfl⟩ | old
  · exact here
  · exact each query other old

end Each

theorem lookup_erase_each : (keys.foldl (fun table key => table.erase key) table).lookup query =
    if query ∈ keys then none else table.lookup query := by
  induction keys generalizing table with
  | nil => simp
  | cons key rest ih =>
    rw [foldl_cons, ih, lookup_erase_if]
    simp only [mem_cons]
    split_ifs <;> simp_all

variable {table}

theorem mem_values_iff : value ∈ table.values ↔ ∃ key, table.lookup key = some value := by
  simp only [values, mem_map]
  constructor
  · rintro ⟨entry, member, rfl⟩
    exact ⟨entry.1, mem_lookup_iff.mpr member⟩
  · rintro ⟨key, found⟩
    exact ⟨⟨key, value⟩, mem_lookup_iff.mp found, rfl⟩

theorem values_map_key {keyOf : V → K}
    (keyed : ∀ key value, table.lookup key = some value → keyOf value = key) : table.values.map keyOf = table.keys := by
  rw [values, map_map]
  refine map_congr_left fun entry member => ?_
  exact keyed entry.1 entry.2 (mem_lookup_iff.mpr member)

theorem lookup_retain {keep : K → V → Bool} {key : K} :
    (table.retain keep).lookup key = (table.lookup key).filter (keep key) := by
  ext value
  have kept : (⟨key, value⟩ : Sigma fun _ : K => V) ∈ (table.retain keep).entries ↔
      ⟨key, value⟩ ∈ table.entries ∧ keep key value = true := by
    simp [retain]
  have after : value ∈ (table.retain keep).lookup key ↔ _ := mem_lookup_iff
  have before : value ∈ table.lookup key ↔ _ := mem_lookup_iff
  simp only [Option.mem_def] at after before
  rw [after, kept, Option.filter_eq_some_iff, before]

theorem values_insert_fresh (value : V) (fresh : table.lookup key = none) :
    values (table.insert key value) = value :: table.values := by
  have absent : key ∉ table.keys := lookup_eq_none.mp fresh
  rw [values, entries_insert, map_cons, kerase_of_notMem_keys absent]
  rfl

variable (table)

theorem weight_at_insert (query : K) (value : V) :
    weightAt weight (table.insert key value) query = if query = key then weight value else weightAt weight table query := by
  rw [weightAt, lookup_insert_if]
  by_cases same : query = key
  · rw [if_pos same, if_pos same]
    rfl
  · rw [if_neg same, if_neg same]
    rfl

theorem weight_at_erase (query : K) :
    weightAt weight (table.erase key) query = if query = key then 0 else weightAt weight table query := by
  rw [weightAt, lookup_erase_if]
  by_cases same : query = key
  · rw [if_pos same, if_pos same]
    rfl
  · rw [if_neg same, if_neg same]
    rfl

theorem weight_at_found (value : V) (found : table.lookup key = some value) : weightAt weight table key = weight value := by
  rw [weightAt, found]
  rfl

theorem total_erase : total weight (table.erase key) = total weight table - weightAt weight table key := by
  obtain ⟨entries, nodup⟩ := table
  change (((entries.kerase key).map Sigma.snd).map weight).sum =
    ((entries.map Sigma.snd).map weight).sum - ((entries.dlookup key).map weight).getD 0
  induction entries with
  | nil => simp
  | cons entry tail ih =>
    obtain ⟨head, value⟩ := entry
    have parts := nodupKeys_cons.mp nodup
    by_cases same : key = head
    · subst key
      simp
    · have rest := ih parts.2
      rw [kerase_cons_ne same, dlookup_cons_ne tail ⟨head, value⟩ same]
      simp only [map_cons, sum_cons]
      omega

theorem total_insert (value : V) :
    total weight (table.insert key value) = total weight table + weight value - weightAt weight table key := by
  have erased := total_erase table weight key
  have opened : total weight (table.insert key value) = weight value + total weight (table.erase key) := by
    rw [total, values, entries_insert, map_cons, map_cons, sum_cons]
    rfl
  omega

variable {weight}

theorem total_insert_fresh (fresh : table.lookup key = none) :
    total weight (table.insert key value) = total weight table + weight value := by
  have absent : weightAt weight table key = 0 := by rw [weightAt, fresh]; rfl
  have sum := total_insert table weight key value
  omega

theorem total_nonneg (table : Table K V) (nonneg : ∀ key, 0 ≤ weightAt weight table key) : 0 ≤ total weight table := by
  induction table using insertRec with
  | H0 => simp [total, values]
  | IH key value table fresh ih =>
    have missing := lookup_eq_none.mpr fresh
    rw [total_insert_fresh table key missing]
    have head := nonneg key
    have tail := ih fun query => by
      by_cases same : query = key
      · rw [same, weightAt, missing]
        exact Int.le_refl 0
      · simpa only [weight_at_insert, if_neg same] using nonneg query
    rw [weight_at_insert, if_pos rfl] at head
    omega

theorem total_le_total (small large : Table K V) (nonneg : ∀ key, 0 ≤ weightAt weight large key)
    (below : ∀ key, weightAt weight small key ≤ weightAt weight large key) : total weight small ≤ total weight large := by
  induction small using insertRec generalizing large with
  | H0 => exact total_nonneg large nonneg
  | IH key value table fresh ih =>
    have missing := lookup_eq_none.mpr fresh
    have rest := ih (large.erase key)
      (fun query => by
        rw [weight_at_erase]
        split
        · exact Int.le_refl 0
        · exact nonneg query)
      (fun query => by
        by_cases same : query = key
        · rw [weight_at_erase, if_pos same, same, weightAt, missing]
          exact Int.le_refl 0
        · simpa only [weight_at_insert, weight_at_erase, if_neg same] using below query)
    have head := below key
    rw [weight_at_insert, if_pos rfl] at head
    rw [total_insert_fresh table key missing]
    rw [total_erase] at rest
    omega

theorem total_congr {left right : Table K V} (same : ∀ key, left.lookup key = right.lookup key) :
    total weight left = total weight right := by
  have perm : left.entries.Perm right.entries :=
    lookup_ext left.nodupKeys right.nodupKeys fun key value => by
      have equal := same key
      simp only [AList.lookup] at equal
      rw [equal]
  exact ((perm.map Sigma.snd).map weight).sum_eq

theorem lookup_collect {keyOf : V → K} {keep : V → Bool} {table : Table K V}
    (keyed : ∀ key value, table.lookup key = some value → keyOf value = key) (key : K) :
    (collect keyOf keep table.values).lookup key = (table.lookup key).filter keep := by
  obtain ⟨entries, nodup⟩ := table
  simp only [AList.lookup] at keyed
  have general : ∀ (rest : List (Sigma fun _ : K => V)) (start : Table K V), rest.NodupKeys →
      (∀ key value, rest.dlookup key = some value → keyOf value = key) →
      ((rest.map Sigma.snd).foldl (fun table value => if keep value then table.insert (keyOf value) value else table)
        start).lookup key = ((rest.dlookup key).filter keep).or (start.lookup key) := by
    intro rest
    induction rest with
    | nil =>
      intro start _ _
      simp
    | cons entry tail ih =>
      intro start distinct named
      obtain ⟨head, value⟩ := entry
      have parts := nodupKeys_cons.mp distinct
      have own : keyOf value = head := named head value (dlookup_cons_eq tail head value)
      have tailNamed : ∀ key value, tail.dlookup key = some value → keyOf value = key := by
        intro query other found
        by_cases same : query = head
        · subst query
          rw [dlookup_eq_none.mpr parts.1] at found
          cases found
        · exact named query other (by rw [dlookup_cons_ne tail ⟨head, value⟩ same]; exact found)
      simp only [map_cons, foldl_cons]
      rw [ih _ parts.2 tailNamed, own]
      by_cases same : key = head
      · subst key
        rw [dlookup_eq_none.mpr parts.1, dlookup_cons_eq tail head value]
        cases kept : keep value <;> simp [Option.filter, kept]
      · rw [dlookup_cons_ne tail ⟨head, value⟩ same]
        cases keep value <;> simp [same]
  have opened := general entries ∅ nodup keyed
  rw [collect, values, opened]
  simp [AList.lookup]

end Table

end Lib
