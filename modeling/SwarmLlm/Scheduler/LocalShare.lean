import SwarmLlm.Scheduler.RunnableRoutes

namespace SwarmLlm.Scheduler.Search

open Lib FloatArith List

variable {S D : Type}

theorem merge_cons (runs rest : List LayerRange) (range : LayerRange) :
    mergeRuns runs (range :: rest) = mergeRuns (mergeRuns runs [range]) rest := by
  cases last : runs.getLast? with
  | none => simp only [mergeRuns, last]
  | some run =>
    simp only [mergeRuns, last]
    split
    · rfl
    · rfl

theorem merge_concat {runs ranges : List LayerRange} {range : LayerRange} :
    mergeRuns runs (ranges ++ [range]) = mergeRuns (mergeRuns runs ranges) [range] := by
  induction ranges generalizing runs with
  | nil => rfl
  | cons first rest ih => rw [cons_append, merge_cons, ih, ← merge_cons]

variable {range : LayerRange} {closed : List LayerRange} {v w : Vertex S D} {chain : List (Vertex S D)} {s : Search S D}

theorem merge_meets {run : LayerRange} (meets : run.2 = range.1) :
    mergeRuns (closed ++ [run]) [range] = closed ++ [(run.1, range.2)] := by
  rw [mergeRuns, getLast?_concat]
  dsimp only
  rw [if_pos meets, mergeRuns, dropLast_concat]

theorem merge_apart (apart : ∀ run ∈ closed, run.2 < range.1) : mergeRuns closed [range] = closed ++ [range] := by
  rw [mergeRuns]
  cases last : closed.getLast? with
  | none =>
    rw [getLast?_eq_none_iff.mp last]
    rfl
  | some run =>
    have below := apart run (mem_of_getLast? last)
    dsimp only
    rw [if_neg (Nat.ne_of_lt below), mergeRuns]

def runsOf (s : Search S D) (chain : List (Vertex S D)) : List LayerRange :=
  mergeRuns [] ((chain.filter s.isLocal).map Vertex.range)

theorem runs_local (here : s.isLocal w = true) : s.runsOf (chain ++ [w]) = mergeRuns (s.runsOf chain) [w.range] := by
  rw [runsOf, filter_append, filter_cons, if_pos here, filter_nil, map_append]
  exact merge_concat

theorem runs_peer (elsewhere : s.isLocal w = false) : s.runsOf (chain ++ [w]) = s.runsOf chain := by
  rw [runsOf, filter_append, filter_cons, if_neg (by rw [elsewhere]; exact Bool.false_ne_true), filter_nil, append_nil, runsOf]

def shareOf (mark : Mark S) : Share := ⟨mark.localBase, mark.localRun, mark.localRuns, mark.closedWidth⟩

-- The account a path keeps of this node's runs, up to the layer it has reached: the
-- runs that are closed, and the one that is open if the path ends on this node.
def Shares (s : Search S D) (chain : List (Vertex S D)) (stop : Nat) (share : Share) : Prop :=
  ∃ closed : List LayerRange, share.base ≤ (closed.map s.localAdded).sum ∧ (∀ run ∈ closed, run.2 < stop) ∧
    match share.run with
    | some start => s.runsOf chain = closed ++ [(start, stop)] ∧ share.runs = min (closed.length + 1) 2
    | none => s.runsOf chain = closed ∧ share.runs = min closed.length 2 ∧
        ∀ run, closed = [run] → share.width = run.2 - run.1

theorem sat_le (left right : Nat) : satAddU32 left right ≤ left + right := Nat.min_le_right _ _

theorem shares_first :
    s.Shares [v] v.range.2 ⟨0, if s.isLocal v = true then some v.range.1 else none, if s.isLocal v = true then 1 else 0, 0⟩ := by
  refine ⟨[], Nat.zero_le _, nofun, ?_⟩
  have single : s.runsOf [v] = s.runsOf ([] ++ [v]) := rfl
  by_cases here : s.isLocal v = true
  · rw [if_pos here, if_pos here, single, runs_local here]
    exact ⟨rfl, rfl⟩
  · rw [if_neg here, if_neg here, single, runs_peer (Bool.not_eq_true _ ▸ here)]
    exact ⟨rfl, rfl, nofun⟩

theorem shares_next {mark : Mark S} (shares : s.Shares chain v.range.2 (shareOf mark)) (meets : w.range.1 = v.range.2)
    (rising : w.range.1 < w.range.2) : s.Shares (chain ++ [w]) w.range.2 (s.shareAt mark v w) := by
  obtain ⟨closed, based, ended, account⟩ := shares
  have further : ∀ run ∈ closed, run.2 < w.range.2 := fun run listed => by
    have := ended run listed
    omega
  dsimp only [shareOf] at based account
  unfold shareAt
  by_cases here : s.isLocal w = true
  · rw [here, Shares, runs_local here]
    cases open_ : mark.localRun with
    | some start =>
      rw [open_] at account
      obtain ⟨runs, counted⟩ := account
      refine ⟨closed, based, further, ?_, counted⟩
      rw [runs]
      exact merge_meets meets.symm
    | none =>
      rw [open_] at account
      obtain ⟨runs, counted, -⟩ := account
      refine ⟨closed, based, further, ?_, ?_⟩
      · rw [runs]
        exact merge_apart fun run listed => by
          rw [meets]
          exact ended run listed
      · dsimp only
        omega
  have elsewhere : s.isLocal w = false := Bool.not_eq_true _ ▸ here
  rw [elsewhere, Shares, runs_peer elsewhere]
  cases open_ : mark.localRun with
  | some start =>
    rw [open_] at account
    obtain ⟨runs, counted⟩ := account
    refine ⟨closed ++ [(start, v.range.2)], ?_, ?_, runs, ?_, ?_⟩
    · rw [map_append, sum_append]
      dsimp only [localTotal]
      have := sat_le mark.localBase (s.localAdded (start, v.range.2))
      simp only [map_cons, map_nil, sum_cons, sum_nil]
      omega
    · refine forall_concat further ?_
      dsimp only
      omega
    · rw [length_append]
      exact counted
    intro run single
    obtain ⟨none, same⟩ := @append_inj' _ closed _ [] [run] single rfl
    rw [none] at counted
    rw [← head_eq_of_cons_eq same]
    exact if_pos counted
  | none =>
    rw [open_] at account
    obtain ⟨runs, counted, wide⟩ := account
    exact ⟨closed, based, further, runs, counted, wide⟩

theorem shares_fits {stop : Nat} {share : Share} (shares : s.Shares chain stop share)
    (within : ∀ c limit, s.capacity.bindsLocal = true → s.localCandidate = some c → c.maxHostableLayers = some limit → WithinLimit c (s.runsOf chain) limit) :
    s.localFits share stop = true := by
  unfold localFits
  rw [Bool.or_eq_true_iff]
  by_cases binds : s.capacity.bindsLocal = true
  · cases here : s.localCandidate with
    | none =>
      left
      rw [withinLocalCap, localCap, if_pos binds, here]
      rfl
    | some c =>
      cases known : c.maxHostableLayers with
      | none =>
        left
        rw [withinLocalCap, localCap, if_pos binds, here, Option.bind_some, known]
        rfl
      | some limit =>
        have cap : s.localCap = some (max limit 1) := by
          rw [localCap, if_pos binds, here, Option.bind_some, known]
          rfl
        have fresh : s.localFreshRun = c.freshRunLayers := by
          rw [localFreshRun, if_pos binds, here]
          rfl
        have added : s.localAdded = c.layersCharged := by
          funext range
          rw [localAdded, here]
        obtain ⟨closed, based, -, account⟩ := shares
        rcases within c limit binds here known with sums | ⟨start, last, width, alone, allowed, narrow⟩
        · left
          rw [withinLocalCap, cap]
          apply decide_eq_true
          refine Nat.le_trans ?_ sums
          rw [added] at based
          cases open_ : share.run with
          | some start =>
            rw [open_] at account
            rw [account.1, localTotal, added, map_append, sum_append]
            have := sat_le share.base (c.layersCharged (start, stop))
            simp only [map_cons, map_nil, sum_cons, sum_nil]
            omega
          | none =>
            rw [open_] at account
            rw [account.1]
            exact based
        right
        rw [fresh, allowed]
        cases open_ : share.run with
        | some begins =>
          rw [open_] at account
          obtain ⟨runs, counted⟩ := account
          rw [alone] at runs
          obtain ⟨none, same⟩ := @append_inj' _ [] [_] closed _ runs rfl
          rw [← none] at counted
          have one : share.runs = 1 := counted
          rw [one]
          cases same
          exact decide_eq_true narrow
        | none =>
          rw [open_] at account
          obtain ⟨runs, counted, wide⟩ := account
          rw [alone] at runs
          have one : share.runs = 1 := by
            rw [counted, ← runs]
            rfl
          rw [one]
          have width' := wide _ runs.symm
          apply decide_eq_true
          rw [width']
          exact narrow
  · left
    rw [withinLocalCap, localCap, if_neg binds]

end SwarmLlm.Scheduler.Search
