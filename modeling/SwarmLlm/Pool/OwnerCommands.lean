import SwarmLlm.Pool.Machine

namespace SwarmLlm.Pool

open Lib

inductive OwnerCommand where
  | removeMember (member : NodeId) (removalId : Uuid) (now : DateTime)
  | setCreditSplit (pct : UInt8)
  | setContributionLevel (member : NodeId) (level : UInt8)
  | setDeviceName (name : String)

variable (prims : Primitives)

def OwnerCommand.run : OwnerCommand → Prog PoolManager (Except SwarmError Unit)
  | .removeMember member removalId now => handleRemoveMember prims member removalId now
  | .setCreditSplit pct => handleSetCreditSplit pct
  | .setContributionLevel member level => handleSetContributionLevel member level
  | .setDeviceName name => handleSetDeviceName name

def AllOrNothing (prog : Prog PoolManager (Except SwarmError Unit)) (machine : Machine PoolManager) : Prop :=
  ∀ error after, prog machine = (.done (.error error), after) → after.store.node.poolState = machine.store.node.poolState

def poolOf (machine : Machine PoolManager) : Option PoolState := machine.store.node.poolState

def holding (changed : PoolState) (manager : PoolManager) : PoolManager :=
  { manager with node := { manager.node with poolState := some changed } }

def commitPool (changed : PoolState) (finish : Prog PoolManager (Except SwarmError Unit)) :
    Prog PoolManager (Except SwarmError Unit) := do
  Prog.modify (holding changed)
  match ← Prog.write fun manager => { manager with node := { manager.node with poolStateRecord := some changed } } with
  | .error error => pure (.error (.database error))
  | .ok _ => finish

inductive Commits (prog : Prog PoolManager (Except SwarmError Unit)) (manager : PoolManager) : Prop where
  | refused (error : SwarmError) (left : PoolManager) (same : left.node.poolState = manager.node.poolState)
      (ran : ∀ fates, prog ⟨manager, fates⟩ = (.done (.error error), ⟨left, fates⟩))
  | commits (changed : PoolState) (left : PoolManager) (finish : Prog PoolManager (Except SwarmError Unit))
      (finishes : ∀ machine, (finish machine).1 = .done (.ok ()) ∧ poolOf (finish machine).2 = poolOf machine)
      (ran : ∀ fates, prog ⟨manager, fates⟩ = commitPool changed finish ⟨left, fates⟩)

variable {prims} {prog : Prog PoolManager (Except SwarmError Unit)} {manager : PoolManager}

theorem get_bind {R : Type} (next : PoolManager → Prog PoolManager R) (machine : Machine PoolManager) :
    (Prog.get >>= next) machine = next machine.store machine := rfl

theorem commits_iff (commits : Commits prog manager) {fates : List WriteFate} : AllOrNothing prog ⟨manager, fates⟩ ↔
      ((∃ error, fates.headD .lands = .fails error) → poolOf (prog ⟨manager, []⟩).2 = manager.node.poolState) := by
  cases commits with
  | refused error left same ran => simp [AllOrNothing, poolOf, ran, same]
  | commits changed left finish finishes ran =>
    have landed : poolOf (prog ⟨manager, []⟩).2 = some changed := (congrArg (poolOf ·.2) (ran [])).trans (finishes _).2
    rw [landed]
    have result := ran fates
    rcases fates with _ | ⟨_ | error | _ | _, rest⟩
    case cons.fails =>
      have failed : prog ⟨manager, .fails error :: rest⟩ = (.done (.error (.database error)), ⟨holding changed left, rest⟩) :=
        result
      simp [AllOrNothing, failed, holding]
    -- no other fate of the write ends in an error
    all_goals
      refine iff_of_true (fun error after ran => ?_) (by simp)
      have ended := congrArg Prod.fst (result.symm.trans ran)
      first
      | cases (finishes _).1.symm.trans ended
      | cases ended

theorem change_pool_commits {change : PoolState → Except SwarmError PoolState} : Commits (changePool change) manager := by
  cases pool : manager.node.poolState with
  | none =>
    refine .refused (.validation "Not in a pool") manager rfl fun fates => ?_
    simp only [changePool, get_bind, pool]
    rfl
  | some state =>
    cases result : change state with
    | error error =>
      refine .refused error manager rfl fun fates => ?_
      simp only [changePool, get_bind, pool, result]
      rfl
    | ok changed =>
      refine .commits changed manager (pure (.ok ())) (fun _ => ⟨rfl, rfl⟩) fun fates => ?_
      simp only [changePool, get_bind, pool, result]
      rcases fates with _ | ⟨_ | _ | _ | _, rest⟩ <;> rfl

theorem guarded_change_commits {guard : PoolManager → Prop} [∀ manager, Decidable (guard manager)] {error : SwarmError}
    {change : PoolManager → PoolState → Except SwarmError PoolState} :
    Commits (Prog.get >>= fun manager => if guard manager then pure (.error error) else changePool (change manager)) manager := by
  by_cases refuses : guard manager
  · refine .refused error manager rfl fun fates => ?_
    simp only [get_bind, if_pos refuses]
    rfl
  have same : ∀ fates, (Prog.get >>= fun manager => if guard manager then pure (.error error)
      else changePool (change manager)) ⟨manager, fates⟩ = changePool (change manager) ⟨manager, fates⟩ := fun fates => by
    simp only [get_bind, if_neg refuses]
  have step : Commits (changePool (change manager)) manager := change_pool_commits
  cases step with
  | refused error left kept ran => exact .refused error left kept fun fates => (same fates).trans (ran fates)
  | commits changed left finish finishes ran =>
    exact .commits changed left finish finishes fun fates => (same fates).trans (ran fates)

theorem check_and_record_result {now : DateTime} : ∃ allowed events, ∀ fates, checkAndRecord now ⟨manager, fates⟩ =
      (.done allowed, ⟨{ manager with rateEvents := events }, fates⟩) := by
  by_cases full : manager.rateLimitPerHour ≤ (recentEvents now manager.rateEvents).length
  · refine ⟨false, recentEvents now manager.rateEvents, fun fates => ?_⟩
    change (if _ then _ else _ : Prog PoolManager Bool) _ = _
    rw [if_pos full]
    rfl
  · refine ⟨true, recentEvents now manager.rateEvents ++ [now], fun fates => ?_⟩
    change (if _ then _ else _ : Prog PoolManager Bool) _ = _
    rw [if_neg full]
    rfl

theorem remove_commits {member : NodeId} {removalId : Uuid} {now : DateTime} :
    Commits (handleRemoveMember prims member removalId now) manager := by
  obtain ⟨allowed, events, checked⟩ := check_and_record_result
  cases allowed with
  | false =>
    exact .refused (.validation "Rate limit exceeded") _ (by rfl) fun fates => Prog.bind_done (checked fates)
  | true =>
    cases removable : removableFrom manager.node member with
    | error error =>
      refine .refused error { manager with rateEvents := events } rfl fun fates => ?_
      refine (Prog.bind_done (checked fates)).trans ?_
      simp only [Bool.true_eq_false, if_false, get_bind, removable]
      rfl
    | ok left =>
      refine .commits left { manager with rateEvents := events } (do
        send (.removal (createRemoval prims manager.node.nodeId left.poolId member removalId now))
        pure (.ok ())) (fun _ => ⟨rfl, rfl⟩) fun fates => ?_
      refine (Prog.bind_done (checked fates)).trans ?_
      simp only [Bool.true_eq_false, if_false, get_bind, removable]
      rcases fates with _ | ⟨_ | _ | _ | _, rest⟩ <;> rfl

theorem command_commits {command : OwnerCommand} : Commits (command.run prims) manager := by
  cases command with
  | setCreditSplit | setContributionLevel | setDeviceName => exact guarded_change_commits
  | removeMember member removalId now => exact remove_commits

def splitOwner : PoolManager := sampleManager (sampleNode (NodeId.ofByte 1) (some (samplePool (NodeId.ofByte 1) [] 20)))

end SwarmLlm.Pool
