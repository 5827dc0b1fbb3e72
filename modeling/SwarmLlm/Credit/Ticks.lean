import SwarmLlm.Credit.Closing
import SwarmLlm.Credit.Concurrent

namespace SwarmLlm.Credit

open Lib List

structure HostingTick where
  micro : Int
  now : DateTime

def hostingStep (world : LedgerWorld) (tick : HostingTick) : LedgerWorld :=
  let accrual := hostingAccrual tick.micro world.hostingRemainderMicro
  ⟨landed (onBooks (earn accrual.1 tick.now)) world.store, accrual.2⟩

def hostingReturn (world : LedgerWorld) (tick : HostingTick) : Outcome (Except SwarmError Int) :=
  (onBooks (earn (hostingAccrual tick.micro world.hostingRemainderMicro).1 tick.now) ⟨world.store, []⟩).1

def hostingPaid (world : LedgerWorld) (tick : HostingTick) : List Int :=
  match hostingReturn world tick with
  | .done (.ok amount) => [amount]
  | _ => []

def CarryInRange (world : LedgerWorld) : Prop := 0 ≤ world.hostingRemainderMicro ∧ world.hostingRemainderMicro < 1000000

-- The cap of a million credits per tick keeps every accrual far below the limit.
def HostingTick.Accrues (tick : HostingTick) : Prop := 0 ≤ tick.micro ∧ tick.micro + 999999 ≤ i64Max

variable {world : LedgerWorld} {tick : HostingTick}

theorem ledger_hosting_step (prims : SwarmLlm.Pool.Primitives) (me : NodeId) (world : LedgerWorld) (shardHosting : Int)
    (totalGb : Float) (hours : Float32) (now : DateTime) :
    ledgerStep prims me world (.hostingTick shardHosting totalGb hours now) =
      (hostingMicro shardHosting totalGb hours).elim world fun micro => hostingStep world ⟨micro, now⟩ := by
  simp only [ledgerStep]
  cases hostingMicro shardHosting totalGb hours <;> rfl

theorem accrual_exact (carried : CarryInRange world) (accrues : tick.Accrues) :
    hostingAccrual tick.micro world.hostingRemainderMicro =
      ((tick.micro + world.hostingRemainderMicro) / 1000000, (tick.micro + world.hostingRemainderMicro) % 1000000) := by
  obtain ⟨low, high⟩ := carried
  obtain ⟨positive, room⟩ := accrues
  have total : 0 ≤ tick.micro + world.hostingRemainderMicro := by omega
  have exact : satAdd tick.micro world.hostingRemainderMicro = tick.micro + world.hostingRemainderMicro :=
    sat_add_exact ⟨by simp only [i64Min]; omega, by omega⟩
  simp only [hostingAccrual, exact, Int.tdiv_eq_ediv_of_nonneg total, Int.tmod_eq_emod_of_nonneg total]

theorem earn_returns (amount : Int) (now : DateTime) (store : CreditStore) :
    (onBooks (earn amount now) ⟨store, []⟩).1 = .done (.ok amount) := by
  unfold earn
  split <;> rfl

theorem earn_balance {amount : Int} {now : DateTime} {store : CreditStore} (whole : 0 ≤ amount)
    (range : IsI64 store.balance.balance) :
    (landed (onBooks (earn amount now)) store).balance.balance = min i64Max (store.balance.balance + amount) := by
  unfold IsI64 at range
  unfold earn
  split
  · change satAdd store.balance.balance amount = _
    simp only [satAdd, clampI64]
    omega
  · change store.balance.balance = _
    omega

theorem hosting_pay_exact (world : LedgerWorld) (ticks : List HostingTick) (carried : CarryInRange world)
    (range : IsI64 world.store.balance.balance) (accrue : ∀ tick ∈ ticks, tick.Accrues) :
    (observed hostingStep hostingPaid world ticks).sum =
        (world.hostingRemainderMicro + (ticks.map HostingTick.micro).sum) / 1000000 ∧
      CarryInRange (run hostingStep world ticks) ∧
      (run hostingStep world ticks).store.balance.balance =
        min i64Max (world.store.balance.balance + (observed hostingStep hostingPaid world ticks).sum) := by
  induction ticks generalizing world with
  | nil =>
    unfold CarryInRange at carried
    unfold IsI64 at range
    simp only [observed, sum_nil, map_nil, run_nil]
    exact ⟨by omega, carried, by omega⟩
  | cons tick rest ih =>
    have accrual := accrual_exact carried (accrue tick mem_cons_self)
    obtain ⟨low, high⟩ := carried
    have positive := (accrue tick mem_cons_self).1
    have whole : 0 ≤ (tick.micro + world.hostingRemainderMicro) / 1000000 := by omega
    have balance : (hostingStep world tick).store.balance.balance =
        min i64Max (world.store.balance.balance + (tick.micro + world.hostingRemainderMicro) / 1000000) := by
      simp only [hostingStep, accrual, earn_balance whole range]
    have carry : (hostingStep world tick).hostingRemainderMicro =
        (tick.micro + world.hostingRemainderMicro) % 1000000 := by simp only [hostingStep, accrual]
    have paid : hostingPaid world tick = [(tick.micro + world.hostingRemainderMicro) / 1000000] := by
      simp only [hostingPaid, hostingReturn, accrual, earn_returns]
    unfold IsI64 at range
    obtain ⟨later, kept, raised⟩ := ih (hostingStep world tick) (by unfold CarryInRange; omega) (by unfold IsI64; omega)
      fun other member => accrue other (mem_cons_of_mem _ member)
    have more : 0 ≤ (rest.map HostingTick.micro).sum := sum_nonneg fun micro member => by
      obtain ⟨other, inside, rfl⟩ := mem_map.mp member
      exact (accrue other (mem_cons_of_mem _ inside)).1
    rw [observed, run_cons, raised, paid, later, singleton_append, sum_cons, map_cons, sum_cons]
    exact ⟨by omega, kept, by omega⟩

theorem hosting_pay_exact_halves : (observed hostingStep hostingPaid ⟨quietStore, 0⟩ [⟨600000, 0⟩, ⟨600000, 0⟩]).sum = 1 :=
  (hosting_pay_exact ⟨quietStore, 0⟩ [⟨600000, 0⟩, ⟨600000, 0⟩] (by simp [CarryInRange])
    (by decide) (by simp [HostingTick.Accrues, i64Max])).1

def Thread.forgive (forgiven : Int) (now : DateTime) : Thread Unit :=
  if 0 < forgiven then do
    let _ ← Thread.applyCreditDirectNoted forgiven .refund now
    pure ()
  else pure ()

-- The balance is read in one section and raised in another.
def Thread.decayTick (now : DateTime) : Thread Unit := do
  let bal ← Routine.perform CreditOp.readBalance
  Thread.forgive (negativeBalanceDecayAmount bal.balance) now

abbrev LedgerThreads := World CreditOp.Reply CreditStore Unit

def LedgerThreads.funds (world : LedgerThreads) : Int := world.store.balance.balance

-- A run up to the tick's credit. Thread 0 is the tick; the others take their turns
-- before its read, and between the read and the credit.
structure DecayRace where
  shardOf : Uuid → Nat
  now : DateTime
  store : CreditStore
  others : List (Thread Unit)
  before : List Turn
  between : List Turn
  early : ∀ turn ∈ before, turn.thread ≠ 0
  late : ∀ turn ∈ between, turn.thread ≠ 0

namespace DecayRace

variable (race : DecayRace)

def step : LedgerThreads → Turn → LedgerThreads := World.step (CreditOp.handler race.shardOf)

def read : LedgerThreads := run race.step (World.start race.store (Thread.decayTick race.now :: race.others)) race.before

def ready : LedgerThreads := run race.step (race.step race.read (.lands 0)) race.between

def credited : LedgerThreads := race.step race.ready (.lands 0)

def forgiven : Int := negativeBalanceDecayAmount race.read.funds

def OnlyForgives : Prop :=
  (race.ready.funds ≤ 0 → race.credited.funds ≤ 0) ∧ (0 ≤ race.ready.funds → race.credited.funds ≤ race.ready.funds)

variable {race}

theorem tick_untouched {world : LedgerThreads} {turns : List Turn} (elsewhere : ∀ turn ∈ turns, turn.thread ≠ 0) :
    (run race.step world turns).threads[0]? = world.threads[0]? := by
  induction turns generalizing world with
  | nil => rfl
  | cons turn rest ih =>
    rw [run_cons, ih fun other member => elsewhere other (mem_cons_of_mem _ member)]
    rcases step_cases world turn with idle | ⟨op, next, reply, after, _, _, stepped⟩
    · exact congrArg (fun world => world.threads[0]?) idle
    · rw [step, stepped]
      exact getElem?_set_ne (elsewhere turn mem_cons_self)

theorem ready_tick : race.ready.threads[0]? = some (Thread.forgive race.forgiven race.now) := by
  have first : race.read.threads[0]? = some (Thread.decayTick race.now) := tick_untouched race.early
  have inside := (List.getElem?_eq_some_iff.mp first).1
  have read := @step_returns _ _ _ _ (CreditOp.handler race.shardOf) _ 0 .readBalance _ _ _ first rfl
  rw [ready, tick_untouched race.late, step, read, getElem?_set_self inside]
  rfl

theorem credited_funds : race.credited.funds =
    if race.read.funds < 0 then satAdd race.ready.funds race.forgiven else race.ready.funds := by
  have tick := race.ready_tick
  by_cases negative : race.read.funds < 0
  · have positive : 0 < race.forgiven := decay_positive negative
    rw [Thread.forgive, if_pos positive] at tick
    have head := congrArg (Option.bind · Routine.head) tick
    rw [if_pos negative, credited, step, LedgerThreads.funds, step_store _ (.lands 0) _ _ _ head rfl]
    exact credit_by_balance _ _ _ _
  · have nothing : race.forgiven = 0 := by rw [forgiven, negativeBalanceDecayAmount, if_pos (by omega)]
    rw [nothing] at tick
    rw [if_neg negative, credited, step, World.step]
    simp only [show (Turn.lands 0).thread = 0 from rfl, tick]
    rfl

theorem decay_forgives_iff (race : DecayRace) :
    (race.OnlyForgives ↔ (race.read.funds < 0 → race.ready.funds + race.forgiven ≤ 0 ∨ i64Max ≤ race.ready.funds)) ∧
    (race.ready.funds ≤ race.read.funds → race.OnlyForgives) := by
  rw [OnlyForgives, credited_funds]
  by_cases negative : race.read.funds < 0
  · have positive : 0 < race.forgiven := decay_positive negative
    have bounded : race.forgiven ≤ -race.read.funds ∧ race.forgiven ≤ i64Max := by
      simp only [forgiven, negativeBalanceDecayAmount, if_neg (by omega : ¬ 0 ≤ race.read.funds)]
      omega
    simp only [negative, if_true, true_imp_iff, satAdd, clampI64, i64Min, i64Max] at bounded ⊢
    omega
  · simp only [negative, if_false, false_imp_iff, iff_true]
    omega

-- A deficit of 100 is read; 50 are earned; the credit of 100 then leaves 50.
def earnedBetween : DecayRace where
  shardOf _ := 0
  now := 0
  store := { quietStore with balance := ⟨NodeId.ofByte 1, -100, 0, 100, 0, 0⟩ }
  others := [Routine.perform (CreditOp.credit 50 .earning 0) >>= fun _ => pure ()]
  before := []
  between := [.lands 1]
  early := by simp
  late := by simp [Turn.lands]

theorem decay_overshoots : earnedBetween.ready.funds = -50 ∧ earnedBetween.credited.funds = 50 := by
  have read : earnedBetween.read.funds = -100 := rfl
  have ready : earnedBetween.ready.funds = -50 := rfl
  have forgiven : earnedBetween.forgiven = 100 := by
    rw [DecayRace.forgiven, read, negativeBalanceDecayAmount]
    simp only [i64Max]
    omega
  refine ⟨ready, ?_⟩
  rw [credited_funds, read, ready, forgiven]
  decide

end DecayRace

end SwarmLlm.Credit
