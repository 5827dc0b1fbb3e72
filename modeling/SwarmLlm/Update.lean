import SwarmLlm.Lib.Run
import SwarmLlm.Lib.Saturating
import SwarmLlm.Lib.Table
import SwarmLlm.Lib.Text
import SwarmLlm.Types

namespace SwarmLlm.Update

open Lib List Table

def minCorroboratingPeers : Nat := 2

def maxPlausiblePatchJump : Nat := 25

def maxPeerVersions : Nat := 4096

-- The standard library's parse of a u64, which takes a leading plus.
def parseU64 (text : Text) : Option Nat :=
  let digits := if text.head? = some '+' then text.tail else text
  let value := Nat.ofDigitChars 10 digits 0
  if digits ≠ [] ∧ digits.all Char.isDigit ∧ value ≤ u64Max then some value else none

def number (part : Option Text) : Nat := (part.bind parseU64).getD 0

def beforeDash (part : Text) : Text := part.takeWhile (· ≠ '-')

def trimV (version : Text) : Text := version.dropWhile (· = 'v')

def versionTriple (version : Text) : Nat × Nat × Nat :=
  let parts := ((trimV version).splitOn '.').map beforeDash
  (number parts[0]?, number parts[1]?, number parts[2]?)

def plausiblyAdjacent (current candidate : Text) : Bool :=
  let (cm, cn, cp) := versionTriple current
  let (lm, ln, lp) := versionTriple candidate
  cm = lm ∧ cn = ln ∧ lp ≤ satAddU cp maxPlausiblePatchJump

def parse (version : Text) : Nat × Nat × Nat :=
  let parts := version.splitOn '.'
  (number parts[0]?, number parts[1]?, number (parts[2]?.map beforeDash))

def isNewerVersion (current latest : Text) : Bool :=
  let (cMajor, cMinor, cPatch) := parse current
  let (lMajor, lMinor, lPatch) := parse latest
  if cMajor < lMajor ∨ cMajor = lMajor ∧ (cMinor < lMinor ∨ cMinor = lMinor ∧ cPatch < lPatch) then true
  else if lMajor = cMajor ∧ lMinor = cMinor ∧ lPatch = cPatch then current.contains '-' && !latest.contains '-'
  else false

structure PeerVersionWatch where
  seen : Table NodeId Text
  nudgedFor : Option Text

abbrev Observation := NodeId × Text

def observe (current : Text) (watch : PeerVersionWatch) (call : Observation) : Option Text × PeerVersionWatch :=
  let advertised := trimV call.2
  if !isNewerVersion current advertised || !plausiblyAdjacent current advertised then
    (none, { watch with seen := watch.seen.erase call.1 })
  else if maxPeerVersions ≤ watch.seen.keys.length ∧ call.1 ∉ watch.seen.keys then (none, watch)
  else
    let seen := watch.seen.insert call.1 advertised
    if (values seen).count advertised < minCorroboratingPeers ∨ watch.nudgedFor = some advertised then
      (none, { watch with seen := seen })
    else (some advertised, ⟨seen, some advertised⟩)

def watched (current : Text) : List Observation → PeerVersionWatch :=
  run (fun watch call => (observe current watch call).2) ⟨∅, none⟩

def nudges (current : Text) : List Observation → List Text :=
  observed (fun watch call => (observe current watch call).2) (fun watch call => (observe current watch call).1.toList) ⟨∅, none⟩

def lastAdvertised (calls : List Observation) (peer : NodeId) : Option Text :=
  (calls.filter fun call => call.1 = peer).getLast?.map fun call => trimV call.2

def Agree (seen : Table NodeId Text) (peer : NodeId) (version : Text) : Prop :=
  seen.lookup peer = some version ∧ ∃ other ≠ peer, seen.lookup other = some version

variable {current version : Text} {seen : Table NodeId Text} {watch : PeerVersionWatch} {call : Observation} {peer : NodeId}

theorem agree_iff {told : Text} : Agree (seen.insert peer told) peer version ↔
    told = version ∧ minCorroboratingPeers ≤ (values (seen.insert peer told)).count told := by
  have counted : values (seen.insert peer told) = told :: values (seen.erase peer) := by
    rw [values, AList.entries_insert]
    rfl
  rw [counted, count_cons_self, minCorroboratingPeers, Nat.succ_le_succ_iff, one_le_count_iff, mem_values_iff]
  simp only [Agree, lookup_insert_if, lookup_erase_if, if_true, Option.some.injEq]
  refine and_congr_right fun same => exists_congr fun other => ?_
  by_cases own : other = peer <;> simp [own, same]

theorem nudged_for : (observe current watch call).2.nudgedFor = (observe current watch call).1.or watch.nudgedFor := by
  unfold observe
  dsimp only
  split_ifs <;> rfl

-- A call is answered by the version it has just made two peers agree on, unless that
-- is the version of the answer before.
theorem nudge_iff : (observe current watch call).1 = some version ↔
    Agree (observe current watch call).2.seen call.1 version ∧ watch.nudgedFor ≠ some version := by
  unfold observe
  dsimp only
  split_ifs with old full quiet
  · simp [Agree]
  · simp [Agree, AList.lookup_eq_none.mpr full.2]
  · rw [agree_iff]
    grind
  · rw [agree_iff]
    grind

theorem nudge_ahead (nudged : (observe current watch call).1 = some version) :
    isNewerVersion current version = true ∧ plausiblyAdjacent current version = true := by
  unfold observe at nudged
  dsimp only at nudged
  split_ifs at nudged with old full quiet
  cases nudged
  simpa using old

variable {calls : List Observation}

theorem nudges_append :
    nudges current (calls ++ [call]) = nudges current calls ++ (observe current (watched current calls) call).1.toList := by
  rw [nudges, observed_append, observed, observed, append_nil]
  rfl

theorem watched_append : watched current (calls ++ [call]) = (observe current (watched current calls) call).2 := run_append

theorem last_advertised_append :
    lastAdvertised (calls ++ [call]) peer = if call.1 = peer then some (trimV call.2) else lastAdvertised calls peer := by
  by_cases own : call.1 = peer <;> simp [lastAdvertised, own]

structure Watching (current : Text) (calls : List Observation) (watch : PeerVersionWatch) : Prop where
  few : watch.seen.keys.length ≤ maxPeerVersions
  last : watch.nudgedFor = (nudges current calls).getLast?
  latest : ∀ peer version, watch.seen.lookup peer = some version → lastAdvertised calls peer = some version

theorem watching (current : Text) (calls : List Observation) : Watching current calls (watched current calls) := by
  induction calls using List.reverseRecOn with
  | nil => exact ⟨Nat.zero_le _, rfl, nofun⟩
  | append_singleton calls call ih =>
    have few := ih.few
    refine ⟨?_, ?_, fun peer version => ?_⟩
    · rw [watched_append, observe]
      dsimp only
      split_ifs with old full quiet
      · rw [AList.keys_erase]
        exact length_erase_le.trans few
      · exact few
      all_goals
        rw [AList.keys_insert, length_cons, length_erase]
        grind
    · rw [watched_append, nudged_for, nudges_append, getLast?_append, ih.last]
      cases (observe current (watched current calls) call).1 <;> rfl
    · have latest := ih.latest peer version
      rw [watched_append, observe]
      dsimp only
      split_ifs with old full quiet
      · rw [lookup_erase_if, last_advertised_append]
        grind
      · have absent := AList.lookup_eq_none.mpr full.2
        rw [last_advertised_append]
        grind
      all_goals
        rw [lookup_insert_if, last_advertised_append]
        grind

-- Nothing is returned twice exactly where a version that peers come to agree on again
-- is the one returned last.
theorem nudged_once_iff (current : Text) (calls : List Observation) :
    (watched current calls).seen.keys.length ≤ maxPeerVersions ∧
    (∀ call version, (observe current (watched current calls) call).1 = some version →
      isNewerVersion current version = true ∧ (versionTriple version).1 = (versionTriple current).1 ∧
      (versionTriple version).2.1 = (versionTriple current).2.1 ∧
      (versionTriple version).2.2 ≤ (versionTriple current).2.2 + maxPlausiblePatchJump ∧
      ∃ other ≠ call.1, lastAdvertised (calls ++ [call]) call.1 = some version ∧
        lastAdvertised (calls ++ [call]) other = some version) ∧
    ((nudges current calls).Nodup ↔ AtEach (fun before call => ∀ version ∈ nudges current before,
      Agree (watched current (before ++ [call])).seen call.1 version → (nudges current before).getLast? = some version) calls) := by
  refine ⟨(watching current calls).few, fun call version nudged => ?_, ?_⟩
  · have latest := (watching current (calls ++ [call])).latest
    rw [watched_append] at latest
    obtain ⟨⟨own, other, apart, agrees⟩, -⟩ := nudge_iff.mp nudged
    obtain ⟨newer, adjacent⟩ := nudge_ahead nudged
    obtain ⟨major, minor, patch⟩ := of_decide_eq_true adjacent
    exact ⟨newer, major.symm, minor.symm, patch.trans (Nat.min_le_right _ _), other, apart, latest _ _ own, latest _ _ agrees⟩
  induction calls using List.reverseRecOn with
  | nil => exact iff_of_true nodup_nil (at_each_nil _)
  | append_singleton calls call ih =>
    have nudged := fun version => @nudge_iff current version (watched current calls) call
    rw [(watching current calls).last] at nudged
    rw [at_each_concat, ← ih, nudges_append, watched_append]
    cases answer : (observe current (watched current calls) call).1 with
    | none =>
      rw [Option.toList_none, append_nil]
      grind
    | some version =>
      rw [Option.toList_some, (perm_append_singleton _ _).nodup_iff, nodup_cons]
      grind

-- Peers name one version, others a second, and a late one the first again.
theorem nudged_again :
    nudges "1.0.0".toList [(.ofByte 1, "1.0.1".toList), (.ofByte 2, "v1.0.1".toList), (.ofByte 3, "1.0.2".toList),
      (.ofByte 4, "1.0.2".toList), (.ofByte 5, "1.0.1".toList)] = ["1.0.1".toList, "1.0.2".toList, "1.0.1".toList] := by
  decide +kernel

end SwarmLlm.Update
