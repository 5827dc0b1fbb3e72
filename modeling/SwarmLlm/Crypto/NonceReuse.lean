import SwarmLlm.Lib.Counters
import SwarmLlm.Crypto.Slots

namespace SwarmLlm.Crypto

open Lib SessionManager Function Option KeySlots CachedSession Counters NodeId

variable (prims : Primitives)

def SessionManager.sealedBy (manager : SessionManager) : SessionCall → Option Bytes
  | .complete peer peerPub now => (manager.completeEphemeralSession prims peer peerPub now).2
  | .sealFor peer plaintext aad => (manager.seal prims peer plaintext aad).2.toOption
  | _ => none

def SessionManager.drawsUnder (manager : SessionManager) : SessionCall → Option (NodeId × Key32 × Nat)
  | .complete peer peerPub _ => do
    let pending ← manager.pendingEphemeral.lookup peer
    let ourPub ← manager.pendingEphemeralPub.lookup peer
    pure (peer, deriveCipherKey prims (prims.diffieHellman pending.secret peerPub) ourPub peerPub, 0)
  | .sealFor peer _ _ => (manager.sessions.lookup peer).map fun session => (peer, session.cipherKey, session.sendNonce)
  | _ => none

-- Two nodes, the keys under which they drew a nonce and the keys and nonces of
-- their successful seals.
structure TwoNodes where
  manager : Side → SessionManager
  tried : List Key32
  used : List (Key32 × Bytes)

def TwoNodes.step (world : TwoNodes) (event : Side × SessionCall) : TwoNodes where
  manager := Function.update world.manager event.1 ((world.manager event.1).call prims event.2)
  tried := match (world.manager event.1).drawsUnder prims event.2 with
    | some (_, key, _) => key :: world.tried
    | none => world.tried
  used := match (world.manager event.1).drawsUnder prims event.2, (world.manager event.1).sealedBy prims event.2 with
    | some (_, key, _), some message => (key, message.take 12) :: world.used
    | _, _ => world.used

variable {count : Nat} {session : Option CachedSession} {secretB secretA : Key32} {call : SessionCall}
  {slots : KeySlots} {now : Instant} {aad plaintext message : Bytes} {other peer : NodeId} {manager : SessionManager}
  (world : TwoNodes) {prims}

theorem seal_result (sealed : (manager.seal prims peer plaintext aad).2.toOption = some message) :
    ∃ session ciphertext, manager.sessions.lookup peer = some session ∧ session.sendNonce < u64Max - 1 ∧
      prims.encrypt session.cipherKey (nonceBytes session.sendNonce) aad plaintext = some ciphertext ∧
      message = nonceBytes session.sendNonce ++ ciphertext := by
  cases found : manager.sessions.lookup peer with
  | none =>
    simp only [SessionManager.seal, found] at sealed
    cases sealed
  | some session =>
    by_cases exhausted : u64Max - 1 ≤ session.sendNonce
    · simp only [SessionManager.seal, found, nextNonce, if_pos exhausted] at sealed
      cases sealed
    simp only [SessionManager.seal, found, nextNonce, if_neg exhausted] at sealed
    cases encrypted : prims.encrypt session.cipherKey (nonceBytes session.sendNonce) aad plaintext with
    | none =>
      rw [encrypted] at sealed
      cases sealed
    | some ciphertext =>
      rw [encrypted] at sealed
      exact ⟨session, ciphertext, rfl, not_le.mp exhausted, encrypted, (Option.some.inj sealed).symm⟩

theorem complete_result {peerPub : Key32} (sealed : (manager.completeEphemeralSession prims peer peerPub now).2 = some message) :
    ∃ pending ourPub ciphertext, manager.pendingEphemeral.lookup peer = some pending ∧
      manager.pendingEphemeralPub.lookup peer = some ourPub ∧
      prims.encrypt (deriveCipherKey prims (prims.diffieHellman pending.secret peerPub) ourPub peerPub) (nonceBytes 0)
        sessionConfirmMarker sessionConfirmMarker = some ciphertext ∧
      message = nonceBytes 0 ++ ciphertext := by
  cases pendingFound : manager.pendingEphemeral.lookup peer with
  | none =>
    simp only [completeEphemeralSession, pendingFound] at sealed
    cases sealed
  | some pending =>
    cases pubFound : manager.pendingEphemeralPub.lookup peer with
    | none =>
      simp only [completeEphemeralSession, pendingFound, pubFound] at sealed
      cases sealed
    | some ourPub =>
      simp only [completeEphemeralSession, pendingFound, pubFound] at sealed
      obtain ⟨session, ciphertext, found, _, encrypted, result⟩ := seal_result sealed
      have installed := congrArg KeySlots.session (congrFun (slots_install { manager with
          pendingEphemeral := manager.pendingEphemeral.erase peer
          pendingEphemeralPub := manager.pendingEphemeralPub.erase peer } peer
        (deriveCipherKey prims (prims.diffieHellman pending.secret peerPub) ourPub peerPub) .new now) peer)
      rw [update_self] at installed
      cases found.symm.trans installed
      exact ⟨pending, ourPub, ciphertext, rfl, rfl, encrypted, result⟩

theorem sealed_draw (sealed : manager.sealedBy prims call = some message) :
    ∃ peer key count ciphertext aad plaintext, manager.drawsUnder prims call = some (peer, key, count) ∧
      count < u64Max - 1 ∧ prims.encrypt key (nonceBytes count) aad plaintext = some ciphertext ∧
      message = nonceBytes count ++ ciphertext := by
  cases call with
  | complete peer peerPub now =>
    obtain ⟨pending, ourPub, ciphertext, pendingFound, pubFound, encrypted, result⟩ :=
      complete_result sealed
    refine ⟨peer, _, 0, ciphertext, _, _, ?_, by decide, encrypted, result⟩
    simp [drawsUnder, pendingFound, pubFound]
  | sealFor peer plaintext aad =>
    obtain ⟨session, ciphertext, found, below, encrypted, result⟩ :=
      seal_result sealed
    refine ⟨peer, session.cipherKey, session.sendNonce, ciphertext, aad, plaintext, ?_, below, encrypted, result⟩
    simp [drawsUnder, found]
  | establish | initiate | accept | remove | evict | openFrom => cases sealed

-- A session keeps its key and its counter, or starts at 0.
def QuietSession (before after : Option CachedSession) : Prop :=
  ∀ session, after = some session → session.sendNonce = 0 ∨
    ∃ old, before = some old ∧ old.cipherKey = session.cipherKey ∧ old.sendNonce = session.sendNonce

theorem quiet_same : QuietSession session session :=
  fun kept found => .inr ⟨kept, found, rfl, rfl⟩

theorem quiet_gone : QuietSession session none := fun _ found => by cases found

theorem quiet_install {before : Option CachedSession} {cipherKey : Key32} {window : ReplayWindow} :
    QuietSession before (slots.install cipherKey window now).session := by
  intro session found
  cases found
  exact .inl rfl

theorem quiet_update {before after : SessionManager} (changed : after.slots = Function.update before.slots peer slots)
    (quiet : QuietSession (before.slots peer).session slots.session) :
    QuietSession (before.slots other).session (after.slots other).session := by
  rw [changed]
  by_cases same : other = peer
  · subst same
    rwa [update_self]
  · rw [update_of_ne same]
    exact quiet_same

theorem quiet_opens {after : KeySlots} (opens : Opens prims slots message aad now after plaintext) :
    QuietSession slots.session after.session := by
  cases opens with
  | live session window _ found opened =>
    rintro kept ⟨⟩
    exact .inr ⟨session, found, rfl, rfl⟩
  | unconfirmed key window _ found opened => exact quiet_install
  | previous session previous window _ found kept inGrace opened =>
    rintro kept ⟨⟩
    exact .inr ⟨session, found, rfl, rfl⟩
  | retired key window _ found inGrace opened => exact quiet_same

theorem quiet_evict {maxAge : Nat} {timedOut : Bool} :
    QuietSession slots.session ((slots.retireAged maxAge now).sweep maxAge now timedOut).session := by
  simp only [KeySlots.sweep, KeySlots.retireAged]
  cases found : slots.session with
  | none =>
    simp only [found]
    exact quiet_gone
  | some session =>
    by_cases aged : maxAge ≤ now - session.createdAt
    · simp only [if_pos aged]
      exact quiet_gone
    · simp only [if_neg aged, found]
      exact quiet_same

theorem undrawn_quiet (undrawn : manager.drawsUnder prims call = none) :
    QuietSession (manager.slots other).session ((manager.call prims call).slots other).session := by
  cases call with
  | establish peer peerPub now =>
    refine quiet_update (slots_establish prims) ?_
    split
    · exact quiet_same
    · exact quiet_install
  | initiate peer secret now =>
    exact quiet_update (slots_initiate prims manager peer secret now) quiet_same
  | accept peer peerPub adopt secret now =>
    refine quiet_update (slots_accept prims manager peer peerPub adopt secret now) ?_
    split
    · exact quiet_install
    · simp only [park]
      split <;> exact quiet_same
  | complete peer peerPub now =>
    refine quiet_update (slots_complete prims manager peer peerPub now) ?_
    have pendingHere : (manager.slots peer).pending = manager.pendingEphemeral.lookup peer := rfl
    have pubHere : (manager.slots peer).pendingPub = manager.pendingEphemeralPub.lookup peer := rfl
    cases pendingFound : manager.pendingEphemeral.lookup peer with
    | none =>
      simp only [complete, pendingHere, pendingFound]
      exact quiet_same
    | some pending =>
      cases pubFound : manager.pendingEphemeralPub.lookup peer with
      | none =>
        simp only [complete, pendingHere, pendingFound, pubHere, pubFound]
        exact quiet_same
      | some ourPub => simp [drawsUnder, pendingFound, pubFound] at undrawn
  | remove peer now => exact quiet_update slots_remove quiet_gone
  | evict maxAge now =>
    obtain ⟨timedOut, changed⟩ := slots_evict
    rw [call, changed]
    exact quiet_evict
  | sealFor peer plaintext aad =>
    refine quiet_update (slots_seal prims manager peer plaintext aad) ?_
    have absent : (manager.slots peer).session = none := by
      show manager.sessions.lookup peer = none
      simpa [drawsUnder] using undrawn
    rw [drawNonce, absent]
    exact quiet_gone
  | openFrom peer message aad now =>
    rcases slots_open manager peer message aad now with ⟨slots, plaintext, opens, _, changed⟩ | ⟨error, _, same⟩
    · exact quiet_update changed (quiet_opens opens)
    · rw [call, same]
      exact quiet_same

def drawnNext (count : Nat) : Nat := if u64Max - 1 ≤ count then u64Max - 1 else count + 1

theorem draw_nonce_next {session : CachedSession} :
    session.nextNonce.1.cipherKey = session.cipherKey ∧ session.nextNonce.1.sendNonce = drawnNext session.sendNonce := by
  rw [nextNonce, drawnNext]
  split <;> exact ⟨rfl, rfl⟩

theorem drawn_session {key : Key32} (drawn : manager.drawsUnder prims call = some (peer, key, count)) :
    ∃ slots session, (manager.call prims call).slots = Function.update manager.slots peer slots ∧
      slots.session = some session ∧ session.cipherKey = key ∧ session.sendNonce = drawnNext count ∧
      (count = 0 ∨ ∃ old, (manager.slots peer).session = some old ∧ old.cipherKey = key ∧ old.sendNonce = count) := by
  cases call with
  | complete target peerPub now =>
    simp only [drawsUnder, bind_eq_bind, bind_eq_some_iff] at drawn
    obtain ⟨pending, pendingFound, ourPub, pubFound, result⟩ := drawn
    cases result
    have pendingHere : (manager.slots peer).pending = some pending := pendingFound
    have pubHere : (manager.slots peer).pendingPub = some ourPub := pubFound
    have completed : ((manager.slots peer).complete prims peerPub now).session = some (nextNonce
        ⟨deriveCipherKey prims (prims.diffieHellman pending.secret peerPub) ourPub peerPub, 0, .new, now,
          (manager.slots peer).session.map (·.retire now)⟩).1 := by
      simp only [complete, pendingHere, pubHere, drawNonce, install, map_some]
      rfl
    exact ⟨_, _, slots_complete prims manager peer peerPub now, completed, draw_nonce_next.1, draw_nonce_next.2, .inl rfl⟩
  | sealFor target plaintext aad =>
    simp only [drawsUnder, map_eq_some_iff] at drawn
    obtain ⟨session, found, result⟩ := drawn
    cases result
    have here : (manager.slots peer).session = some session := found
    refine ⟨_, session.nextNonce.1, slots_seal prims manager peer plaintext aad, ?_, draw_nonce_next.1,
      draw_nonce_next.2, .inr ⟨session, here, rfl, rfl⟩⟩
    rw [drawNonce, here]
    rfl
  | establish | initiate | accept | remove | evict | openFrom => cases drawn

variable (prims)

def TwoNodes.counters (world : TwoNodes) : Counters (Side × NodeId) Key32 where
  next := fun holder => ((world.manager holder.1).slots holder.2).session.map fun session =>
    (session.cipherKey, session.sendNonce)
  tried := world.tried
  used := world.used.map fun entry => (entry.1, fromLe (entry.2.drop 4))

def TwoNodes.draw (world : TwoNodes) (event : Side × SessionCall) : Draw (Side × NodeId) Key32 :=
  match (world.manager event.1).drawsUnder prims event.2 with
  | none => .quiet (world.step prims event).counters.next
  | some (peer, key, count) => .draw (event.1, peer) key count (drawnNext count)
      ((world.manager event.1).sealedBy prims event.2).isSome

theorem take_nonce_bytes {rest : Bytes} : (nonceBytes count ++ rest).take 12 = nonceBytes count := by
  rw [List.take_append_of_le_length (by simp [nonceBytes]), List.take_of_length_le (by simp [nonceBytes])]

theorem drop_nonce_bytes (rest : Bytes) (small : count < u64Max) :
    fromLe (((nonceBytes count ++ rest).take 12).drop 4) = count := by
  have number : (nonceBytes count).drop 4 = leBytes 8 count := List.drop_left' (by simp)
  rw [take_nonce_bytes, number, from_le_exact (lt_trans small (by decide))]

variable (event : Side × SessionCall)

theorem counters_step : (world.step prims event).counters = world.counters.step (world.draw prims event) := by
  obtain ⟨side, call⟩ := event
  cases drawn : (world.manager side).drawsUnder prims call with
  | none =>
    simp only [TwoNodes.draw, drawn, step]
    simp only [TwoNodes.counters, TwoNodes.step, drawn]
  | some found =>
    obtain ⟨peer, key, count⟩ := found
    obtain ⟨slots, session, changed, here, sameKey, nextNumber, _⟩ :=
      drawn_session drawn
    simp only [TwoNodes.draw, drawn, step, TwoNodes.counters, TwoNodes.step]
    congr 1
    · funext holder
      obtain ⟨otherSide, other⟩ := holder
      by_cases sameSide : otherSide = side
      · subst sameSide
        rw [update_self, changed]
        by_cases same : other = peer
        · subst same
          rw [update_self, update_self, here, map_some, sameKey, nextNumber]
        · rw [update_of_ne same, update_of_ne (fun equal => same (Prod.mk.inj equal).2)]
      · rw [update_of_ne sameSide, update_of_ne (fun equal => sameSide (Prod.mk.inj equal).1)]
    cases sealed : (world.manager side).sealedBy prims call with
    | none => rfl
    | some message =>
      obtain ⟨_, _, _, ciphertext, _, _, sameDraw, below, _, result⟩ := sealed_draw sealed
      cases drawn.symm.trans sameDraw
      have number := drop_nonce_bytes ciphertext (lt_of_lt_of_le below (Nat.sub_le _ _))
      simp only [List.map_cons, result, number, isSome_some, if_true]

def Bounded (world : TwoNodes) : Prop :=
  ∀ holder key count, world.counters.next holder = some (key, count) → count ≤ u64Max - 1

theorem drawn_next_le : drawnNext count ≤ u64Max - 1 := by
  rw [drawnNext]
  split
  · exact le_refl _
  · omega

theorem draw_legal (bounded : Bounded world) : world.counters.Legal (world.draw prims event) := by
  obtain ⟨side, call⟩ := event
  cases drawn : (world.manager side).drawsUnder prims call with
  | none =>
    simp only [TwoNodes.draw, drawn, Counters.Legal]
    rintro ⟨otherSide, other⟩ key count held
    obtain ⟨session, found, pair⟩ := map_eq_some_iff.mp held
    cases pair
    by_cases sameSide : otherSide = side
    · subst sameSide
      simp only [TwoNodes.step, update_self] at found
      rcases undrawn_quiet drawn session found with zero | ⟨old, before, sameKey, sameCount⟩
      · exact .inl zero
      · refine .inr ?_
        simp only [TwoNodes.counters, before, map_some, sameKey, sameCount]
    · simp only [TwoNodes.step, update_of_ne sameSide] at found
      exact .inr (by simp only [TwoNodes.counters, found, map_some])
  | some found =>
    obtain ⟨peer, key, count⟩ := found
    obtain ⟨slots, session, _, _, _, _, origin⟩ := drawn_session drawn
    simp only [TwoNodes.draw, drawn, Counters.Legal]
    have held : count = 0 ∨ world.counters.next (side, peer) = some (key, count) := by
      refine origin.imp_right fun ⟨old, here, sameKey, sameCount⟩ => ?_
      simp only [TwoNodes.counters, here, map_some, sameKey, sameCount]
    have small : count ≤ u64Max - 1 := by
      rcases held with zero | held
      · rw [zero]
        exact Nat.zero_le _
      · exact bounded _ _ _ held
    refine ⟨held, ?_, ?_, fun sealed => ?_⟩
    · rw [drawnNext]
      split
      · decide
      · exact Nat.succ_pos _
    · rw [drawnNext]
      split
      · exact small
      · exact Nat.le_succ _
    · obtain ⟨message, sealed⟩ := isSome_iff_exists.mp sealed
      obtain ⟨_, _, _, ciphertext, _, _, sameDraw, below, _, result⟩ := sealed_draw sealed
      cases drawn.symm.trans sameDraw
      rw [drawnNext, if_neg (not_le.mpr below)]
      exact Nat.lt_succ_self _

theorem bounded_step (bounded : Bounded world) : Bounded (world.step prims event) := by
  intro holder key count held
  have legal := draw_legal prims world event bounded
  rw [counters_step] at held
  cases drawn : (world.manager event.1).drawsUnder prims event.2 with
  | none =>
    simp only [TwoNodes.draw, drawn] at held legal
    rcases legal holder key count held with zero | before
    · rw [zero]
      exact Nat.zero_le _
    · exact bounded holder key count before
  | some found =>
    obtain ⟨peer, drawnKey, drawnCount⟩ := found
    simp only [TwoNodes.draw, drawn] at held
    by_cases same : holder = (event.1, peer)
    · subst same
      rw [next_here] at held
      cases held
      exact drawn_next_le
    · rw [next_elsewhere _ same] at held
      exact bounded holder key count held

def TwoNodes.start (secretA secretB : Key32) : TwoNodes where
  manager := fun side => match side with
    | .a => .fromSecret prims secretA
    | .b => .fromSecret prims secretB
  tried := []
  used := []

-- A session that draws its first nonce since its key was installed has a key
-- under which neither node has drawn one.
def FirstDrawFresh (world : TwoNodes) (event : Side × SessionCall) : Prop :=
  ∀ drawn ∈ (world.manager event.1).drawsUnder prims event.2, drawn.2.2 = 0 → drawn.2.1 ∉ world.tried

instance (world : TwoNodes) (event : Side × SessionCall) : Decidable (FirstDrawFresh prims world event) :=
  inferInstanceAs (Decidable (∀ drawn ∈ (world.manager event.1).drawsUnder prims event.2, drawn.2.2 = 0 → drawn.2.1 ∉ world.tried))

theorem first_draw_fresh_iff {world : TwoNodes} {event : Side × SessionCall} :
    FirstDrawFresh prims world event ↔ world.counters.Fresh (world.draw prims event) := by
  cases drawn : (world.manager event.1).drawsUnder prims event.2 with
  | none => simp [FirstDrawFresh, TwoNodes.draw, drawn, Counters.Fresh]
  | some found => simp [FirstDrawFresh, TwoNodes.draw, drawn, Counters.Fresh, TwoNodes.counters]

theorem start_idle (secretA secretB : Key32) (holder : Side × NodeId) :
    (TwoNodes.start prims secretA secretB).counters.next holder = none := by
  obtain ⟨side, peer⟩ := holder
  cases side <;> rfl

theorem start_separate : (TwoNodes.start prims secretA secretB).counters.Separate where
  tried := fun holder key count held => by simp [start_idle] at held
  alone := fun first second key left right held => by simp [start_idle] at held
  known := fun key number listed => by simp [TwoNodes.counters, TwoNodes.start] at listed
  below := fun holder key count number held => by simp [start_idle] at held
  distinct := List.nodup_nil

theorem start_bounded : Bounded (TwoNodes.start prims secretA secretB) :=
  fun holder key count held => by simp [start_idle] at held

theorem start_rooted : (TwoNodes.start prims secretA secretB).counters.Rooted where
  held := fun holder key count held => by simp [start_idle] at held
  tried := fun key listed => by simp [TwoNodes.counters, TwoNodes.start] at listed

def Encoded (world : TwoNodes) : Prop :=
  ∀ entry ∈ world.used, entry.2 = nonceBytes (fromLe (entry.2.drop 4))

theorem encoded_step (encoded : Encoded world) : Encoded (world.step prims event) := by
  intro entry listed
  simp only [TwoNodes.step] at listed
  split at listed
  · rename_i peer key count message drawn sealed
    rcases List.mem_cons.mp listed with same | old
    · obtain ⟨_, _, number, ciphertext, _, _, _, below, _, result⟩ := sealed_draw sealed
      subst same
      simp only [result]
      rw [drop_nonce_bytes ciphertext (lt_of_lt_of_le below (Nat.sub_le _ _)), take_nonce_bytes]
    · exact encoded entry old
  · exact encoded entry listed

theorem encoded_nodup (encoded : Encoded world) (distinct : world.used.Nodup) : world.counters.used.Nodup := by
  refine distinct.map_on fun first firstIn second secondIn same => ?_
  obtain ⟨sameKey, sameNumber⟩ := Prod.mk.inj same
  refine Prod.ext sameKey ?_
  rw [encoded first firstIn, encoded second secondIn, sameNumber]

theorem used_kept : world.used.Sublist (world.step prims event).used := by
  simp only [TwoNodes.step]
  split
  · exact List.sublist_cons_self _ _
  · exact List.Sublist.refl _

variable {events : List (Side × SessionCall)}

theorem used_kept_run : world.used.Sublist (run (TwoNodes.step prims) world events).used := by
  induction events generalizing world with
  | nil => exact List.Sublist.refl _
  | cons event rest ih => exact (used_kept prims world event).trans (ih (world.step prims event))

section Total

variable (total : ∀ key nonce aad plaintext, (prims.encrypt key nonce aad plaintext).isSome = true)

include total

variable {prims}

theorem seal_succeeds {session : CachedSession}
    (found : manager.sessions.lookup peer = some session) (first : session.sendNonce = 0) :
    ((manager.seal prims peer plaintext aad).2.toOption).isSome = true := by
  obtain ⟨ciphertext, encrypted⟩ := isSome_iff_exists.mp
    (total session.cipherKey (nonceBytes session.sendNonce) aad plaintext)
  have available : ¬ u64Max - 1 ≤ session.sendNonce := by
    rw [first]
    decide
  simp only [SessionManager.seal, found, nextNonce, if_neg available, encrypted]
  rfl

theorem first_draw_seals (world : TwoNodes) (event : Side × SessionCall) : Counters.FirstSucceeds (world.draw prims event) := by
  obtain ⟨side, call⟩ := event
  cases call with
  | complete peer peerPub now =>
    cases pendingFound : (world.manager side).pendingEphemeral.lookup peer with
    | none => simp [TwoNodes.draw, drawsUnder, pendingFound, Counters.FirstSucceeds]
    | some pending =>
      cases pubFound : (world.manager side).pendingEphemeralPub.lookup peer with
      | none => simp [TwoNodes.draw, drawsUnder, pendingFound, pubFound, Counters.FirstSucceeds]
      | some ourPub =>
        simp only [TwoNodes.draw, drawsUnder, pendingFound, pubFound, Counters.FirstSucceeds,
          bind_eq_bind, bind_some, pure_def, sealedBy,
          completeEphemeralSession]
        intro _
        have installed := congrArg session (congrFun (slots_install { world.manager side with
            pendingEphemeral := (world.manager side).pendingEphemeral.erase peer
            pendingEphemeralPub := (world.manager side).pendingEphemeralPub.erase peer } peer
          (deriveCipherKey prims (prims.diffieHellman pending.secret peerPub) ourPub peerPub) .new now) peer)
        rw [update_self] at installed
        exact seal_succeeds total installed rfl
  | sealFor peer plaintext aad =>
    cases found : (world.manager side).sessions.lookup peer with
    | none => simp [TwoNodes.draw, drawsUnder, found, Counters.FirstSucceeds]
    | some session =>
      simp only [TwoNodes.draw, drawsUnder, found, map_some, Counters.FirstSucceeds]
      exact seal_succeeds total found
  | establish | initiate | accept | remove | evict | openFrom => trivial

theorem unique_draws_fresh (world : TwoNodes) (bounded : Bounded world)
    (rooted : world.counters.Rooted) (encoded : Encoded world) (distinct : (run (TwoNodes.step prims) world events).used.Nodup) :
    RunMeets (TwoNodes.step prims) (FirstDrawFresh prims) world events := by
  induction events generalizing world with
  | nil => trivial
  | cons event rest ih =>
    have succeeds := first_draw_seals total world event
    have encodedAfter := encoded_step prims world event encoded
    have rootedAfter : (world.step prims event).counters.Rooted := by
      rw [counters_step]
      exact rooted_step _ _ rooted (draw_legal prims world event bounded) succeeds
    refine ⟨?_, ih _ (bounded_step prims world event bounded) rootedAfter encodedAfter distinct⟩
    rw [first_draw_fresh_iff]
    by_contra stale
    refine stale_draw_repeats _ _ rooted succeeds stale ?_
    rw [← counters_step]
    exact encoded_nodup _ encodedAfter (distinct.sublist (used_kept_run prims (world.step prims event)))

end Total

theorem nonce_pairs_unique (secretA secretB : Key32) (events : List (Side × SessionCall)) :
    (RunMeets (TwoNodes.step prims) (FirstDrawFresh prims) (.start prims secretA secretB) events →
        (run (TwoNodes.step prims) (.start prims secretA secretB) events).used.Nodup) ∧
      ((∀ key nonce aad plaintext, (prims.encrypt key nonce aad plaintext).isSome = true) →
        (run (TwoNodes.step prims) (.start prims secretA secretB) events).used.Nodup →
        RunMeets (TwoNodes.step prims) (FirstDrawFresh prims) (.start prims secretA secretB) events) := by
  constructor
  · intro fresh
    have keeps : ∀ world event, Bounded world ∧ world.counters.Separate → FirstDrawFresh prims world event →
        Bounded (world.step prims event) ∧ (world.step prims event).counters.Separate := by
      rintro world event ⟨bounded, separate⟩ freshDraw
      refine ⟨bounded_step prims world event bounded, ?_⟩
      rw [counters_step]
      exact separate_step _ _ separate (draw_legal prims world event bounded)
        ((first_draw_fresh_iff prims).mp freshDraw)
    have reached := run_invariant (FirstDrawFresh prims) (fun world => Bounded world ∧ world.counters.Separate) keeps _ events
      ⟨start_bounded prims, start_separate prims⟩ fresh
    exact reached.2.distinct.of_map _
  · intro total distinct
    exact unique_draws_fresh total _ (start_bounded prims) (start_rooted prims) (fun entry listed => by cases listed) distinct

-- Both ends of a session count from 0 under the key they share, and a peer that
-- comes back gets the same long-term key with the counter at 0 again.
theorem shared_key_nonce_reused :
    ¬ (run (TwoNodes.step samplePrims) (.start samplePrims (sampleKey 1) (sampleKey 2))
        [(.a, .establish (ofByte 2) (sampleKey 2) 0), (.b, .establish (ofByte 1) (sampleKey 1) 0),
          (.a, .sealFor (ofByte 2) [] []), (.b, .sealFor (ofByte 1) [] [])]).used.Nodup ∧
      ¬ (run (TwoNodes.step samplePrims) (.start samplePrims (sampleKey 1) (sampleKey 2))
        [(.a, .establish (ofByte 2) (sampleKey 2) 0), (.a, .sealFor (ofByte 2) [] []),
          (.a, .remove (ofByte 2) 1), (.a, .establish (ofByte 2) (sampleKey 2) 2),
          (.a, .sealFor (ofByte 2) [] [])]).used.Nodup := by
  decide +kernel

theorem nonce_pairs_unique_sample :
    (run (TwoNodes.step samplePrims) (.start samplePrims (sampleKey 1) (sampleKey 2))
      [(.a, .establish (ofByte 2) (sampleKey 2) 0), (.a, .sealFor (ofByte 2) [] []),
        (.a, .sealFor (ofByte 2) [7] []), (.a, .initiate (ofByte 2) (sampleKey 3) 1),
        (.a, .complete (ofByte 2) (sampleKey 4) 2), (.a, .sealFor (ofByte 2) [] [])]).used.Nodup :=
  (nonce_pairs_unique samplePrims (sampleKey 1) (sampleKey 2) _).1 (by decide +kernel)

end SwarmLlm.Crypto
