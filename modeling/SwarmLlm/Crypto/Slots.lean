import Mathlib.Logic.Function.Basic
import SwarmLlm.Crypto.Session

namespace SwarmLlm.Crypto

open Lib SessionManager Function Option CachedSession

variable (prims : Primitives)

-- Everything a manager holds for one peer. The operations on a peer change that
-- peer's slots only.
@[ext] structure KeySlots where
  session : Option CachedSession
  unconfirmed : Option UnconfirmedKey
  retired : Option PreviousKey
  pending : Option PendingEphemeral
  pendingPub : Option Key32

def SessionManager.slots (manager : SessionManager) (peer : NodeId) : KeySlots :=
  ⟨manager.sessions.lookup peer, manager.unconfirmed.lookup peer, manager.retired.lookup peer,
    manager.pendingEphemeral.lookup peer, manager.pendingEphemeralPub.lookup peer⟩

def CachedSession.retire (session : CachedSession) (now : Instant) : PreviousKey :=
  ⟨session.cipherKey, session.replayWindow, now⟩

namespace KeySlots

variable (slots : KeySlots)

def install (cipherKey : Key32) (window : ReplayWindow) (now : Instant) : KeySlots :=
  { slots with session := some ⟨cipherKey, 0, window, now, slots.session.map (·.retire now)⟩ }

def initiate (secret : Key32) (now : Instant) : KeySlots :=
  { slots with pending := some ⟨secret, now⟩, pendingPub := some (prims.publicKey secret) }

def drawNonce : KeySlots :=
  { slots with session := slots.session.map fun session => session.nextNonce.1 }

def dropPending : KeySlots := { slots with pending := none, pendingPub := none }

def complete (peerPub : Key32) (now : Instant) : KeySlots :=
  match slots.pending, slots.pendingPub with
  | none, _ => slots
  | some _, none => { slots with pending := none }
  | some pending, some ourPub =>
    (slots.dropPending.install
      (deriveCipherKey prims (prims.diffieHellman pending.secret peerPub) ourPub peerPub) .new now).drawNonce

def park (cipherKey : Key32) (now : Instant) : KeySlots :=
  { (if slots.pending.isSome then slots.dropPending else slots) with unconfirmed := some ⟨cipherKey, .new, now⟩ }

def remove (now : Instant) : KeySlots :=
  ⟨none, none, (slots.session.map (·.retire now)).or slots.retired, none, none⟩

def retireAged (maxAge : Nat) (now : Instant) : KeySlots :=
  match slots.session with
  | some session =>
    if maxAge ≤ now - session.createdAt then { slots with session := none, retired := some (session.retire now) }
    else slots
  | none => slots

-- Public keys without a pending secret are dropped only when some exchange
-- timed out.
def sweep (maxAge : Nat) (now : Instant) (timedOut : Bool) : KeySlots :=
  let pending := slots.pending.filter fun pending => now - pending.createdAt < pendingEphemeralTtl
  { slots with
    retired := slots.retired.filter fun key => now - key.retiredAt ≤ previousKeyGrace
    unconfirmed := slots.unconfirmed.filter fun key => now - key.derivedAt < maxAge
    pending := pending
    pendingPub := if timedOut then slots.pendingPub.filter fun _ => pending.isSome else slots.pendingPub }

end KeySlots

variable (maxAge : Nat) {plaintext aad message : Bytes} {peer : NodeId} {now : Instant} {after manager : SessionManager}

theorem slots_eq_update {before : SessionManager} {slots : KeySlots} (here : after.slots peer = slots)
    (others : ∀ other, other ≠ peer → after.slots other = before.slots other) :
    after.slots = Function.update before.slots peer slots := by
  funext other
  by_cases same : other = peer
  · subst same
    rw [here, update_self]
  · rw [others other same, update_of_ne same]

theorem slots_install (manager : SessionManager) (peer : NodeId) (cipherKey : Key32) (window : ReplayWindow) (now : Instant) :
    (manager.installWithWindow peer cipherKey window now).slots =
      Function.update manager.slots peer ((manager.slots peer).install cipherKey window now) := by
  refine slots_eq_update ?_ fun other apart => ?_
  · cases found : manager.sessions.lookup peer with
    | none => simp [installWithWindow, slots, KeySlots.install, found, new]
    | some session =>
      simp [installWithWindow, slots, KeySlots.install, found, retire]
  · cases found : manager.sessions.lookup peer with
    | none => simp [installWithWindow, slots, found, apart]
    | some session =>
      simp [installWithWindow, slots, found, apart]

def SessionManager.staticKey (manager : SessionManager) (peerPub : Key32) : Key32 :=
  deriveCipherKey prims (prims.diffieHellman manager.localSecret peerPub) manager.localPublic peerPub

theorem slots_establish {peerPub : Key32} :
    (manager.establishSession prims peer peerPub now).1.slots = Function.update manager.slots peer
        (if (manager.slots peer).session.isSome then manager.slots peer
          else (manager.slots peer).install (manager.staticKey prims peerPub) .new now) := by
  cases found : (manager.slots peer).session.isSome with
  | true =>
    have held : (manager.sessions.lookup peer).isSome = true := found
    simp [establishSession, held]
  | false =>
    have free : (manager.sessions.lookup peer).isSome = false := found
    simp only [establishSession, free, Bool.false_eq_true, if_false]
    exact slots_install manager peer _ .new now

theorem slots_initiate (manager : SessionManager) (peer : NodeId) (secret : Key32) (now : Instant) :
    (manager.initiateEphemeralExchange prims peer secret now).1.slots =
      Function.update manager.slots peer ((manager.slots peer).initiate prims secret now) := by
  refine slots_eq_update ?_ fun other apart => ?_
  · simp [initiateEphemeralExchange, slots, KeySlots.initiate]
  · simp [initiateEphemeralExchange, slots, apart]

theorem slots_seal (manager : SessionManager) (peer : NodeId) (plaintext aad : Bytes) :
    (manager.seal prims peer plaintext aad).1.slots = Function.update manager.slots peer (manager.slots peer).drawNonce := by
  cases found : manager.sessions.lookup peer with
  | none =>
    have same : (manager.slots peer).drawNonce = manager.slots peer := by
      simp [KeySlots.drawNonce, SessionManager.slots, found]
    simp [SessionManager.seal, found, same]
  | some session =>
    have stored : (manager.seal prims peer plaintext aad).1 =
        { manager with sessions := manager.sessions.insert peer session.nextNonce.1 } := by
      simp only [SessionManager.seal, found]
      cases session.nextNonce.2 with
      | error error => rfl
      | ok nonce =>
        simp only
        cases prims.encrypt session.nextNonce.1.cipherKey nonce aad plaintext with
        | none | some => rfl
    rw [stored]
    refine slots_eq_update ?_ fun other apart => ?_
    · simp [slots, KeySlots.drawNonce, found]
    · simp [slots, apart]

theorem slots_drop_pending (manager : SessionManager) (peer : NodeId) : slots { manager with
      pendingEphemeral := manager.pendingEphemeral.erase peer
      pendingEphemeralPub := manager.pendingEphemeralPub.erase peer } =
      Function.update manager.slots peer (manager.slots peer).dropPending := by
  refine slots_eq_update ?_ fun other apart => ?_
  · simp [slots, KeySlots.dropPending]
  · simp [slots, apart]

theorem slots_complete (manager : SessionManager) (peer : NodeId) (peerPub : Key32) (now : Instant) :
    (manager.completeEphemeralSession prims peer peerPub now).1.slots =
      Function.update manager.slots peer ((manager.slots peer).complete prims peerPub now) := by
  cases pendingFound : manager.pendingEphemeral.lookup peer with
  | none =>
    have same : (manager.slots peer).complete prims peerPub now = manager.slots peer := by
      simp [KeySlots.complete, slots, pendingFound]
    simp [completeEphemeralSession, pendingFound, same]
  | some pending =>
    cases pubFound : manager.pendingEphemeralPub.lookup peer with
    | none =>
      simp only [completeEphemeralSession, pendingFound, pubFound]
      refine slots_eq_update ?_ fun other apart => ?_
      · simp [slots, KeySlots.complete, pendingFound, pubFound]
      · simp [slots, apart]
    | some ourPub =>
      simp only [completeEphemeralSession, pendingFound, pubFound, installSession]
      rw [slots_seal, slots_install, slots_drop_pending]
      have pendingHere : (manager.slots peer).pending = some pending := pendingFound
      have pubHere : (manager.slots peer).pendingPub = some ourPub := pubFound
      simp only [update_self, update_idem, KeySlots.complete, pendingHere, pubHere]

theorem slots_accept (manager : SessionManager) (peer : NodeId) (peerPub : Key32) (adopt : KeyAdoption) (secret : Key32)
    (now : Instant) :
    (manager.acceptEphemeralExchange prims peer peerPub adopt secret now).1.slots = Function.update manager.slots peer
        (if adopt = .immediately ∨ (manager.slots peer).session.isNone then
          (manager.slots peer).install
            (deriveCipherKey prims (prims.diffieHellman secret peerPub) (prims.publicKey secret) peerPub) .new now
        else
          (manager.slots peer).park
            (deriveCipherKey prims (prims.diffieHellman secret peerPub) (prims.publicKey secret) peerPub) now) := by
  have stored : (manager.slots peer).session = manager.sessions.lookup peer := rfl
  rw [stored, acceptEphemeralExchange]
  by_cases atOnce : adopt = .immediately ∨ (manager.sessions.lookup peer).isNone
  · simp only [if_pos atOnce]
    exact slots_install manager peer _ .new now
  simp only [if_neg atOnce]
  refine slots_eq_update ?_ fun other apart => ?_
  · cases pendingFound : (manager.pendingEphemeral.lookup peer).isSome with
    | true => simp [slots, KeySlots.park, KeySlots.dropPending, pendingFound]
    | false => simp [slots, KeySlots.park, pendingFound]
  · cases (manager.pendingEphemeral.lookup peer).isSome with
    | true | false => simp [slots, apart]

theorem slots_remove :
    (manager.removeSession peer now).slots = Function.update manager.slots peer ((manager.slots peer).remove now) := by
  refine slots_eq_update ?_ fun other apart => ?_
  · cases found : manager.sessions.lookup peer with
    | none => simp [removeSession, slots, KeySlots.remove, found]
    | some session =>
      simp [removeSession, slots, KeySlots.remove, found, retire]
  · cases found : manager.sessions.lookup peer with
    | none | some => simp [removeSession, slots, found, apart]

theorem slots_request_rekey : (manager.requestRekey peer now).slots = manager.slots := by
  cases found : manager.rekeyRequests.lookup peer with
  | none =>
    simp only [requestRekey, found]
    rfl
  | some request =>
    simp only [requestRekey, found]
    split <;> rfl

inductive Opens (slots : KeySlots) (message aad : Bytes) (now : Instant) : KeySlots → Bytes → Prop where
  | live (session : CachedSession) (window : ReplayWindow) (plaintext : Bytes) (found : slots.session = some session)
      (opened : tryOpenWith prims session.cipherKey session.replayWindow message aad (recvNonce message) =
        some (plaintext, window)) :
      Opens slots message aad now { slots with session := some { session with replayWindow := window } } plaintext
  | unconfirmed (key : UnconfirmedKey) (window : ReplayWindow) (plaintext : Bytes)
      (found : slots.unconfirmed = some key)
      (opened : tryOpenWith prims key.cipherKey key.replayWindow message aad (recvNonce message) = some (plaintext, window)) :
      Opens slots message aad now (KeySlots.install { slots with unconfirmed := none } key.cipherKey window now) plaintext
  | previous (session : CachedSession) (previous : PreviousKey) (window : ReplayWindow) (plaintext : Bytes)
      (found : slots.session = some session) (kept : session.previous = some previous)
      (inGrace : now - previous.retiredAt ≤ previousKeyGrace)
      (opened : tryOpenWith prims previous.cipherKey previous.replayWindow message aad (recvNonce message) =
        some (plaintext, window)) :
      Opens slots message aad now
        { slots with session := some { session with previous := some { previous with replayWindow := window } } } plaintext
  | retired (key : PreviousKey) (window : ReplayWindow) (plaintext : Bytes) (found : slots.retired = some key)
      (inGrace : now - key.retiredAt ≤ previousKeyGrace)
      (opened : tryOpenWith prims key.cipherKey key.replayWindow message aad (recvNonce message) = some (plaintext, window)) :
      Opens slots message aad now { slots with retired := some { key with replayWindow := window } } plaintext

variable {prims}

def OpensInto (prims : Primitives) (manager : SessionManager) (peer : NodeId) (message aad : Bytes) (now : Instant)
    (after : SessionManager) (plaintext : Bytes) : Prop :=
  ∃ slots, Opens prims (manager.slots peer) message aad now slots plaintext ∧ after.slots = Function.update manager.slots peer slots

theorem open_live_opens (opened : manager.openLive prims peer message aad (recvNonce message) = some (after, plaintext)) :
    OpensInto prims manager peer message aad now after plaintext := by
  simp only [openLive, bind_eq_bind, bind_eq_some_iff] at opened
  obtain ⟨session, found, ⟨_, window⟩, opensWith, result⟩ := opened
  cases result
  refine ⟨_, .live session window _ found opensWith, slots_eq_update ?_ fun other apart => ?_⟩
  · simp [slots]
  · simp [slots, apart]

theorem open_unconfirmed_opens
    (opened : manager.openWithUnconfirmed prims peer message aad (recvNonce message) now = some (after, plaintext)) :
    OpensInto prims manager peer message aad now after plaintext := by
  simp only [openWithUnconfirmed, bind_eq_bind, bind_eq_some_iff] at opened
  obtain ⟨key, found, ⟨_, window⟩, opensWith, result⟩ := opened
  cases result
  refine ⟨_, .unconfirmed key window _ found opensWith, ?_⟩
  have erased : slots { manager with unconfirmed := manager.unconfirmed.erase peer } =
      Function.update manager.slots peer { manager.slots peer with unconfirmed := none } := by
    refine slots_eq_update ?_ fun other apart => ?_
    · simp [slots]
    · simp [slots, apart]
  rw [slots_install, erased, update_self, update_idem]

theorem open_previous_opens
    (opened : manager.openWithPrevious prims peer message aad (recvNonce message) now = some (after, plaintext)) :
    OpensInto prims manager peer message aad now after plaintext := by
  simp only [openWithPrevious, bind_eq_bind, bind_eq_some_iff] at opened
  obtain ⟨session, found, previous, kept, opened⟩ := opened
  split_ifs at opened with inGrace
  obtain ⟨⟨_, window⟩, opensWith, result⟩ := bind_eq_some_iff.mp opened
  cases result
  refine ⟨_, .previous session previous window _ found kept inGrace opensWith, slots_eq_update ?_ fun other apart => ?_⟩
  · simp [slots]
  · simp [slots, apart]

theorem open_retired_opens
    (opened : manager.openWithRetired prims peer message aad (recvNonce message) now = some (after, plaintext)) :
    OpensInto prims manager peer message aad now after plaintext := by
  simp only [openWithRetired, bind_eq_bind, bind_eq_some_iff] at opened
  obtain ⟨key, found, opened⟩ := opened
  split_ifs at opened with expired
  obtain ⟨⟨_, window⟩, opensWith, result⟩ := bind_eq_some_iff.mp opened
  cases result
  refine ⟨_, .retired key window _ found (Nat.not_lt.mp expired) opensWith, slots_eq_update ?_ fun other apart => ?_⟩
  · simp [slots]
  · simp [slots, apart]

theorem slots_open (manager : SessionManager) (peer : NodeId) (message aad : Bytes) (now : Instant) :
    (∃ slots plaintext, Opens prims (manager.slots peer) message aad now slots plaintext ∧
        (manager.open prims peer message aad now).2 = .ok plaintext ∧
        (manager.open prims peer message aad now).1.slots = Function.update manager.slots peer slots) ∨
      ∃ error, (manager.open prims peer message aad now).2 = .error error ∧
        (manager.open prims peer message aad now).1.slots = manager.slots := by
  by_cases short : message.length < 12
  · rw [SessionManager.open, if_pos short]
    exact Or.inr ⟨_, rfl, rfl⟩
  rw [SessionManager.open, if_neg short]
  cases stage : (manager.openLive prims peer message aad (recvNonce message)
      <|> manager.openWithUnconfirmed prims peer message aad (recvNonce message) now
      <|> manager.openWithPrevious prims peer message aad (recvNonce message) now
      <|> manager.openWithRetired prims peer message aad (recvNonce message) now) with
  | none => exact Or.inr ⟨_, rfl, slots_request_rekey⟩
  | some result =>
    obtain ⟨after, plaintext⟩ := result
    have opens : OpensInto prims manager peer message aad now after plaintext := by
      simp only [orElse_eq_orElse, orElse_eq_or, or_eq_some_iff] at stage
      rcases stage with live | ⟨_, unconfirmed | ⟨_, previous | ⟨_, retired⟩⟩⟩
      · exact open_live_opens live
      · exact open_unconfirmed_opens unconfirmed
      · exact open_previous_opens previous
      · exact open_retired_opens retired
    obtain ⟨slots, opened, changed⟩ := opens
    exact Or.inl ⟨slots, plaintext, opened, rfl, changed⟩

variable (prims)

theorem slots_retire_aged (now : Instant) (manager : SessionManager) (peer : NodeId) :
    (manager.retireAged maxAge now peer).slots =
      Function.update manager.slots peer ((manager.slots peer).retireAged maxAge now) := by
  have stored : (manager.slots peer).session = manager.sessions.lookup peer := rfl
  cases found : manager.sessions.lookup peer with
  | none => simp [retireAged, KeySlots.retireAged, stored, found]
  | some session =>
    by_cases aged : maxAge ≤ now - session.createdAt
    · simp only [retireAged, found, if_pos aged]
      refine slots_eq_update ?_ fun other apart => ?_
      · simp [slots, KeySlots.retireAged, found, aged, retire]
      · simp [slots, apart]
    · simp [retireAged, KeySlots.retireAged, stored, found, aged]

theorem retire_aged_again (slots : KeySlots) (maxAge : Nat) (now : Instant) :
    (slots.retireAged maxAge now).retireAged maxAge now = slots.retireAged maxAge now := by
  cases found : slots.session with
  | none => simp [KeySlots.retireAged, found]
  | some session =>
    by_cases aged : maxAge ≤ now - session.createdAt
    · simp [KeySlots.retireAged, found, aged]
    · simp [KeySlots.retireAged, found, aged]

theorem slots_retire_all (now : Instant) (peers : List NodeId) (manager : SessionManager) (other : NodeId) :
    (peers.foldl (retireAged maxAge now) manager).slots other =
      if other ∈ peers then (manager.slots other).retireAged maxAge now else manager.slots other := by
  induction peers generalizing manager with
  | nil => simp
  | cons peer rest ih =>
    rw [List.foldl_cons, ih, slots_retire_aged]
    by_cases same : other = peer
    · subst same
      simp [retire_aged_again]
    · simp [same]

theorem retire_aged_young {maxAge : Nat} {other : NodeId} (young : other ∉ manager.agedPeers maxAge now) :
    (manager.slots other).retireAged maxAge now = manager.slots other := by
  have stored : (manager.slots other).session = manager.sessions.lookup other := rfl
  cases found : manager.sessions.lookup other with
  | none => simp [KeySlots.retireAged, stored, found]
  | some session =>
    have notAged : ¬ maxAge ≤ now - session.createdAt := fun aged => young <| List.mem_map.mpr
      ⟨⟨other, session⟩, List.mem_filter.mpr ⟨AList.mem_lookup_iff.mp found, decide_eq_true aged⟩, rfl⟩
    simp [KeySlots.retireAged, stored, found, notAged]

theorem slots_sweep {maxAge : Nat} :
    ∃ timedOut, ∀ other, (manager.sweep maxAge now).slots other = (manager.slots other).sweep maxAge now timedOut := by
  refine ⟨decide (0 < manager.pendingEphemeral.entries.length - (Table.retain
    (fun _ pending => now - pending.createdAt < pendingEphemeralTtl) manager.pendingEphemeral).entries.length),
    fun other => ?_⟩
  simp only [sweep, slots, KeySlots.sweep, Table.lookup_retain, decide_eq_true_eq]
  split_ifs with timedOut
  · rw [Table.lookup_retain]
  · rfl

theorem slots_evict {maxAge : Nat} : ∃ timedOut, ∀ other, (manager.evictStale maxAge now).1.slots other =
      ((manager.slots other).retireAged maxAge now).sweep maxAge now timedOut := by
  obtain ⟨timedOut, swept⟩ := slots_sweep
  refine ⟨timedOut, fun other => ?_⟩
  rw [evictStale, swept, slots_retire_all]
  split_ifs with aged
  · rfl
  · rw [retire_aged_young aged]

inductive SessionCall where
  | establish (peer : NodeId) (peerPub : Key32) (now : Instant)
  | initiate (peer : NodeId) (secret : Key32) (now : Instant)
  | accept (peer : NodeId) (peerPub : Key32) (adopt : KeyAdoption) (secret : Key32) (now : Instant)
  | complete (peer : NodeId) (peerPub : Key32) (now : Instant)
  | remove (peer : NodeId) (now : Instant)
  | evict (maxAge : Nat) (now : Instant)
  | sealFor (peer : NodeId) (plaintext aad : Bytes)
  | openFrom (peer : NodeId) (message aad : Bytes) (now : Instant)

def SessionManager.call (manager : SessionManager) : SessionCall → SessionManager
  | .establish peer peerPub now => (manager.establishSession prims peer peerPub now).1
  | .initiate peer secret now => (manager.initiateEphemeralExchange prims peer secret now).1
  | .accept peer peerPub adopt secret now => (manager.acceptEphemeralExchange prims peer peerPub adopt secret now).1
  | .complete peer peerPub now => (manager.completeEphemeralSession prims peer peerPub now).1
  | .remove peer now => manager.removeSession peer now
  | .evict maxAge now => (manager.evictStale maxAge now).1
  | .sealFor peer plaintext aad => (manager.seal prims peer plaintext aad).1
  | .openFrom peer message aad now => (manager.open prims peer message aad now).1

end SwarmLlm.Crypto
