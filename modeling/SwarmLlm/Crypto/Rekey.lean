import SwarmLlm.Lib.Rekey
import SwarmLlm.Crypto.NonceReuse
import SwarmLlm.Crypto.OpenReplay

namespace SwarmLlm.Crypto

open Lib List Function KeySlots SessionManager

variable (prims : Primitives)

structure EphemeralKeyExchange where
  sessionId : Uuid
  nodeId : NodeId
  ephemeralPubkey : Key32
  isInitiator : Bool
  deriving DecidableEq

structure SessionKeyConfirm where
  sessionId : Uuid
  nodeId : NodeId
  message : Bytes
  deriving DecidableEq

-- The messages of a link that the session layer handles: key exchanges, their
-- confirmations, and whatever else is sealed.
inductive SwarmMessage where
  | keyExchange (exchange : EphemeralKeyExchange)
  | keyConfirm (confirm : SessionKeyConfirm)
  | traffic (message aad : Bytes)
  deriving DecidableEq

def SwarmMessage.body : SwarmMessage → Option Bytes
  | .keyExchange _ => none
  | .keyConfirm confirm => some confirm.message
  | .traffic message _ => some message

-- The handlers of the daemon's dispatch loop. A reply that cannot be sent is a
-- message that is lost.
def dispatch (manager : SessionManager) (ourId sender : NodeId) (adopt : KeyAdoption) (secret : Key32) (now : Instant) :
    SwarmMessage → SessionManager × List SwarmMessage
  | .keyExchange exchange =>
    if sender ≠ exchange.nodeId then (manager, [])
    else if exchange.nodeId = ourId then (manager, [])
    else if exchange.isInitiator then
      let (manager, responsePub) :=
        manager.acceptEphemeralExchange prims exchange.nodeId exchange.ephemeralPubkey adopt secret now
      (manager, [.keyExchange ⟨exchange.sessionId, ourId, responsePub, false⟩])
    else
      let (manager, confirmation) :=
        manager.completeEphemeralSession prims exchange.nodeId exchange.ephemeralPubkey now
      (manager, (confirmation.map fun message => .keyConfirm ⟨exchange.sessionId, ourId, message⟩).toList)
  | .keyConfirm confirm =>
    if sender ≠ confirm.nodeId then (manager, [])
    else ((manager.open prims confirm.nodeId confirm.message sessionConfirmMarker now).1, [])
  | .traffic message aad => ((manager.open prims sender message aad now).1, [])

-- Two nodes and every message either has sent. The last two components are not
-- part of the nodes: the exchange each side initiated last, and the exchange its
-- unconfirmed key answers.
structure Link where
  manager : Side → SessionManager
  sent : List (Side × SwarmMessage)
  initiated : Side → Uuid
  answered : Side → Uuid

open Link

inductive LinkEvent where
  | initiate (side : Side) (secret : Key32) (sessionId : Uuid) (now : Instant)
  | deliver (side : Side) (message : SwarmMessage) (secret : Key32) (now : Instant)
  | send (side : Side) (plaintext aad : Bytes)

variable (ids : Side → NodeId)

def answers (message : SwarmMessage) : Option Uuid :=
  match message with
  | .keyExchange exchange => if exchange.isInitiator then some exchange.sessionId else none
  | _ => none

def Link.step (world : Link) : LinkEvent → Link
  | .initiate side secret sessionId now =>
    let (manager, pub) := (world.manager side).initiateEphemeralExchange prims (ids side.peer) secret now
    { world with
      manager := Function.update world.manager side manager
      sent := (side, .keyExchange ⟨sessionId, ids side, pub, true⟩) :: world.sent
      initiated := Function.update world.initiated side sessionId }
  | .deliver side message secret now =>
    if (side.peer, message) ∈ world.sent then
      let (manager, replies) :=
        dispatch prims (world.manager side) (ids side) (ids side.peer) .onConfirmation secret now message
      { world with
        manager := Function.update world.manager side manager
        sent := replies.map (fun reply => (side, reply)) ++ world.sent
        answered := Function.update world.answered side ((answers message).getD (world.answered side)) }
    else world
  | .send side plaintext aad =>
    let (manager, result) := (world.manager side).seal prims (ids side.peer) plaintext aad
    { world with
      manager := Function.update world.manager side manager
      sent := (result.toOption.map fun message => (side, .traffic message aad)).toList ++ world.sent }

def Link.slots (world : Link) (side : Side) : KeySlots := (world.manager side).slots (ids side.peer)

def KeySlots.tried (slots : KeySlots) (now : Instant) : List Key32 :=
  (slots.session.map (·.cipherKey)).toList ++ (slots.unconfirmed.map (·.cipherKey)).toList ++
    (((slots.session.bind (·.previous)).filter fun key => now - key.retiredAt ≤ previousKeyGrace).map
      (·.cipherKey)).toList ++
    ((slots.retired.filter fun key => now - key.retiredAt ≤ previousKeyGrace).map (·.cipherKey)).toList

def exchangeKey (secret peerPub : Key32) : Key32 :=
  deriveCipherKey prims (prims.diffieHellman secret peerPub) (prims.publicKey secret) peerPub

def Symmetric : Prop :=
  ∀ first second, prims.diffieHellman first (prims.publicKey second) = prims.diffieHellman second (prims.publicKey first)

def DecryptsSealed : Prop :=
  ∀ key nonce aad plaintext ciphertext, prims.encrypt key nonce aad plaintext = some ciphertext →
    prims.decrypt key nonce aad ciphertext = some plaintext

def agreed (symmetric : Symmetric prims) : Agreed Key32 Key32 Key32 where
  pub := prims.publicKey
  derive := exchangeKey prims
  agree := fun first second => by
    rw [exchangeKey, exchangeKey, symmetric first second, derive_cipher_key_comm]

def KeySlots.keys (slots : KeySlots) : Keys Key32 Key32 :=
  ⟨slots.session.map (·.cipherKey), slots.unconfirmed.map (·.cipherKey),
    (slots.session.bind (·.previous)).map (·.cipherKey), slots.pending.map (·.secret)⟩

def SwarmMessage.wire : SwarmMessage → Wire Key32 Uuid Bytes
  | .keyExchange exchange =>
    if exchange.isInitiator then .request exchange.sessionId exchange.ephemeralPubkey
    else .response exchange.sessionId exchange.ephemeralPubkey
  | .keyConfirm confirm => .sealed confirm.message
  | .traffic message _ => .sealed message

def Link.protocol (world : Link) : Rekey Key32 Key32 Key32 Uuid Bytes where
  keys := fun side => (world.slots ids side).keys
  sent := world.sent.map fun entry => (entry.1, entry.2.wire)
  initiated := world.initiated
  answered := world.answered

variable {world : Link} {now : Instant} (slots : KeySlots) (peerPub cipherKey : Key32)

theorem keys_draw_nonce : slots.drawNonce.keys = slots.keys := by
  have unchanged : ∀ session : CachedSession, session.nextNonce.1.cipherKey = session.cipherKey ∧
      session.nextNonce.1.previous = session.previous := by
    intro session
    rw [CachedSession.nextNonce]
    split <;> exact ⟨rfl, rfl⟩
  cases found : slots.session with
  | none => simp [KeySlots.keys, KeySlots.drawNonce, found]
  | some session => simp [KeySlots.keys, KeySlots.drawNonce, found, unchanged]

theorem keys_install (window : ReplayWindow) (now : Instant) :
    (slots.install cipherKey window now).keys = ⟨some cipherKey, slots.keys.parked, slots.keys.live, slots.keys.pending⟩ := by
  cases found : slots.session with
  | none => simp [KeySlots.keys, KeySlots.install, found]
  | some session => simp [KeySlots.keys, KeySlots.install, found, CachedSession.retire]

theorem keys_park (now : Instant) :
    (slots.park cipherKey now).keys = { slots.keys with parked := some cipherKey, pending := none } := by
  cases found : slots.pending with
  | none => simp [KeySlots.keys, KeySlots.park, found]
  | some pending => simp [KeySlots.keys, KeySlots.park, found, KeySlots.dropPending]

theorem keys_complete {pending : PendingEphemeral} (peerPub : Key32) (now : Instant)
    (waiting : slots.pending = some pending) (paired : slots.pendingPub = some (prims.publicKey pending.secret)) :
    (slots.complete prims peerPub now).keys =
      ⟨some (exchangeKey prims pending.secret peerPub), slots.keys.parked, slots.keys.live, none⟩ := by
  simp only [complete, waiting, paired, keys_draw_nonce, keys_install]
  rfl

variable {aad plaintext : Bytes}

theorem keys_opens {slots after : KeySlots} {message : Bytes} (opens : Opens prims slots message aad now after plaintext) :
    after.keys = slots.keys ∨ ∃ key, slots.keys.parked = some key ∧ OpensUnder prims key message ∧
        after.keys = ⟨some key, none, slots.keys.live, slots.keys.pending⟩ := by
  cases opens with
  | live session window _ found opened => exact .inl (by simp [KeySlots.keys, found])
  | unconfirmed key window _ found opened =>
    obtain ⟨_, decrypted, _⟩ := try_open_some opened
    refine .inr ⟨key.cipherKey, by simp [KeySlots.keys, found], ⟨aad, plaintext, decrypted⟩, ?_⟩
    rw [keys_install]
    rfl
  | previous session previous window _ found kept inGrace opened => exact .inl (by simp [KeySlots.keys, found, kept])
  | retired key window _ found inGrace opened => exact .inl rfl

def SwarmMessage.exchangeId : SwarmMessage → Option Uuid
  | .keyExchange exchange => some exchange.sessionId
  | _ => none

-- Session ids are drawn afresh, and so are the ephemeral secrets: the key derived
-- in answering a request is held nowhere and nothing sent before opens under it.
def DrawsFresh (world : Link) : LinkEvent → Prop
  | .initiate _ _ sessionId _ => ∀ entry ∈ world.sent, entry.2.exchangeId ≠ some sessionId
  | .deliver side (.keyExchange exchange) secret _ => exchange.isInitiator = true →
      exchangeKey prims secret exchange.ephemeralPubkey ∉ (world.slots ids side).held.map Prod.fst ∧
        exchangeKey prims secret exchange.ephemeralPubkey ∉ (world.slots ids side.peer).held.map Prod.fst ∧
        ∀ entry ∈ world.sent, ∀ body ∈ entry.2.body, ¬ OpensUnder prims (exchangeKey prims secret exchange.ephemeralPubkey) body
  | _ => True

-- A request replaces no unconfirmed key that the peer needs, an answer reaches the
-- exchange it answers, and a key that takes effect pushes out no key that the peer
-- needs.
def Orderly (world : Link) : LinkEvent → Prop
  | .deliver side message _ _ => (side.peer, message) ∈ world.sent →
      match message with
      | .keyExchange exchange =>
        if exchange.isInitiator then (world.protocol ids).Replaceable side
        else (world.slots ids side).pending.isSome = true →
          exchange.sessionId = world.initiated side ∧ (world.protocol ids).Spare side
      | .keyConfirm confirm => ∀ key ∈ (world.slots ids side).keys.parked,
          OpensUnder prims key confirm.message → (world.protocol ids).Spare side
      | .traffic body _ => ∀ key ∈ (world.slots ids side).keys.parked,
          OpensUnder prims key body → (world.protocol ids).Spare side
  | _ => True

variable {side : Side} {before : Link}

theorem protocol_keys (after : Link) (manager : SessionManager) (slots : KeySlots)
    (managers : after.manager = Function.update before.manager side manager) (changed : manager.slots (ids side.peer) = slots) :
    (after.protocol ids).keys = Function.update (before.protocol ids).keys side slots.keys := by
  funext other
  rcases side_cases side other with rfl | rfl
  · simp only [Link.protocol, Link.slots, managers, update_self, changed]
  · simp only [Link.protocol, Link.slots, managers, Rekey.update_peer]

theorem protocol_eq {keys : Side → Keys Key32 Key32} {sent : List (Side × Wire Key32 Uuid Bytes)}
    {initiated answered : Side → Uuid} (sameKeys : (world.protocol ids).keys = keys)
    (sameSent : (world.sent.map fun entry => (entry.1, entry.2.wire)) = sent) (sameInitiated : world.initiated = initiated)
    (sameAnswered : world.answered = answered) : world.protocol ids = ⟨keys, sent, initiated, answered⟩ := by
  subst sameKeys sameSent sameInitiated sameAnswered
  rfl

structure KeySlots.Sound (slots : KeySlots) : Prop where
  live : slots.session.isSome = true
  paired : ∀ pending, slots.pending = some pending → slots.pendingPub = some (prims.publicKey pending.secret)

variable {prims}

theorem sound_install {slots : KeySlots} {cipherKey : Key32} {window : ReplayWindow} (sound : slots.Sound prims) :
    (slots.install cipherKey window now).Sound prims :=
  ⟨rfl, sound.paired⟩

variable {now : Instant}

theorem sound_initiate (secret : Key32) (sound : slots.Sound prims) : (slots.initiate prims secret now).Sound prims :=
  ⟨sound.live, fun _ waiting => by cases waiting; rfl⟩

theorem sound_draw_nonce (sound : slots.Sound prims) : slots.drawNonce.Sound prims :=
  ⟨by rw [drawNonce, Option.isSome_map]; exact sound.live, sound.paired⟩

theorem sound_drop_pending {slots : KeySlots} (sound : slots.Sound prims) : slots.dropPending.Sound prims :=
  ⟨sound.live, fun _ waiting => nomatch waiting⟩

theorem sound_complete (sound : slots.Sound prims) : (slots.complete prims peerPub now).Sound prims := by
  unfold complete
  split
  · exact sound
  · exact ⟨sound.live, fun _ waiting => nomatch waiting⟩
  · exact sound_draw_nonce _ (sound_install (sound_drop_pending sound))

theorem sound_park (sound : slots.Sound prims) : (slots.park cipherKey now).Sound prims := by
  cases waiting : slots.pending.isSome with
  | true =>
    simp only [park, waiting, if_true]
    exact ⟨sound.live, (sound_drop_pending sound).paired⟩
  | false =>
    simp only [park, waiting, Bool.false_eq_true, if_false]
    exact { sound with }

theorem sound_opens {slots after : KeySlots} {message : Bytes}
    (opens : Opens prims slots message aad now after plaintext) (sound : slots.Sound prims) : after.Sound prims := by
  cases opens with
  | live | unconfirmed | previous => exact ⟨rfl, sound.paired⟩
  | retired => exact { sound with }

variable (prims)

structure Wired (world : Link) : Prop where
  sound : ∀ side, (world.slots ids side).Sound prims
  genuine : ∀ side exchange, (side, .keyExchange exchange) ∈ world.sent → exchange.nodeId = ids side

section Steps

variable (symmetric : Symmetric prims) (distinct : ids .a ≠ ids .b)
  {exchange : EphemeralKeyExchange} {message : SwarmMessage} {now : Instant} {secret : Key32} {side : Side} {world : Link}

def Link.Moves (world : Link) (event : LinkEvent) : Prop :=
  Rekey.Move (agreed prims symmetric) (OpensUnder prims) (world.protocol ids) ((world.step prims ids event).protocol ids)

theorem initiate_moves {sessionId : Uuid} (fresh : DrawsFresh prims ids world (.initiate side secret sessionId now)) :
    world.Moves prims ids symmetric (.initiate side secret sessionId now) := by
  have unsent : ∀ other pub, (other, Wire.request sessionId pub) ∉ (world.protocol ids).sent ∧
      (other, Wire.response sessionId pub) ∉ (world.protocol ids).sent := by
    refine fun other pub => ⟨fun listed => ?_, fun listed => ?_⟩
    all_goals
      obtain ⟨⟨sender, message⟩, inSent, same⟩ := mem_map.mp listed
      have unlike := fresh (sender, message) inSent
      have wire := (Prod.mk.inj same).2
      cases message with
      | keyExchange exchange =>
        simp only [SwarmMessage.wire] at wire
        split at wire
        all_goals
          cases wire
          try exact unlike rfl
      | keyConfirm | traffic => cases wire
  have changed := congrFun (slots_initiate prims (world.manager side) (ids side.peer) secret now) (ids side.peer)
  rw [update_self] at changed
  have keys := protocol_keys ids (world.step prims ids (.initiate side secret sessionId now)) _ _ rfl changed
  rw [Link.Moves, protocol_eq ids keys rfl rfl rfl]
  exact .initiate side secret sessionId (fun other pub => (unsent other pub).1) (fun other pub => (unsent other pub).2)

include distinct in
theorem ids_apart : ids side.peer ≠ ids side := by
  cases side with
  | a => exact distinct.symm
  | b => exact distinct

def Link.dispatched (world : Link) (side : Side) (message : SwarmMessage) (secret : Key32) (now : Instant) :
    SessionManager × List SwarmMessage :=
  dispatch prims (world.manager side) (ids side) (ids side.peer) .onConfirmation secret now message

theorem protocol_deliver (arrived : (side.peer, message) ∈ world.sent) :
    (world.step prims ids (.deliver side message secret now)).protocol ids = ⟨Function.update (world.protocol ids).keys side
          ((world.dispatched prims ids side message secret now).1.slots (ids side.peer)).keys,
        ((world.dispatched prims ids side message secret now).2.map fun reply => (side, reply.wire)) ++ (world.protocol ids).sent,
        world.initiated, Function.update world.answered side ((answers message).getD (world.answered side))⟩ := by
  have stepped : world.step prims ids (.deliver side message secret now) =
      { world with
        manager := Function.update world.manager side (world.dispatched prims ids side message secret now).1
        sent := (world.dispatched prims ids side message secret now).2.map (fun reply => (side, reply)) ++ world.sent
        answered := Function.update world.answered side ((answers message).getD (world.answered side)) } := by
    simp only [step, if_pos arrived]
    rfl
  refine protocol_eq ids ?_ ?_ ?_ ?_
  · exact protocol_keys ids _ _ _ (by rw [stepped]) rfl
  · rw [stepped, map_append, map_map]
    rfl
  · rw [stepped]
  · rw [stepped]

theorem deliver_stays (arrived : (side.peer, message) ∈ world.sent) (unanswered : answers message = none)
    (keys : ((world.dispatched prims ids side message secret now).1.slots (ids side.peer)).keys = (world.slots ids side).keys)
    (silent : (world.dispatched prims ids side message secret now).2 = []) :
    world.Moves prims ids symmetric (.deliver side message secret now) := by
  have sameKeys : Function.update (world.protocol ids).keys side (world.slots ids side).keys = (world.protocol ids).keys :=
    update_eq_self side _
  rw [Link.Moves, protocol_deliver prims ids arrived, keys, silent, unanswered, sameKeys, Option.getD_none, update_eq_self]
  exact .stay

theorem unused_key (initiator : exchange.isInitiator = true)
    (fresh : DrawsFresh prims ids world (.deliver side (.keyExchange exchange) secret now)) :
    Rekey.Unused (OpensUnder prims) (world.protocol ids) (exchangeKey prims secret exchange.ephemeralPubkey) := by
  obtain ⟨here, there, unopened⟩ := fresh initiator
  have held : ∀ (slots : KeySlots) (key : Key32), Rekey.Holds slots.keys key → key ∈ slots.held.map Prod.fst := by
    intro slots key holds
    simp only [held, live, parked, superseded, map_append, mem_append]
    rcases holds with live | parked | previous
    · obtain ⟨session, found, same⟩ := Option.map_eq_some_iff.mp live
      simp [found, same]
    · obtain ⟨unconfirmed, found, same⟩ := Option.map_eq_some_iff.mp parked
      simp [found, same]
    · obtain ⟨superseded, found, same⟩ := Option.map_eq_some_iff.mp previous
      simp [found, same]
  constructor
  · intro other holds
    rcases side_cases side other with rfl | rfl
    · exact here (held _ _ holds)
    · exact there (held _ _ holds)
  intro other body listed
  obtain ⟨⟨sender, message⟩, inSent, same⟩ := mem_map.mp listed
  have wire := (Prod.mk.inj same).2
  refine unopened (sender, message) inSent body ?_
  cases message with
  | keyExchange other =>
    simp only [SwarmMessage.wire] at wire
    split at wire <;> cases wire
  | keyConfirm | traffic =>
    cases wire
    rfl

variable {ids prims}

include distinct in
theorem request_moves (wired : Wired prims ids world) (initiator : exchange.isInitiator = true)
    (arrived : (side.peer, .keyExchange exchange) ∈ world.sent)
    (fresh : DrawsFresh prims ids world (.deliver side (.keyExchange exchange) secret now))
    (orderly : Orderly prims ids world (.deliver side (.keyExchange exchange) secret now)) :
    world.Moves prims ids symmetric (.deliver side (.keyExchange exchange) secret now) := by
  have genuine := wired.genuine side.peer exchange arrived
  have replaceable : (world.protocol ids).Replaceable side := by
    have allowed := orderly arrived
    simpa only [initiator, if_true] using allowed
  have unused := unused_key prims ids initiator fresh
  have asked : (side.peer, Wire.request exchange.sessionId exchange.ephemeralPubkey) ∈ (world.protocol ids).sent := by
    refine mem_map.mpr ⟨_, arrived, ?_⟩
    simp only [SwarmMessage.wire, initiator, if_true]
  have handled : world.dispatched prims ids side (.keyExchange exchange) secret now =
      (((world.manager side).acceptEphemeralExchange prims (ids side.peer) exchange.ephemeralPubkey .onConfirmation secret
        now).1, [.keyExchange ⟨exchange.sessionId, ids side, ((world.manager side).acceptEphemeralExchange prims
          (ids side.peer) exchange.ephemeralPubkey .onConfirmation secret now).2, false⟩]) := by
    simp only [dispatched, dispatch, genuine, initiator, if_neg (ids_apart ids distinct), ne_eq,
      not_true_eq_false, if_false, if_true]
  have changed := congrFun (slots_accept prims (world.manager side) (ids side.peer) exchange.ephemeralPubkey
    .onConfirmation secret now) (ids side.peer)
  have present : ((world.manager side).slots (ids side.peer)).session.isNone = false := by
    have live := (wired.sound side).live
    rw [Link.slots] at live
    simpa using live
  rw [update_self, if_neg (by simp [present])] at changed
  have ourPub : ((world.manager side).acceptEphemeralExchange prims (ids side.peer) exchange.ephemeralPubkey .onConfirmation
      secret now).2 = prims.publicKey secret := by
    rw [acceptEphemeralExchange]
    simp only
    split <;> rfl
  rw [Link.Moves, protocol_deliver prims ids arrived, handled, changed, keys_park, ourPub]
  simp only [answers, initiator, if_true, Option.getD_some]
  exact .park side secret exchange.sessionId exchange.ephemeralPubkey asked unused replaceable

include distinct in
theorem answer_moves (wired : Wired prims ids world) (responder : exchange.isInitiator = false)
    (arrived : (side.peer, .keyExchange exchange) ∈ world.sent)
    (orderly : Orderly prims ids world (.deliver side (.keyExchange exchange) secret now)) :
    world.Moves prims ids symmetric (.deliver side (.keyExchange exchange) secret now) := by
  have genuine := wired.genuine side.peer exchange arrived
  have handled : world.dispatched prims ids side (.keyExchange exchange) secret now =
      (((world.manager side).completeEphemeralSession prims (ids side.peer) exchange.ephemeralPubkey now).1,
        (((world.manager side).completeEphemeralSession prims (ids side.peer) exchange.ephemeralPubkey now).2.map
          fun message => .keyConfirm ⟨exchange.sessionId, ids side, message⟩).toList) := by
    simp only [dispatched, dispatch, genuine, responder, if_neg (ids_apart ids distinct), ne_eq,
      not_true_eq_false, if_false, Bool.false_eq_true]
  have changed := congrFun (slots_complete prims (world.manager side) (ids side.peer) exchange.ephemeralPubkey now)
    (ids side.peer)
  rw [update_self] at changed
  have unanswered : answers (.keyExchange exchange) = none := by simp [answers, responder]
  cases waiting : (world.slots ids side).pending with
  | none =>
    have none : (world.manager side).pendingEphemeral.lookup (ids side.peer) = none := waiting
    have idle : ((world.manager side).completeEphemeralSession prims (ids side.peer) exchange.ephemeralPubkey now) =
        (world.manager side, Option.none) := by
      simp only [completeEphemeralSession, none]
    rw [idle] at handled
    exact deliver_stays prims ids symmetric arrived unanswered (by rw [handled]; rfl) (by rw [handled]; rfl)
  | some pending =>
    have allowed := orderly arrived
    simp only [responder, Bool.false_eq_true, if_false, waiting, Option.isSome_some] at allowed
    obtain ⟨matching, spare⟩ := allowed trivial
    have replied : (side.peer, Wire.response exchange.sessionId exchange.ephemeralPubkey) ∈
        (world.protocol ids).sent := by
      refine mem_map.mpr ⟨_, arrived, ?_⟩
      simp only [SwarmMessage.wire, responder, Bool.false_eq_true, if_false]
    have waitingKey : ((world.protocol ids).keys side).pending = some pending.secret := by
      simp only [protocol, KeySlots.keys, waiting, Option.map_some]
    have replies : ∀ confirmation : Option Bytes,
        ((confirmation.map fun message => SwarmMessage.keyConfirm ⟨exchange.sessionId, ids side, message⟩).toList.map
          fun reply => (side, reply.wire)) = confirmation.toList.map fun message => (side, Wire.sealed message) := by
      intro confirmation
      cases confirmation <;> rfl
    have keys := keys_complete prims (world.slots ids side) exchange.ephemeralPubkey now waiting
      ((wired.sound side).paired pending waiting)
    rw [Link.Moves, protocol_deliver prims ids arrived, handled, changed, unanswered, replies]
    rw [show ((world.manager side).slots (ids side.peer)) = world.slots ids side from rfl, keys, Option.getD_none, update_eq_self]
    exact .complete side pending.secret exchange.sessionId exchange.ephemeralPubkey _ replied waitingKey matching.symm spare

theorem open_moves {body : Bytes} (aad : Bytes) (arrived : (side.peer, message) ∈ world.sent) (sealed : message.wire = .sealed body)
    (unanswered : answers message = none)
    (handled : world.dispatched prims ids side message secret now =
      (((world.manager side).open prims (ids side.peer) body aad now).1, []))
    (spare : ∀ key ∈ (world.slots ids side).keys.parked, OpensUnder prims key body → (world.protocol ids).Spare side) :
    world.Moves prims ids symmetric (.deliver side message secret now) := by
  rcases slots_open (world.manager side) (ids side.peer) body aad now with
    ⟨slots, plaintext, opens, _, changed⟩ | ⟨_, _, same⟩
  · have here := congrFun changed (ids side.peer)
    rw [update_self] at here
    rcases keys_opens prims opens with unchanged | ⟨key, parked, opened, promoted⟩
    · exact deliver_stays prims ids symmetric arrived unanswered (by rw [handled, here, unchanged]; rfl) (by rw [handled])
    have arrivedBody : (side.peer, Wire.sealed body) ∈ (world.protocol ids).sent :=
      mem_map.mpr ⟨_, arrived, by rw [sealed]⟩
    rw [Link.Moves, protocol_deliver prims ids arrived, handled, here, promoted, unanswered, Option.getD_none, update_eq_self]
    exact .promote side key body arrivedBody opened parked (spare key parked opened)
  · exact deliver_stays prims ids symmetric arrived unanswered (by rw [handled, same]; rfl) (by rw [handled])

include distinct in
theorem deliver_moves (wired : Wired prims ids world) (fresh : DrawsFresh prims ids world (.deliver side message secret now))
    (orderly : Orderly prims ids world (.deliver side message secret now)) :
    world.Moves prims ids symmetric (.deliver side message secret now) := by
  by_cases arrived : (side.peer, message) ∈ world.sent
  · cases message with
    | keyExchange exchange =>
      cases role : exchange.isInitiator with
      | true => exact request_moves symmetric distinct wired role arrived fresh orderly
      | false => exact answer_moves symmetric distinct wired role arrived orderly
    | keyConfirm confirm =>
      by_cases genuine : ids side.peer = confirm.nodeId
      · refine open_moves symmetric sessionConfirmMarker arrived rfl rfl ?_ (orderly arrived)
        simp only [dispatched, dispatch, genuine, ne_eq, not_true_eq_false, if_false]
      · have dropped : world.dispatched prims ids side (.keyConfirm confirm) secret now = (world.manager side, []) := by
          simp only [dispatched, dispatch, genuine, ne_eq, not_false_eq_true, if_true]
        exact deliver_stays prims ids symmetric arrived rfl (by rw [dropped]; rfl) (by rw [dropped])
    | traffic body aad => exact open_moves symmetric aad arrived rfl rfl rfl (orderly arrived)
  · rw [Link.Moves, step, if_neg arrived]
    exact .stay

theorem send_moves (oneKey : OneKey prims) (decrypts : DecryptsSealed prims) :
    world.Moves prims ids symmetric (.send side plaintext aad) := by
  have changed := congrFun (slots_seal prims (world.manager side) (ids side.peer) plaintext aad) (ids side.peer)
  rw [update_self] at changed
  have keys := protocol_keys ids (world.step prims ids (.send side plaintext aad)) _ _ rfl changed
  rw [keys_draw_nonce] at keys
  have unchanged : Function.update (world.protocol ids).keys side ((world.manager side).slots (ids side.peer)).keys =
      (world.protocol ids).keys := update_eq_self side _
  rw [unchanged] at keys
  cases sealed : ((world.manager side).seal prims (ids side.peer) plaintext aad).2.toOption with
  | none =>
    have silent : (world.step prims ids (.send side plaintext aad)).sent = world.sent := by
      simp only [step, sealed, Option.map_none, Option.toList_none, nil_append]
    rw [Link.Moves, protocol_eq ids keys (by rw [silent]) rfl rfl]
    exact .stay
  | some message =>
    have sent : (world.step prims ids (.send side plaintext aad)).sent = (side, .traffic message aad) :: world.sent := by
      simp only [step, sealed, Option.map_some, Option.toList_some, singleton_append]
    rw [Link.Moves, protocol_eq ids keys (by rw [sent, map_cons]) rfl rfl]
    refine .send side message fun key opened => ?_
    obtain ⟨session, ciphertext, found, _, encrypted, rfl⟩ := seal_result sealed
    have ours : OpensUnder prims session.cipherKey (nonceBytes session.sendNonce ++ ciphertext) := by
      refine ⟨aad, plaintext, ?_⟩
      rw [take_left' nonce_bytes_length, drop_left' nonce_bytes_length]
      exact decrypts _ _ _ _ _ encrypted
    rw [← oneKey _ _ _ ours opened]
    have live : (world.slots ids side).session = some session := found
    simp only [protocol, KeySlots.keys, live, Option.map_some]

include distinct in
theorem step_moves (oneKey : OneKey prims) (decrypts : DecryptsSealed prims) {event : LinkEvent} (wired : Wired prims ids world)
    (fresh : DrawsFresh prims ids world event) (orderly : Orderly prims ids world event) :
    world.Moves prims ids symmetric event := by
  cases event with
  | initiate side secret sessionId now => exact initiate_moves prims ids symmetric fresh
  | deliver side message secret now =>
    exact deliver_moves symmetric distinct wired fresh orderly
  | send side plaintext aad => exact send_moves symmetric oneKey decrypts

include distinct in
theorem dispatched_sound (sound : (world.slots ids side).Sound prims) :
    ((world.dispatched prims ids side message secret now).1.slots (ids side.peer)).Sound prims := by
  have opened : ∀ body aad, (((world.manager side).open prims (ids side.peer) body aad now).1.slots
      (ids side.peer)).Sound prims := by
    intro body aad
    rcases slots_open (world.manager side) (ids side.peer) body aad now with
      ⟨slots, plaintext, opens, _, changed⟩ | ⟨_, _, same⟩
    · rw [changed, update_self]
      exact sound_opens opens sound
    · rw [same]
      exact sound
  cases message with
  | keyExchange exchange =>
    by_cases genuine : ids side.peer = exchange.nodeId
    · cases role : exchange.isInitiator with
      | true =>
        simp only [dispatched, dispatch, ← genuine, role, if_neg (ids_apart ids distinct), ne_eq,
          not_true_eq_false, if_false, if_true, slots_accept, update_self]
        split
        · exact sound_install sound
        · exact sound_park _ _ sound
      | false =>
        simp only [dispatched, dispatch, ← genuine, role, if_neg (ids_apart ids distinct), ne_eq,
          not_true_eq_false, if_false, Bool.false_eq_true, slots_complete, update_self]
        exact sound_complete _ _ sound
    · simp only [dispatched, dispatch, genuine, ne_eq, not_false_eq_true, if_true]
      exact sound
  | keyConfirm confirm =>
    by_cases genuine : ids side.peer = confirm.nodeId
    · simp only [dispatched, dispatch, ← genuine, ne_eq, not_true_eq_false, if_false]
      exact opened _ _
    · simp only [dispatched, dispatch, genuine, ne_eq, not_false_eq_true, if_true]
      exact sound
  | traffic body aad => exact opened body aad

theorem dispatched_genuine (reply : EphemeralKeyExchange)
    (replied : .keyExchange reply ∈ (world.dispatched prims ids side message secret now).2) : reply.nodeId = ids side := by
  cases message with
  | keyExchange exchange =>
    simp only [dispatched, dispatch] at replied
    split at replied
    · cases replied
    split at replied
    · cases replied
    · split at replied
      · cases mem_singleton.mp replied
        rfl
      · simp at replied
  | keyConfirm confirm =>
    simp only [dispatched, dispatch] at replied
    split at replied <;> cases replied
  | traffic body aad => cases replied

theorem wired_after (after : Link) (manager : SessionManager) (sent : List SwarmMessage)
    (wired : Wired prims ids before) (managers : after.manager = Function.update before.manager side manager)
    (grown : after.sent = sent.map (fun reply => (side, reply)) ++ before.sent)
    (sound : (manager.slots (ids side.peer)).Sound prims)
    (genuine : ∀ exchange, .keyExchange exchange ∈ sent → exchange.nodeId = ids side) : Wired prims ids after where
  sound := by
    intro other
    rcases side_cases side other with rfl | rfl
    · simpa only [Link.slots, managers, update_self] using sound
    · simpa only [Link.slots, managers, Rekey.update_peer] using wired.sound side.peer
  genuine := by
    intro other exchange listed
    rw [grown, mem_append] at listed
    rcases listed with new | old
    · obtain ⟨reply, inReplies, same⟩ := mem_map.mp new
      cases same
      exact genuine exchange inReplies
    · exact wired.genuine other exchange old

include distinct in
theorem wired_step {event : LinkEvent} (wired : Wired prims ids world) : Wired prims ids (world.step prims ids event) := by
  cases event with
  | initiate side secret sessionId now =>
    refine wired_after _ ((world.manager side).initiateEphemeralExchange prims (ids side.peer) secret now).1
      [.keyExchange ⟨sessionId, ids side, prims.publicKey secret, true⟩] wired rfl rfl ?_ fun exchange listed => ?_
    · rw [slots_initiate, update_self]
      exact sound_initiate _ _ (wired.sound side)
    · cases mem_singleton.mp listed
      rfl
  | deliver side message secret now =>
    by_cases arrived : (side.peer, message) ∈ world.sent
    · refine wired_after _ (world.dispatched prims ids side message secret now).1
        (world.dispatched prims ids side message secret now).2 wired ?_ ?_
        (dispatched_sound distinct (wired.sound side)) dispatched_genuine
      all_goals
        simp only [step, if_pos arrived]
        rfl
    · rw [step, if_neg arrived]
      exact wired
  | send side plaintext aad =>
    refine wired_after _ ((world.manager side).seal prims (ids side.peer) plaintext aad).1
      (((world.manager side).seal prims (ids side.peer) plaintext aad).2.toOption.map
        fun message => .traffic message aad).toList wired rfl ?_ ?_ fun exchange listed => ?_
    · simp only [step]
      cases ((world.manager side).seal prims (ids side.peer) plaintext aad).2.toOption <;> rfl
    · rw [slots_seal, update_self]
      exact sound_draw_nonce _ (wired.sound side)
    · simp at listed

end Steps

structure Established (world : Link) (key : Key32) : Prop where
  live : ∀ side, (world.slots ids side).session.map (·.cipherKey) = some key
  unconfirmed : ∀ side, (world.slots ids side).unconfirmed = none
  pending : ∀ side, (world.slots ids side).pending = none
  quiet : world.sent = []

variable {key : Key32}

theorem established_wired (start : Established ids world key) : Wired prims ids world where
  sound := by
    intro side
    refine ⟨?_, fun pending waiting => ?_⟩
    · rw [← Option.isSome_map, start.live side]
      rfl
    · rw [start.pending side] at waiting
      cases waiting
  genuine := by
    intro side exchange listed
    rw [start.quiet] at listed
    cases listed

theorem established_inv (symmetric : Symmetric prims) (start : Established ids world key) :
    Rekey.Inv (agreed prims symmetric) (OpensUnder prims) (world.protocol ids) where
  covered := by
    intro side sealing live
    have same : some key = some sealing := (start.live side).symm.trans live
    exact .inl ((start.live side.peer).trans same)
  backed := by
    intro side sealing message parked
    simp only [protocol, KeySlots.keys, start.unconfirmed, Option.map_none] at parked
    cases parked
  asked := by
    intro side secret pub waiting
    simp only [protocol, KeySlots.keys, start.pending, Option.map_none] at waiting
    cases waiting
  awaited := by
    intro side secret pub waiting
    simp only [protocol, KeySlots.keys, start.pending, Option.map_none] at waiting
    cases waiting

def NoneExpired (world : Link) (now : Instant) : Prop :=
  ∀ side, ∀ previous ∈ (world.slots ids side).session.bind (·.previous), now - previous.retiredAt ≤ previousKeyGrace

theorem holds_tried (fresh : NoneExpired ids world now)
    (holds : Rekey.Holds (world.slots ids side).keys key) : key ∈ (world.slots ids side).tried now := by
  simp only [tried, mem_append, Option.mem_toList]
  rcases holds with live | parked | previous
  · exact .inl (.inl (.inl live))
  · exact .inl (.inl (.inr parked))
  · obtain ⟨superseded, found, same⟩ := Option.map_eq_some_iff.mp previous
    refine .inl (.inr (Option.map_eq_some_iff.mpr ⟨superseded, ?_, same⟩))
    rw [found]
    exact Option.filter_eq_some_iff.mpr ⟨rfl, decide_eq_true (fresh side superseded found)⟩

def Agree (world : Link) (now : Instant) : Prop :=
  ∀ side, ∀ session ∈ (world.slots ids side).session, session.cipherKey ∈ (world.slots ids side.peer).tried now

theorem rekey_agrees (symmetric : Symmetric prims) (oneKey : OneKey prims) (decrypts : DecryptsSealed prims)
    (distinct : ids .a ≠ ids .b) (world : Link) (key : Key32) (start : Established ids world key)
    (events : List LinkEvent) (fresh : RunMeets (step prims ids) (DrawsFresh prims ids) world events)
    (orderly : RunMeets (step prims ids) (Orderly prims ids) world events) (now : Instant)
    (young : NoneExpired ids (run (step prims ids) world events) now) :
    Agree ids (run (step prims ids) world events) now := by
  have kept := run_invariant (fun world event => DrawsFresh prims ids world event ∧ Orderly prims ids world event)
    (fun world => Wired prims ids world ∧ Rekey.Inv (agreed prims symmetric) (OpensUnder prims) (world.protocol ids))
    (fun world event inv meets => ⟨wired_step distinct inv.1, Rekey.inv_move _ _ inv.2
        (step_moves symmetric distinct oneKey decrypts inv.1 meets.1 meets.2)⟩)
    world events ⟨established_wired prims ids start, established_inv prims ids symmetric start⟩
    (run_meets_and _ _ _ fresh orderly)
  intro side session found
  have live : ((run (step prims ids) world events).slots ids side).keys.live = some session.cipherKey := by
    rw [KeySlots.keys, Option.mem_def.mp found, Option.map_some]
  exact holds_tried ids young (kept.2.covered side _ live)

theorem sample_symmetric : Symmetric samplePrims := by
  intro first second
  ext i bound
  simp only [samplePrims, id_eq, Vector.getElem_zipWith]
  rw [UInt8.add_comm]

theorem sample_decrypts : DecryptsSealed samplePrims := by
  intro key nonce aad plaintext ciphertext encrypted
  simp only [samplePrims, Option.some.injEq] at encrypted
  subst encrypted
  simp [samplePrims]

instance (key : Key32) (message : Bytes) : Decidable (OpensUnder samplePrims key message) :=
  decidable_of_iff _ (sample_opens_under).symm

instance (world : Link) : (event : LinkEvent) → Decidable (DrawsFresh samplePrims ids world event)
  | .initiate _ _ sessionId _ => inferInstanceAs (Decidable (∀ entry ∈ world.sent, entry.2.exchangeId ≠ some sessionId))
  | .deliver side (.keyExchange exchange) secret _ =>
    inferInstanceAs (Decidable (exchange.isInitiator = true →
      exchangeKey samplePrims secret exchange.ephemeralPubkey ∉ (world.slots ids side).held.map Prod.fst ∧
        exchangeKey samplePrims secret exchange.ephemeralPubkey ∉ (world.slots ids side.peer).held.map Prod.fst ∧
        ∀ entry ∈ world.sent, ∀ body ∈ entry.2.body,
          ¬ OpensUnder samplePrims (exchangeKey samplePrims secret exchange.ephemeralPubkey) body))
  | .deliver _ (.keyConfirm _) _ _ => .isTrue trivial
  | .deliver _ (.traffic _ _) _ _ => .isTrue trivial
  | .send .. => .isTrue trivial

instance (state : Rekey Key32 Key32 Key32 Uuid Bytes) (side : Side) : Decidable (state.Spare side) :=
  inferInstanceAs (Decidable (∀ key ∈ (state.keys side).previous,
    (state.keys side.peer).live ≠ some key ∧ (state.keys side.peer).parked ≠ some key))

instance (state : Rekey Key32 Key32 Key32 Uuid Bytes) (side : Side) : Decidable (state.Replaceable side) :=
  inferInstanceAs (Decidable (∀ key ∈ (state.keys side).parked, (state.keys side.peer).live ≠ some key ∧
    ((state.keys side.peer).pending = none ∨ state.initiated side.peer ≠ state.answered side)))

instance (world : Link) : (event : LinkEvent) → Decidable (Orderly samplePrims ids world event)
  | .initiate .. => .isTrue trivial
  | .deliver side (.keyExchange exchange) _ _ =>
    inferInstanceAs (Decidable ((side.peer, .keyExchange exchange) ∈ world.sent →
      if exchange.isInitiator then (world.protocol ids).Replaceable side
      else (world.slots ids side).pending.isSome = true →
        exchange.sessionId = world.initiated side ∧ (world.protocol ids).Spare side))
  | .deliver side (.keyConfirm confirm) _ _ =>
    inferInstanceAs (Decidable ((side.peer, .keyConfirm confirm) ∈ world.sent →
      ∀ key ∈ (world.slots ids side).keys.parked, OpensUnder samplePrims key confirm.message → (world.protocol ids).Spare side))
  | .deliver side (.traffic body aad) _ _ =>
    inferInstanceAs (Decidable ((side.peer, .traffic body aad) ∈ world.sent →
      ∀ key ∈ (world.slots ids side).keys.parked, OpensUnder samplePrims key body → (world.protocol ids).Spare side))
  | .send .. => .isTrue trivial

def sampleIds : Side → NodeId
  | .a => NodeId.ofByte 1
  | .b => NodeId.ofByte 2

def sampleManager : Side → SessionManager
  | .a => ((fromSecret samplePrims (sampleKey 1)).establishSession samplePrims (sampleIds .b)
      (sampleKey 2) 0).1
  | .b => ((fromSecret samplePrims (sampleKey 2)).establishSession samplePrims (sampleIds .a)
      (sampleKey 1) 0).1

def sampleLink : Link := ⟨sampleManager, [], fun _ => .nil, fun _ => .nil⟩

theorem sample_established : Established sampleIds sampleLink (sampleKey 3) := by
  constructor
  · intro side; cases side <;> decide +kernel
  · intro side; cases side <;> decide +kernel
  · intro side; cases side <;> decide +kernel
  · rfl

instance (world : Link) (now : Instant) : Decidable (NoneExpired ids world now) :=
  decidable_of_iff (∀ side ∈ [Side.a, Side.b], ∀ previous ∈ (world.slots ids side).session.bind (·.previous),
    now - previous.retiredAt ≤ previousKeyGrace) ⟨fun young side => young side (by cases side <;> decide),
      fun young side _ => young side⟩

def lateAnswer : List LinkEvent :=
  [.initiate .a (sampleKey 4) (.ofByte 1) 1,
    .deliver .b (.keyExchange ⟨.ofByte 1, sampleIds .a, sampleKey 4, true⟩) (sampleKey 5) 2,
    .initiate .a (sampleKey 7) (.ofByte 2) 3,
    .deliver .a (.keyExchange ⟨.ofByte 1, sampleIds .b, sampleKey 5, false⟩) (sampleKey 0) 4]

theorem late_answer_disagrees :
    Established sampleIds sampleLink (sampleKey 3) ∧
      RunMeets (step samplePrims sampleIds) (DrawsFresh samplePrims sampleIds) sampleLink lateAnswer ∧
      NoneExpired sampleIds (run (step samplePrims sampleIds) sampleLink lateAnswer) 5 ∧
      ¬ Agree sampleIds (run (step samplePrims sampleIds) sampleLink lateAnswer) 5 := by
  refine ⟨sample_established, by decide +kernel, by decide +kernel, fun agree => ?_⟩
  have missing := agree .a
  revert missing
  decide +kernel

-- Both ends initiate, one answer arrives twice and is confirmed once, and a
-- message of the old key arrives late.
def orderlyRekey : List LinkEvent :=
  [.send .a [1] [], .initiate .a (sampleKey 4) (.ofByte 1) 1, .initiate .b (sampleKey 9) (.ofByte 2) 1,
    .deliver .b (.keyExchange ⟨.ofByte 1, sampleIds .a, sampleKey 4, true⟩) (sampleKey 5) 2,
    .send .b [2] [],
    .deliver .a (.keyExchange ⟨.ofByte 1, sampleIds .b, sampleKey 5, false⟩) (sampleKey 0) 3,
    .deliver .a (.keyExchange ⟨.ofByte 1, sampleIds .b, sampleKey 5, false⟩) (sampleKey 0) 3,
    .deliver .b (.keyConfirm ⟨.ofByte 1, sampleIds .a, nonceBytes 0 ++ (sampleKey 9).toList ++ sessionConfirmMarker⟩)
      (sampleKey 0) 4,
    .deliver .b (.traffic (nonceBytes 0 ++ (sampleKey 3).toList ++ [1]) []) (sampleKey 0) 5,
    .deliver .a (.traffic (nonceBytes 0 ++ (sampleKey 3).toList ++ [2]) []) (sampleKey 0) 5]

theorem rekey_agrees_orderly :
    ((run (step samplePrims sampleIds) sampleLink orderlyRekey).slots sampleIds .b).keys.live = some (sampleKey 9) ∧
      Agree sampleIds (run (step samplePrims sampleIds) sampleLink orderlyRekey) 6 :=
  ⟨by decide +kernel, rekey_agrees samplePrims sampleIds sample_symmetric sample_one_key sample_decrypts (by decide)
    sampleLink (sampleKey 3) sample_established orderlyRekey (by decide +kernel) (by decide +kernel) 6 (by decide +kernel)⟩

end SwarmLlm.Crypto
