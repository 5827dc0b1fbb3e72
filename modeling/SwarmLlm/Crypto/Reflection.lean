import SwarmLlm.Crypto.NonceReuse
import SwarmLlm.Crypto.OpenReplay

namespace SwarmLlm.Crypto

open Lib List SessionManager NodeId

variable (prims : Primitives) (aad : Bytes) (now : Instant)

def inGrace (key : PreviousKey) : Bool := decide (now - key.retiredAt ≤ previousKeyGrace)

def KeySlots.tries (slots : KeySlots) (now : Instant) : List HeldKey :=
  slots.live ++ slots.parked ++
    (((slots.session.bind (·.previous)).filter (inGrace now)).map fun key => (key.cipherKey, key.replayWindow)).toList ++
    ((slots.retired.filter (inGrace now)).map fun key => (key.cipherKey, key.replayWindow)).toList

def opensWith (message aad : Bytes) (entry : HeldKey) : Bool :=
  (tryOpenWith prims entry.1 entry.2 message aad (recvNonce message)).isSome

variable {aad : Bytes} {now : Instant} (manager : SessionManager) (peer : NodeId) (message : Bytes) {key : PreviousKey}

theorem grace_young (young : now - key.retiredAt ≤ previousKeyGrace) : (some key).filter (inGrace now) = some key := by
  rw [Option.filter_some, inGrace, decide_eq_true young, if_pos rfl]

theorem grace_old (old : ¬ now - key.retiredAt ≤ previousKeyGrace) : (some key).filter (inGrace now) = none := by
  rw [Option.filter_some, inGrace, decide_eq_false old, if_neg Bool.false_ne_true]

theorem opened_some {message : Bytes} {R : Type} {key : Key32} {window : ReplayWindow} {result : Bytes × ReplayWindow → R} :
    (tryOpenWith prims key window message aad (recvNonce message) >>= fun opened => pure (result opened)).isSome =
      opensWith prims message aad (key, window) := by
  rw [opensWith]
  cases tryOpenWith prims key window message aad (recvNonce message) <;> rfl

theorem open_live_some : (manager.openLive prims peer message aad (recvNonce message)).isSome =
      (manager.slots peer).live.any (opensWith prims message aad) := by
  simp only [openLive, KeySlots.live, slots]
  cases manager.sessions.lookup peer with
  | none => rfl
  | some session => simpa using opened_some prims

theorem open_unconfirmed_some : (manager.openWithUnconfirmed prims peer message aad (recvNonce message) now).isSome =
      (manager.slots peer).parked.any (opensWith prims message aad) := by
  simp only [openWithUnconfirmed, KeySlots.parked, slots]
  cases manager.unconfirmed.lookup peer with
  | none => rfl
  | some key => simpa using opened_some prims

theorem open_previous_some : (manager.openWithPrevious prims peer message aad (recvNonce message) now).isSome =
      ((((manager.slots peer).session.bind (·.previous)).filter (inGrace now)).map fun key =>
        (key.cipherKey, key.replayWindow)).toList.any (opensWith prims message aad) := by
  simp only [openWithPrevious, slots]
  cases manager.sessions.lookup peer with
  | none => rfl
  | some session =>
    simp only [Option.bind_eq_bind, Option.bind_some]
    cases session.previous with
    | none => rfl
    | some key =>
      rw [Option.bind_some]
      by_cases young : now - key.retiredAt ≤ previousKeyGrace
      · rw [if_pos young, grace_young young]
        simpa using opened_some prims
      · rw [if_neg young, grace_old young]
        rfl

theorem open_retired_some : (manager.openWithRetired prims peer message aad (recvNonce message) now).isSome =
      (((manager.slots peer).retired.filter (inGrace now)).map fun key =>
        (key.cipherKey, key.replayWindow)).toList.any (opensWith prims message aad) := by
  simp only [openWithRetired, slots]
  cases manager.retired.lookup peer with
  | none => rfl
  | some key =>
    rw [Option.bind_eq_bind, Option.bind_some]
    by_cases old : previousKeyGrace < now - key.retiredAt
    · rw [if_pos old, grace_old (Nat.not_le.mpr old)]
      rfl
    · rw [if_neg old, grace_young (Nat.not_lt.mp old)]
      simpa using opened_some prims

def succeeded {R : Type} (result : Except SwarmError R) : Bool := result.toOption.isSome

variable {manager}

theorem open_succeeds {peer : NodeId} {message : Bytes} (long : ¬ message.length < 12) :
    succeeded (manager.open prims peer message aad now).2 = ((manager.slots peer).tries now).any (opensWith prims message aad) := by
  have stages : succeeded (manager.open prims peer message aad now).2 = (manager.openLive prims peer message aad (recvNonce message)
        <|> manager.openWithUnconfirmed prims peer message aad (recvNonce message) now
        <|> manager.openWithPrevious prims peer message aad (recvNonce message) now
        <|> manager.openWithRetired prims peer message aad (recvNonce message) now).isSome := by
    rw [SessionManager.open, if_neg long]
    cases stage : (manager.openLive prims peer message aad (recvNonce message)
        <|> manager.openWithUnconfirmed prims peer message aad (recvNonce message) now
        <|> manager.openWithPrevious prims peer message aad (recvNonce message) now
        <|> manager.openWithRetired prims peer message aad (recvNonce message) now) with
    | none | some => rfl
  rw [stages]
  simp only [Option.orElse_eq_orElse, Option.orElse_eq_or, Option.isSome_or, open_live_some, open_unconfirmed_some,
    open_previous_some, open_retired_some, KeySlots.tries, any_append, Bool.or_assoc]

structure Sealing where
  peer : NodeId
  key : Key32
  aad : Bytes
  message : Bytes
  deriving DecidableEq

def sealAad : SessionCall → Bytes
  | .sealFor _ _ aad => aad
  | _ => sessionConfirmMarker

def SessionManager.sealing (manager : SessionManager) (call : SessionCall) : Option Sealing := do
  let (peer, key, _) ← manager.drawsUnder prims call
  let message ← manager.sealedBy prims call
  pure ⟨peer, key, sealAad call, message⟩

def Sealing.Genuine (sealing : Sealing) : Prop :=
  ∃ count plaintext ciphertext, count < u64Max - 1 ∧
    prims.encrypt sealing.key (nonceBytes count) sealing.aad plaintext = some ciphertext ∧
    sealing.message = nonceBytes count ++ ciphertext

variable {sealing : Sealing}

theorem sealing_genuine {call : SessionCall} (produced : manager.sealing prims call = some sealing) : sealing.Genuine prims := by
  obtain ⟨⟨peer, key, drawn⟩, draws, produced⟩ := Option.bind_eq_some_iff.mp produced
  obtain ⟨message, sealed, produced⟩ := Option.bind_eq_some_iff.mp produced
  cases produced
  cases call with
  | complete target peerPub now =>
    obtain ⟨pending, ourPub, ciphertext, pendingFound, pubFound, encrypted, result⟩ :=
      complete_result sealed
    simp only [drawsUnder, pendingFound, pubFound, Option.bind_eq_bind, Option.bind_some,
      Option.pure_def, Option.some.injEq, Prod.mk.injEq] at draws
    obtain ⟨rfl, rfl, rfl⟩ := draws
    exact ⟨0, _, ciphertext, by decide, encrypted, result⟩
  | sealFor target plaintext aad =>
    obtain ⟨session, ciphertext, found, below, encrypted, result⟩ :=
      seal_result sealed
    simp only [drawsUnder, found, Option.map_some, Option.some.injEq, Prod.mk.injEq] at draws
    obtain ⟨rfl, rfl, rfl⟩ := draws
    exact ⟨session.sendNonce, plaintext, ciphertext, below, encrypted, result⟩
  | establish | initiate | accept | remove | evict | openFrom => cases sealed

variable (manager)

-- Two nodes, what each has sealed, and the messages a node took back from the
-- peer it had sealed them for.
structure Mirror where
  manager : Side → SessionManager
  produced : List (Side × Sealing)
  reflected : List (Side × NodeId × Bytes)

open Mirror

variable (world : Mirror)

def Mirror.sent (side : Side) (peer : NodeId) (message : Bytes) : Bool :=
  world.produced.any fun entry => entry.1 = side ∧ entry.2.peer = peer ∧ entry.2.message = message

def Mirror.step (event : Side × SessionCall) : Mirror where
  manager := Function.update world.manager event.1 ((world.manager event.1).call prims event.2)
  produced := match (world.manager event.1).sealing prims event.2 with
    | some sealing => (event.1, sealing) :: world.produced
    | none => world.produced
  reflected := match event.2 with
    | .openFrom peer message aad now =>
      if world.sent event.1 peer message && succeeded ((world.manager event.1).open prims peer message aad now).2 then
        (event.1, peer, message) :: world.reflected
      else world.reflected
    | _ => world.reflected

def Mirror.start (secretA secretB : Key32) : Mirror where
  manager := fun side => match side with
    | .a => .fromSecret prims secretA
    | .b => .fromSecret prims secretB
  produced := []
  reflected := []

-- A node that is handed its own message, with the data it was sealed with, tries the
-- key it was sealed under only with windows that have its counter behind them.
def CounterSpent (event : Side × SessionCall) : Prop :=
  match event.2 with
  | .openFrom peer message aad now =>
    ∀ entry ∈ world.produced, entry.1 = event.1 → entry.2.peer = peer → entry.2.message = message → entry.2.aad = aad →
      ∀ held ∈ ((world.manager event.1).slots peer).tries now, held.1 = entry.2.key → held.2.check (recvNonce message) = false
  | _ => True

def AllGenuine : Prop := ∀ entry ∈ world.produced, entry.2.Genuine prims

variable {world : Mirror} {event : Side × SessionCall}

theorem all_genuine_step (genuine : AllGenuine prims world) : AllGenuine prims (world.step prims event) := by
  intro entry listed
  cases produced : (world.manager event.1).sealing prims event.2 with
  | none =>
    simp only [step, produced] at listed
    exact genuine entry listed
  | some sealing =>
    simp only [step, produced] at listed
    rcases mem_cons.mp listed with rfl | old
    · exact sealing_genuine prims produced
    · exact genuine entry old

-- What is assumed of the AEAD: a ciphertext opens under the key and the data it was
-- sealed with, and only under these.
structure Authentic : Prop where
  opens : ∀ key nonce aad plaintext ciphertext, prims.encrypt key nonce aad plaintext = some ciphertext →
    prims.decrypt key nonce aad ciphertext = some plaintext
  binds : ∀ key other nonce aad otherAad plaintext ciphertext opened, prims.encrypt key nonce aad plaintext = some ciphertext →
    prims.decrypt other nonce otherAad ciphertext = some opened → other = key ∧ otherAad = aad

theorem genuine_opens_iff (authentic : Authentic prims) (genuine : sealing.Genuine prims) {held : HeldKey} :
    opensWith prims sealing.message aad held = true ↔
      aad = sealing.aad ∧ held.1 = sealing.key ∧ held.2.check (recvNonce sealing.message) = true := by
  obtain ⟨count, plaintext, ciphertext, below, encrypted, written⟩ := genuine
  have nonce : sealing.message.take 12 = nonceBytes count := by
    rw [written]
    exact take_nonce_bytes
  have body : sealing.message.drop 12 = ciphertext := by
    rw [written, drop_left' nonce_bytes_length]
  constructor
  · intro opened
    obtain ⟨⟨text, window⟩, tried⟩ := Option.isSome_iff_exists.mp opened
    obtain ⟨accepted, decrypted, _⟩ := try_open_some tried
    rw [nonce, body] at decrypted
    obtain ⟨key, data⟩ := authentic.binds _ _ _ _ _ _ _ _ encrypted decrypted
    exact ⟨data, key, accepted⟩
  · rintro ⟨rfl, key, accepted⟩
    rw [opensWith, tryOpenWith, if_pos accepted, nonce, body, key, authentic.opens _ _ _ _ _ encrypted]
    rfl

theorem genuine_long (genuine : sealing.Genuine prims) : ¬ sealing.message.length < 12 := by
  obtain ⟨count, _, ciphertext, _, _, written⟩ := genuine
  rw [written, length_append, nonce_bytes_length]
  omega

theorem sent_iff (side : Side) (peer : NodeId) (message : Bytes) : world.sent side peer message = true ↔
      ∃ entry ∈ world.produced, entry.1 = side ∧ entry.2.peer = peer ∧ entry.2.message = message := by
  simp only [sent, any_eq_true, decide_eq_true_eq]

theorem reflects_iff (authentic : Authentic prims) (genuine : AllGenuine prims world) (side : Side)
    (peer : NodeId) (message aad : Bytes) (now : Instant) :
    (world.sent side peer message && succeeded ((world.manager side).open prims peer message aad now).2) = true ↔
      ¬ CounterSpent world (side, .openFrom peer message aad now) := by
  rw [Bool.and_eq_true, sent_iff]
  constructor
  · rintro ⟨⟨entry, listed, sameSide, samePeer, sameMessage⟩, opened⟩ spent
    have isGenuine := genuine entry listed
    have long := genuine_long prims isGenuine
    rw [sameMessage] at long
    rw [open_succeeds prims long] at opened
    obtain ⟨held, tried, opens⟩ := any_eq_true.mp opened
    rw [← sameMessage] at opens
    obtain ⟨data, key, accepted⟩ := (genuine_opens_iff prims authentic isGenuine).mp opens
    have refused := spent entry listed sameSide samePeer sameMessage data.symm held tried key
    rw [sameMessage, refused] at accepted
    cases accepted
  intro unspent
  simp only [CounterSpent, not_forall, Bool.not_eq_false] at unspent
  obtain ⟨entry, listed, sameSide, samePeer, sameMessage, data, held, tried, key, accepted⟩ := unspent
  have isGenuine := genuine entry listed
  have long := genuine_long prims isGenuine
  rw [sameMessage] at long
  refine ⟨⟨entry, listed, sameSide, samePeer, sameMessage⟩, ?_⟩
  rw [open_succeeds prims long]
  refine any_eq_true.mpr ⟨held, tried, ?_⟩
  rw [← sameMessage] at accepted ⊢
  exact (genuine_opens_iff prims authentic isGenuine).mpr ⟨data.symm, key, accepted⟩

theorem reflected_step (authentic : Authentic prims) (genuine : AllGenuine prims world) :
    (world.step prims event).reflected = [] ↔ world.reflected = [] ∧ CounterSpent world event := by
  obtain ⟨side, call⟩ := event
  cases call with
  | openFrom peer message aad now =>
    have reflects := reflects_iff prims authentic genuine side peer message aad now
    by_cases taken : (world.sent side peer message && succeeded ((world.manager side).open prims peer message aad now).2) = true
    · simp only [step, if_pos taken, cons_ne_nil, false_iff, not_and]
      exact fun _ => reflects.mp taken
    · simp only [step, if_neg taken]
      exact (and_iff_left (not_not.mp (mt reflects.mpr taken))).symm
  | establish | initiate | accept | complete | remove | evict | sealFor => exact (and_iff_left trivial).symm

theorem no_reflection_iff (authentic : Authentic prims) (secretA secretB : Key32) (events : List (Side × SessionCall)) :
    (run (step prims) (.start prims secretA secretB) events).reflected = [] ↔
      RunMeets (step prims) CounterSpent (.start prims secretA secretB) events := by
  have clean := run_clean_iff CounterSpent (AllGenuine prims) (fun world => world.reflected = [])
    (fun world event genuine => all_genuine_step prims genuine)
    (fun world event genuine => reflected_step prims authentic genuine)
    (.start prims secretA secretB) events fun _ listed => absurd listed not_mem_nil
  rw [clean]
  exact and_iff_right rfl

instance (world : Mirror) : (event : Side × SessionCall) → Decidable (CounterSpent world event)
  | (side, .openFrom peer message aad now) => inferInstanceAs (Decidable
      (∀ entry ∈ world.produced, entry.1 = side → entry.2.peer = peer → entry.2.message = message → entry.2.aad = aad →
        ∀ held ∈ ((world.manager side).slots peer).tries now, held.1 = entry.2.key → held.2.check (recvNonce message) = false))
  | (_, .establish _ _ _) => isTrue trivial
  | (_, .initiate _ _ _) => isTrue trivial
  | (_, .accept _ _ _ _ _) => isTrue trivial
  | (_, .complete _ _ _) => isTrue trivial
  | (_, .remove _ _) => isTrue trivial
  | (_, .evict _ _) => isTrue trivial
  | (_, .sealFor _ _ _) => isTrue trivial

-- Primitives for evaluating the model whose ciphertexts name the key and the data
-- they were sealed with.

def escaped (bytes : Bytes) : Bytes := bytes.flatMap (fun byte => [1, byte]) ++ [0]

def bindingPrims : Primitives where
  publicKey := id
  diffieHellman := fun secret pub => Vector.zipWith (· + ·) secret pub
  hkdfSha256 := fun ikm _ _ => Vector.ofFn fun i => ikm.getD i.val 0
  encrypt := fun key _ aad plaintext => some (key.toList ++ (escaped aad ++ plaintext))
  decrypt := fun key _ aad ciphertext =>
    if key.toList ++ escaped aad <+: ciphertext then some (ciphertext.drop (key.toList ++ escaped aad).length) else none

theorem escaped_inj (first second left : Bytes) {right : Bytes} (same : escaped first ++ left = escaped second ++ right) :
    first = second := by
  induction first generalizing second with
  | nil =>
    cases second with
    | nil => rfl
    | cons byte rest => simp [escaped] at same
  | cons byte rest ih =>
    cases second with
    | nil => simp [escaped] at same
    | cons other others =>
      simp only [escaped, flatMap_cons, cons_append, nil_append, List.cons.injEq, true_and] at same
      rw [same.1, ih others same.2]

theorem binding_authentic : Authentic bindingPrims where
  opens := by
    intro key nonce aad plaintext ciphertext encrypted
    cases encrypted
    have shown : key.toList ++ escaped aad <+: key.toList ++ (escaped aad ++ plaintext) :=
      ⟨plaintext, append_assoc _ _ _⟩
    simp only [bindingPrims, if_pos shown]
    rw [← append_assoc, drop_left]
  binds := by
    intro key other nonce aad otherAad plaintext ciphertext opened encrypted decrypted
    cases encrypted
    simp only [bindingPrims, Option.ite_none_right_eq_some] at decrypted
    obtain ⟨⟨rest, same⟩, _⟩ := decrypted
    rw [append_assoc] at same
    obtain ⟨keys, parts⟩ := append_inj same (by rw [Vector.length_toList, Vector.length_toList])
    exact ⟨Vector.toList_inj.mp keys, escaped_inj otherAad aad rest parts⟩

def firstMessage (text : UInt8) : Bytes := nonceBytes 0 ++ ((sampleKey 3).toList ++ (escaped [] ++ [text]))

-- A node's first message, handed back to it before anything came from the peer.
theorem reflection_accepted :
    Authentic bindingPrims ∧ (run (step bindingPrims) (.start bindingPrims (sampleKey 1) (sampleKey 2))
      [(.a, .establish (ofByte 2) (sampleKey 2) 0), (.a, .sealFor (ofByte 2) [42] []),
        (.a, .openFrom (ofByte 2) (firstMessage 42) [] 1)]).reflected =
      [(.a, ofByte 2, firstMessage 42)] :=
  ⟨binding_authentic, by decide +kernel⟩

theorem no_reflection_iff_sample :
    (run (step bindingPrims) (.start bindingPrims (sampleKey 1) (sampleKey 2))
      [(.a, .establish (ofByte 2) (sampleKey 2) 0), (.b, .establish (ofByte 1) (sampleKey 1) 0),
        (.a, .sealFor (ofByte 2) [42] []), (.b, .sealFor (ofByte 1) [43] []),
        (.a, .openFrom (ofByte 2) (firstMessage 43) [] 1),
        (.a, .openFrom (ofByte 2) (firstMessage 42) [] 1)]).reflected = [] :=
  (no_reflection_iff bindingPrims binding_authentic (sampleKey 1) (sampleKey 2) _).mpr (by decide +kernel)

end SwarmLlm.Crypto
