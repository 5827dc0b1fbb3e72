import SwarmLlm.Types
import SwarmLlm.Lib.Table
import SwarmLlm.Lib.Bytes
import SwarmLlm.Lib.Saturating
import SwarmLlm.Crypto.ReplayWindow

namespace SwarmLlm.Crypto

open Lib

-- X25519 secrets and public keys and the AEAD keys are 32 bytes each.
abbrev Key32 := Vector UInt8 32

abbrev Instant := Nat

def seconds (count : Nat) : Nat := count * 1000000000

structure Primitives where
  publicKey : Key32 → Key32
  diffieHellman : Key32 → Key32 → Key32
  hkdfSha256 : (ikm salt info : Bytes) → Key32
  encrypt : (key : Key32) → (nonce aad plaintext : Bytes) → Option Bytes
  decrypt : (key : Key32) → (nonce aad ciphertext : Bytes) → Option Bytes

variable (prims : Primitives)

def deriveCipherKey (shared pubA pubB : Key32) : Key32 :=
  let salt := if pubA.toList < pubB.toList then pubA.toList ++ pubB.toList else pubB.toList ++ pubA.toList
  prims.hkdfSha256 shared.toList salt (utf8 "swarmllm-session-v1")

theorem derive_cipher_key_comm (shared pubA pubB : Key32) :
    deriveCipherKey prims shared pubA pubB = deriveCipherKey prims shared pubB pubA := by
  by_cases below : pubA.toList < pubB.toList
  · simp only [deriveCipherKey, if_pos below, if_neg (List.lt_asymm below)]
  · by_cases above : pubB.toList < pubA.toList
    · simp only [deriveCipherKey, if_pos above, if_neg below]
    · have same : pubA.toList = pubB.toList := List.le_antisymm above below
      simp only [deriveCipherKey, same]

def previousKeyGrace : Nat := seconds 180

def pendingEphemeralTtl : Nat := seconds 60

def rekeyRequestMinInterval : Nat := seconds 15

structure PendingEphemeral where
  secret : Key32
  createdAt : Instant
  deriving DecidableEq

structure PreviousKey where
  cipherKey : Key32
  replayWindow : ReplayWindow
  retiredAt : Instant
  deriving DecidableEq

structure UnconfirmedKey where
  cipherKey : Key32
  replayWindow : ReplayWindow
  derivedAt : Instant
  deriving DecidableEq

inductive KeyAdoption where
  | onConfirmation
  | immediately
  deriving DecidableEq

def sessionConfirmMarker : Bytes := utf8 "swarmllm-session-key-confirm-v1"

structure CachedSession where
  cipherKey : Key32
  sendNonce : Nat
  replayWindow : ReplayWindow
  createdAt : Instant
  previous : Option PreviousKey
  deriving DecidableEq

structure RekeyRequest where
  armedAt : Instant
  pending : Bool
  deriving DecidableEq

structure SessionManager where
  localSecret : Key32
  localPublic : Key32
  sessions : Table NodeId CachedSession
  pendingEphemeral : Table NodeId PendingEphemeral
  pendingEphemeralPub : Table NodeId Key32
  retired : Table NodeId PreviousKey
  unconfirmed : Table NodeId UnconfirmedKey
  rekeyRequests : Table NodeId RekeyRequest

def CachedSession.new (cipherKey : Key32) (now : Instant) : CachedSession := ⟨cipherKey, 0, .new, now, none⟩

def nonceBytes (counter : Nat) : Bytes := List.replicate 4 0 ++ leBytes 8 counter

theorem nonce_bytes_length {counter : Nat} : (nonceBytes counter).length = 12 := by simp [nonceBytes]

def CachedSession.nextNonce (session : CachedSession) : CachedSession × Except SwarmError Bytes :=
  if u64Max - 1 ≤ session.sendNonce then ({ session with sendNonce := u64Max - 1 }, .error .nonceOverflow)
  else ({ session with sendNonce := session.sendNonce + 1 }, .ok (nonceBytes session.sendNonce))

-- The plaintext and the window with the nonce recorded.
def tryOpenWith (cipherKey : Key32) (replayWindow : ReplayWindow) (message aad : Bytes) (recvNonce : Nat) :
    Option (Bytes × ReplayWindow) :=
  if replayWindow.check recvNonce then
    (prims.decrypt cipherKey (message.take 12) aad (message.drop 12)).map fun plaintext =>
      (plaintext, replayWindow.record recvNonce)
  else none

def SessionManager.fromSecret (secret : Key32) : SessionManager :=
  ⟨secret, prims.publicKey secret, ∅, ∅, ∅, ∅, ∅, ∅⟩

variable (manager : SessionManager) (peer : NodeId)

def SessionManager.installWithWindow (cipherKey : Key32) (window : ReplayWindow)
    (now : Instant) : SessionManager :=
  match manager.sessions.lookup peer with
  | some session =>
    { manager with
      sessions := manager.sessions.insert peer
        { cipherKey := cipherKey, sendNonce := 0, replayWindow := window, createdAt := now
          previous := some ⟨session.cipherKey, session.replayWindow, now⟩ } }
  | none =>
    { manager with
      sessions := manager.sessions.insert peer { CachedSession.new cipherKey now with replayWindow := window } }

def SessionManager.installSession (cipherKey : Key32) (now : Instant) : SessionManager :=
  manager.installWithWindow peer cipherKey .new now

def SessionManager.establishSession (peerPub : Key32) (now : Instant) :
    SessionManager × Bool :=
  let cipherKey := deriveCipherKey prims (prims.diffieHellman manager.localSecret peerPub) manager.localPublic peerPub
  if (manager.sessions.lookup peer).isSome then (manager, false)
  else (manager.installSession peer cipherKey now, true)

def SessionManager.initiateEphemeralExchange (secret : Key32) (now : Instant) :
    SessionManager × Key32 :=
  ({ manager with
      pendingEphemeralPub := manager.pendingEphemeralPub.insert peer (prims.publicKey secret)
      pendingEphemeral := manager.pendingEphemeral.insert peer ⟨secret, now⟩ },
    prims.publicKey secret)

def SessionManager.seal (plaintext aad : Bytes) : SessionManager × Except SwarmError Bytes :=
  match manager.sessions.lookup peer with
  | none => (manager, .error (.noSession peer))
  | some session =>
    let (session, drawn) := session.nextNonce
    let manager := { manager with sessions := manager.sessions.insert peer session }
    match drawn with
    | .error error => (manager, .error error)
    | .ok nonce =>
      match prims.encrypt session.cipherKey nonce aad plaintext with
      | none => (manager, .error (.encryption "Seal failed: aead::Error"))
      | some ciphertext => (manager, .ok (nonce ++ ciphertext))

def SessionManager.completeEphemeralSession (peerPub : Key32) (now : Instant) :
    SessionManager × Option Bytes :=
  match manager.pendingEphemeral.lookup peer with
  | none => (manager, none)
  | some pending =>
    let shared := prims.diffieHellman pending.secret peerPub
    let manager := { manager with pendingEphemeral := manager.pendingEphemeral.erase peer }
    match manager.pendingEphemeralPub.lookup peer with
    | none => (manager, none)
    | some ourPub =>
      let manager := { manager with pendingEphemeralPub := manager.pendingEphemeralPub.erase peer }
      let cipherKey := deriveCipherKey prims shared ourPub peerPub
      let (manager, confirmation) :=
        (manager.installSession peer cipherKey now).seal prims peer sessionConfirmMarker sessionConfirmMarker
      (manager, confirmation.toOption)

def SessionManager.acceptEphemeralExchange (peerPub : Key32) (adopt : KeyAdoption)
    (secret : Key32) (now : Instant) : SessionManager × Key32 :=
  let ourPub := prims.publicKey secret
  let cipherKey := deriveCipherKey prims (prims.diffieHellman secret peerPub) ourPub peerPub
  if adopt = .immediately ∨ (manager.sessions.lookup peer).isNone then (manager.installSession peer cipherKey now, ourPub)
  else
    -- Two exchanges crossed: ours is dropped.
    let manager :=
      if (manager.pendingEphemeral.lookup peer).isSome then
        { manager with
          pendingEphemeral := manager.pendingEphemeral.erase peer
          pendingEphemeralPub := manager.pendingEphemeralPub.erase peer }
      else manager
    ({ manager with unconfirmed := manager.unconfirmed.insert peer ⟨cipherKey, .new, now⟩ }, ourPub)

def SessionManager.removeSession (now : Instant) : SessionManager :=
  { manager with
    sessions := manager.sessions.erase peer
    retired := match manager.sessions.lookup peer with
      | some session => manager.retired.insert peer ⟨session.cipherKey, session.replayWindow, now⟩
      | none => manager.retired
    pendingEphemeral := manager.pendingEphemeral.erase peer
    pendingEphemeralPub := manager.pendingEphemeralPub.erase peer
    unconfirmed := manager.unconfirmed.erase peer }

def SessionManager.requestRekey (now : Instant) : SessionManager :=
  match manager.rekeyRequests.lookup peer with
  | some request =>
    if now - request.armedAt < rekeyRequestMinInterval then manager
    else { manager with rekeyRequests := manager.rekeyRequests.insert peer ⟨now, true⟩ }
  | none => { manager with rekeyRequests := manager.rekeyRequests.insert peer ⟨now, true⟩ }

variable (message aad : Bytes)

def SessionManager.openLive (recvNonce : Nat) :
    Option (SessionManager × Bytes) := do
  let session ← manager.sessions.lookup peer
  let (plaintext, window) ← tryOpenWith prims session.cipherKey session.replayWindow message aad recvNonce
  pure ({ manager with sessions := manager.sessions.insert peer { session with replayWindow := window } }, plaintext)

def SessionManager.openWithUnconfirmed (recvNonce : Nat)
    (now : Instant) : Option (SessionManager × Bytes) := do
  let pending ← manager.unconfirmed.lookup peer
  let (plaintext, window) ← tryOpenWith prims pending.cipherKey pending.replayWindow message aad recvNonce
  let manager := { manager with unconfirmed := manager.unconfirmed.erase peer }
  pure (manager.installWithWindow peer pending.cipherKey window now, plaintext)

def SessionManager.openWithPrevious (recvNonce : Nat)
    (now : Instant) : Option (SessionManager × Bytes) := do
  let session ← manager.sessions.lookup peer
  let previous ← session.previous
  if now - previous.retiredAt ≤ previousKeyGrace then
    let (plaintext, window) ← tryOpenWith prims previous.cipherKey previous.replayWindow message aad recvNonce
    pure ({ manager with
      sessions := manager.sessions.insert peer
        { session with previous := some { previous with replayWindow := window } } }, plaintext)
  else none

def SessionManager.openWithRetired (recvNonce : Nat)
    (now : Instant) : Option (SessionManager × Bytes) := do
  let retired ← manager.retired.lookup peer
  if previousKeyGrace < now - retired.retiredAt then none
  else
    let (plaintext, window) ← tryOpenWith prims retired.cipherKey retired.replayWindow message aad recvNonce
    pure ({ manager with retired := manager.retired.insert peer { retired with replayWindow := window } }, plaintext)

def recvNonce : Nat := fromLe ((message.drop 4).take 8)

def SessionManager.open (now : Instant) :
    SessionManager × Except SwarmError Bytes :=
  if message.length < 12 then (manager, .error .decryptionFailed)
  else
    let opened := manager.openLive prims peer message aad (recvNonce message)
      <|> manager.openWithUnconfirmed prims peer message aad (recvNonce message) now
      <|> manager.openWithPrevious prims peer message aad (recvNonce message) now
      <|> manager.openWithRetired prims peer message aad (recvNonce message) now
    match opened with
    | some (manager, plaintext) => (manager, .ok plaintext)
    | none =>
      (manager.requestRekey peer now, .error (if (manager.sessions.lookup peer).isSome then .decryptionFailed else .noSession peer))

def SessionManager.retireAged (maxAge : Nat) (now : Instant) (manager : SessionManager) (peer : NodeId) : SessionManager :=
  match manager.sessions.lookup peer with
  | some session =>
    if maxAge ≤ now - session.createdAt then
      { manager with
        sessions := manager.sessions.erase peer
        retired := manager.retired.insert peer ⟨session.cipherKey, session.replayWindow, now⟩ }
    else manager
  | none => manager

def SessionManager.agedPeers (maxAge : Nat) (now : Instant) : List NodeId :=
  (manager.sessions.entries.filter fun entry => maxAge ≤ now - entry.2.createdAt).map Sigma.fst

def SessionManager.sweep (maxAge : Nat) (now : Instant) : SessionManager :=
  let pendingEphemeral := Table.retain (fun _ pending => now - pending.createdAt < pendingEphemeralTtl)
    manager.pendingEphemeral
  let evicted := manager.pendingEphemeral.entries.length - pendingEphemeral.entries.length
  { manager with
    retired := Table.retain (fun _ key => now - key.retiredAt ≤ previousKeyGrace) manager.retired
    unconfirmed := Table.retain (fun _ key => now - key.derivedAt < maxAge) manager.unconfirmed
    pendingEphemeral := pendingEphemeral
    pendingEphemeralPub :=
      if 0 < evicted then
        Table.retain (fun peer _ => (pendingEphemeral.lookup peer).isSome) manager.pendingEphemeralPub
      else manager.pendingEphemeralPub }

def SessionManager.evictStale (maxAge : Nat) (now : Instant) : SessionManager × List NodeId :=
  let aged := manager.agedPeers maxAge now
  ((aged.foldl (SessionManager.retireAged maxAge now) manager).sweep maxAge now, aged)

def sampleKey (byte : UInt8) : Key32 := Vector.replicate 32 byte

-- Primitives for evaluating the model: keys add up, and a ciphertext is the key
-- followed by the plaintext.
def samplePrims : Primitives where
  publicKey := id
  diffieHellman := fun secret pub => Vector.zipWith (· + ·) secret pub
  hkdfSha256 := fun ikm _ _ => Vector.ofFn fun i => ikm.getD i.val 0
  encrypt := fun key _ _ plaintext => some (key.toList ++ plaintext)
  decrypt := fun key _ _ ciphertext => if ciphertext.take 32 = key.toList then some (ciphertext.drop 32) else none

end SwarmLlm.Crypto
