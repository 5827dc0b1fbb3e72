import Mathlib.Data.List.Perm.Subperm
import SwarmLlm.Crypto.Slots

namespace SwarmLlm.Crypto

open Lib List Option SessionManager Function NodeId

variable {prims : Primitives}

abbrev HeldKey := Key32 × ReplayWindow

namespace KeySlots

variable (slots : KeySlots)

def live : List HeldKey :=
  (slots.session.map fun session => (session.cipherKey, session.replayWindow)).toList

def parked : List HeldKey :=
  (slots.unconfirmed.map fun key => (key.cipherKey, key.replayWindow)).toList

def superseded : List HeldKey :=
  ((slots.session.bind (·.previous)).map fun key => (key.cipherKey, key.replayWindow)).toList

def disconnected : List HeldKey :=
  (slots.retired.map fun key => (key.cipherKey, key.replayWindow)).toList

def held : List HeldKey := slots.live ++ slots.parked ++ slots.superseded ++ slots.disconnected

end KeySlots

theorem count_held (slots : KeySlots) (entry : HeldKey) :
    slots.held.count entry = slots.live.count entry + slots.parked.count entry + slots.superseded.count entry +
      slots.disconnected.count entry := by
  simp only [KeySlots.held, count_append]

theorem subperm_of_count {left right : List HeldKey} (counts : ∀ entry, left.count entry ≤ right.count entry) :
    left.Subperm right := subperm_ext_iff.mpr fun entry _ => counts entry

variable {maxAge : Nat} {call : SessionCall} {cipherKey : Key32} {window : ReplayWindow} {target peer : NodeId}
  {plaintext aad message : Bytes} {now : Instant} {slots : KeySlots}

theorem retire_superseded :
    ((slots.session.map (·.retire now)).map fun key => (key.cipherKey, key.replayWindow)).toList = slots.live := by
  rw [Option.map_map]
  rfl

theorem held_install : (slots.install cipherKey window now).held.Subperm ((cipherKey, window) :: slots.held) := by
  refine subperm_of_count fun entry => ?_
  have fresh : (slots.install cipherKey window now).live = [(cipherKey, window)] := rfl
  have moved : (slots.install cipherKey window now).superseded = slots.live := retire_superseded
  have parked : (slots.install cipherKey window now).parked = slots.parked := rfl
  have disconnected : (slots.install cipherKey window now).disconnected = slots.disconnected := rfl
  rw [count_held, count_cons, count_held, fresh, moved, parked, disconnected, count_singleton]
  omega

theorem held_park : (slots.park cipherKey now).held.Subperm ((cipherKey, .new) :: slots.held) := by
  refine subperm_of_count fun entry => ?_
  have session : (slots.park cipherKey now).session = slots.session := by
    simp only [KeySlots.park]
    split <;> rfl
  have retired : (slots.park cipherKey now).retired = slots.retired := by
    simp only [KeySlots.park]
    split <;> rfl
  have fresh : (slots.park cipherKey now).parked = [(cipherKey, .new)] := rfl
  rw [count_held, count_cons, count_held, fresh, count_singleton, KeySlots.live, KeySlots.superseded,
    KeySlots.disconnected, session, retired]
  simp only [KeySlots.live, KeySlots.superseded, KeySlots.disconnected]
  omega

theorem held_draw_nonce (slots : KeySlots) : slots.drawNonce.held = slots.held := by
  have unchanged : ∀ session : CachedSession, session.nextNonce.1.cipherKey = session.cipherKey ∧
      session.nextNonce.1.replayWindow = session.replayWindow ∧ session.nextNonce.1.previous = session.previous := by
    intro session
    rw [CachedSession.nextNonce]
    split <;> exact ⟨rfl, rfl, rfl⟩
  cases found : slots.session with
  | none => simp [KeySlots.held, KeySlots.live, KeySlots.parked, KeySlots.superseded, KeySlots.disconnected,
      KeySlots.drawNonce, found]
  | some session => simp [KeySlots.held, KeySlots.live, KeySlots.parked, KeySlots.superseded, KeySlots.disconnected,
      KeySlots.drawNonce, found, unchanged]

theorem held_remove : (slots.remove now).held.Subperm slots.held := by
  refine subperm_of_count fun entry => ?_
  rw [count_held, count_held]
  have kept : (slots.remove now).disconnected.count entry ≤ slots.live.count entry + slots.disconnected.count entry := by
    cases found : slots.session with
    | none => simp [KeySlots.remove, KeySlots.disconnected, KeySlots.live, found]
    | some session => simp [KeySlots.remove, KeySlots.disconnected, KeySlots.live, found, CachedSession.retire]
  have live : (slots.remove now).live = [] := rfl
  have parked : (slots.remove now).parked = [] := rfl
  have superseded : (slots.remove now).superseded = [] := rfl
  rw [live, parked, superseded, count_nil]
  omega

theorem held_retire_aged : (slots.retireAged maxAge now).held.Subperm slots.held := by
  cases found : slots.session with
  | none =>
    simp only [KeySlots.retireAged, found]
    exact List.Subperm.refl _
  | some session =>
    by_cases aged : maxAge ≤ now - session.createdAt
    · refine subperm_of_count fun entry => ?_
      simp only [KeySlots.retireAged, found, if_pos aged, count_held, KeySlots.live, KeySlots.parked,
        KeySlots.superseded, KeySlots.disconnected, CachedSession.retire, map_none, map_some,
        toList_none, toList_some, count_nil, bind_none]
      omega
    · simp only [KeySlots.retireAged, found, if_neg aged]
      exact List.Subperm.refl _

theorem held_sweep {timedOut : Bool} : (slots.sweep maxAge now timedOut).held.Subperm slots.held := by
  refine List.Sublist.subperm ?_
  have filtered : ∀ {T : Type} (value : Option T) (keep : T → Bool) (pair : T → HeldKey),
      ((value.filter keep).map pair).toList.Sublist (value.map pair).toList := by
    intro T value keep pair
    cases value with
    | none => exact List.Sublist.refl _
    | some inner =>
      rw [filter_some]
      split
      · exact List.Sublist.refl _
      · exact nil_sublist _
  refine List.Sublist.append (List.Sublist.append (List.Sublist.append (List.Sublist.refl _) ?_) (List.Sublist.refl _)) ?_
  · exact filtered _ _ _
  · exact filtered _ _ _

theorem try_open_some {after : ReplayWindow} {nonce : Nat}
    (opened : tryOpenWith prims cipherKey window message aad nonce = some (plaintext, after)) :
    window.check nonce = true ∧ prims.decrypt cipherKey (message.take 12) aad (message.drop 12) = some plaintext ∧
      after = window.record nonce := by
  rw [tryOpenWith] at opened
  split at opened
  · rename_i accepted
    obtain ⟨text, decrypted, result⟩ := map_eq_some_iff.mp opened
    cases result
    exact ⟨accepted, decrypted, rfl⟩
  · cases opened

theorem held_opens {after : KeySlots} (opens : Opens prims slots message aad now after plaintext) :
    ∃ key window front back, slots.held = front ++ (key, window) :: back ∧ window.check (recvNonce message) = true ∧
      prims.decrypt key (message.take 12) aad (message.drop 12) = some plaintext ∧
      after.held.Subperm ((key, window.record (recvNonce message)) :: (front ++ back)) := by
  cases opens with
  | live session window _ found opened =>
    obtain ⟨accepted, decrypted, rfl⟩ := try_open_some opened
    refine ⟨session.cipherKey, session.replayWindow, [], slots.parked ++ slots.superseded ++ slots.disconnected, ?_,
      accepted, decrypted, subperm_of_count fun entry => ?_⟩
    · simp [KeySlots.held, KeySlots.live, found]
    · simp only [count_held, count_cons, count_append, KeySlots.live, KeySlots.parked, KeySlots.superseded,
        KeySlots.disconnected, found, map_some, toList_some, bind_some, nil_append,
        count_nil]
      omega
  | unconfirmed key window _ found opened =>
    obtain ⟨accepted, decrypted, rfl⟩ := try_open_some opened
    refine ⟨key.cipherKey, key.replayWindow, slots.live, slots.superseded ++ slots.disconnected, ?_, accepted, decrypted,
      held_install.trans (subperm_of_count fun entry => ?_)⟩
    · simp [KeySlots.held, KeySlots.parked, found]
    · simp only [count_held, count_cons, count_append, KeySlots.live, KeySlots.parked, KeySlots.superseded,
        KeySlots.disconnected, map_none, toList_none, count_nil]
      omega
  | previous session previous window _ found kept inGrace opened =>
    obtain ⟨accepted, decrypted, rfl⟩ := try_open_some opened
    refine ⟨previous.cipherKey, previous.replayWindow, slots.live ++ slots.parked, slots.disconnected, ?_, accepted,
      decrypted, subperm_of_count fun entry => ?_⟩
    · simp [KeySlots.held, KeySlots.superseded, found, kept]
    · simp only [count_held, count_cons, count_append, KeySlots.live, KeySlots.parked, KeySlots.superseded,
        KeySlots.disconnected, found, map_some, toList_some, bind_some, count_nil]
      omega
  | retired key window _ found inGrace opened =>
    obtain ⟨accepted, decrypted, rfl⟩ := try_open_some opened
    refine ⟨key.cipherKey, key.replayWindow, slots.live ++ slots.parked ++ slots.superseded, [], ?_, accepted, decrypted,
      subperm_of_count fun entry => ?_⟩
    · simp [KeySlots.held, KeySlots.disconnected, found]
    · simp only [count_held, count_cons, count_append, KeySlots.live, KeySlots.parked, KeySlots.superseded,
        KeySlots.disconnected, map_some, toList_some, count_nil]
      omega

variable (prims)

-- The key a call puts in place with a fresh replay window.
def SessionManager.installsFresh (manager : SessionManager) : SessionCall → Option (NodeId × Key32)
  | .establish peer peerPub _ =>
    if (manager.sessions.lookup peer).isSome then none else some (peer, manager.staticKey prims peerPub)
  | .accept peer peerPub _ secret _ =>
    some (peer, deriveCipherKey prims (prims.diffieHellman secret peerPub) (prims.publicKey secret) peerPub)
  | .complete peer peerPub _ => do
    let pending ← manager.pendingEphemeral.lookup peer
    let ourPub ← manager.pendingEphemeralPub.lookup peer
    pure (peer, deriveCipherKey prims (prims.diffieHellman pending.secret peerPub) ourPub peerPub)
  | _ => none

def freshFor (fresh : Option (NodeId × Key32)) (peer : NodeId) : List HeldKey :=
  ((fresh.filter fun installed => installed.1 = peer).map fun installed => (installed.2, .new)).toList

variable {held : List HeldKey} {fresh : Option (NodeId × Key32)}

theorem held_elsewhere : held.Subperm (freshFor fresh peer ++ held) := (sublist_append_right _ _).subperm

theorem held_update {before after : SessionManager} (changed : after.slots = Function.update before.slots target slots)
    (here : slots.held.Subperm (freshFor fresh target ++ (before.slots target).held)) :
    (after.slots peer).held.Subperm (freshFor fresh peer ++ (before.slots peer).held) := by
  rw [changed]
  by_cases same : peer = target
  · subst same
    rwa [update_self]
  · rw [update_of_ne same]
    exact held_elsewhere

theorem fresh_for_target (peer : NodeId) (key : Key32) : freshFor (some (peer, key)) peer = [(key, .new)] := by
  simp [freshFor]

theorem held_complete {peerPub : Key32} : (slots.complete prims peerPub now).held.Subperm
      (freshFor (do
        let pending ← slots.pending
        let ourPub ← slots.pendingPub
        pure (peer, deriveCipherKey prims (prims.diffieHellman pending.secret peerPub) ourPub peerPub)) peer ++
        slots.held) := by
  cases pendingFound : slots.pending with
  | none =>
    simp only [KeySlots.complete, pendingFound]
    exact held_elsewhere
  | some pending =>
    cases pubFound : slots.pendingPub with
    | none =>
      simp only [KeySlots.complete, pendingFound, pubFound]
      exact held_elsewhere
    | some ourPub =>
      simp only [KeySlots.complete, pendingFound, pubFound, Option.bind_eq_bind, Option.bind_some, Option.pure_def,
        fresh_for_target]
      rw [held_draw_nonce]
      exact held_install

theorem held_call {manager : SessionManager} (notOpen : ∀ message aad now, call ≠ .openFrom peer message aad now) :
    ((manager.call prims call).slots peer).held.Subperm
      (freshFor (manager.installsFresh prims call) peer ++ (manager.slots peer).held) := by
  cases call with
  | establish target peerPub now =>
    refine held_update (slots_establish prims) ?_
    have stored : (manager.slots target).session = manager.sessions.lookup target := rfl
    rw [stored]
    cases found : (manager.sessions.lookup target).isSome with
    | true => exact held_elsewhere
    | false =>
      simp only [installsFresh, found, Bool.false_eq_true, if_false, fresh_for_target]
      exact held_install
  | initiate target secret now =>
    exact held_update (slots_initiate prims manager target secret now) (List.Subperm.refl _)
  | accept target peerPub adopt secret now =>
    refine held_update (slots_accept prims manager target peerPub adopt secret now) ?_
    simp only [installsFresh, fresh_for_target]
    split
    · exact held_install
    · exact held_park
  | complete target peerPub now =>
    exact held_update (slots_complete prims manager target peerPub now) (held_complete prims)
  | remove target now =>
    exact held_update slots_remove held_remove
  | evict maxAge now =>
    obtain ⟨timedOut, changed⟩ := slots_evict
    rw [call, changed]
    exact held_sweep.trans held_retire_aged
  | sealFor target plaintext aad =>
    refine held_update (slots_seal prims manager target plaintext aad) ?_
    rw [held_draw_nonce]
    exact List.Subperm.refl _
  | openFrom target message aad now =>
    have apart : peer ≠ target := fun same => notOpen message aad now (by rw [same])
    rcases slots_open manager target message aad now with ⟨slots, _, _, _, changed⟩ | ⟨_, _, same⟩
    · rw [call, changed, update_of_ne apart]
      exact List.Subperm.refl _
    · rw [call, same]
      exact List.Subperm.refl _

def OpensUnder (key : Key32) (message : Bytes) : Prop :=
  ∃ aad plaintext, prims.decrypt key (message.take 12) aad (message.drop 12) = some plaintext

def OneKey : Prop :=
  ∀ key other message, OpensUnder prims key message → OpensUnder prims other message → key = other

-- The held keys are distinct, and the window of each has recorded the nonces of
-- all messages that were opened before and open under it.
structure Guard (held : List HeldKey) (opened : Bytes → Prop) : Prop where
  keys : (held.map Prod.fst).Nodup
  recorded : ∀ entry ∈ held, ∃ seen, Records entry.2 seen ∧
    ∀ message, opened message → OpensUnder prims entry.1 message → recvNonce message ∈ seen

variable {opened : Bytes → Prop}

theorem guard_subperm {after : List HeldKey} (guard : Guard prims held opened)
    (fewer : after.Subperm held) : Guard prims after opened where
  keys := by
    obtain ⟨same, permuted, sublist⟩ := fewer
    exact (permuted.map Prod.fst).nodup_iff.mp (guard.keys.sublist (sublist.map Prod.fst))
  recorded := fun entry listed => guard.recorded entry (fewer.subset listed)

theorem guard_weaken {fewer : Bytes → Prop} (guard : Guard prims held opened)
    (weaker : ∀ message, fewer message → opened message) : Guard prims held fewer where
  keys := guard.keys
  recorded := by
    intro entry listed
    obtain ⟨seen, records, covers⟩ := guard.recorded entry listed
    exact ⟨seen, records, fun message isOpened => covers message (weaker message isOpened)⟩

variable {key : Key32}

theorem guard_fresh (guard : Guard prims held opened)
    (unheld : key ∉ held.map Prod.fst) (unused : ∀ message, opened message → ¬ OpensUnder prims key message) :
    Guard prims ((key, .new) :: held) opened where
  keys := nodup_cons.mpr ⟨unheld, guard.keys⟩
  recorded := by
    intro entry listed
    rcases mem_cons.mp listed with rfl | old
    · exact ⟨[], records_new, fun message accepted opensUnder => absurd opensUnder (unused message accepted)⟩
    · exact guard.recorded entry old

theorem guard_refuses (guard : Guard prims held opened)
    (listed : (key, window) ∈ held) (accepted : window.check (recvNonce message) = true)
    (opensUnder : OpensUnder prims key message) : ¬ opened message := by
  intro again
  obtain ⟨seen, records, covers⟩ := guard.recorded (key, window) listed
  have refused := seen_refused records (covers message again opensUnder)
  rw [refused] at accepted
  cases accepted

theorem guard_accept (oneKey : OneKey prims) {front back : List HeldKey}
    (guard : Guard prims (front ++ (key, window) :: back) opened) (opensUnder : OpensUnder prims key message) :
    Guard prims ((key, window.record (recvNonce message)) :: (front ++ back)) (fun other => other = message ∨ opened other) := by
  have keys : (key :: (front ++ back).map Prod.fst).Nodup := by
    have permuted : ((front ++ (key, window) :: back).map Prod.fst).Perm (key :: (front ++ back).map Prod.fst) :=
      perm_middle.map Prod.fst
    exact permuted.nodup_iff.mp guard.keys
  refine ⟨keys, fun entry listed => ?_⟩
  rcases mem_cons.mp listed with rfl | kept
  · obtain ⟨seen, records, covers⟩ := guard.recorded (key, window) (by simp)
    refine ⟨recvNonce message :: seen, record_records records, fun other accepted otherOpens => ?_⟩
    rcases accepted with rfl | old
    · exact mem_cons_self
    · exact mem_cons_of_mem _ (covers other old otherOpens)
  have inHeld : entry ∈ front ++ (key, window) :: back := perm_middle.mem_iff.mpr (mem_cons_of_mem _ kept)
  obtain ⟨seen, records, covers⟩ := guard.recorded entry inHeld
  refine ⟨seen, records, fun other accepted otherOpens => ?_⟩
  rcases accepted with rfl | old
  · have same := oneKey entry.1 key other otherOpens opensUnder
    exact absurd (mem_map.mpr ⟨entry, kept, same⟩) (nodup_cons.mp keys).1
  · exact covers other old otherOpens

structure Receiver where
  manager : SessionManager
  accepted : List (NodeId × Bytes)

def Receiver.step (world : Receiver) (call : SessionCall) : Receiver where
  manager := world.manager.call prims call
  accepted := match call with
    | .openFrom peer message aad now =>
      match (world.manager.open prims peer message aad now).2 with
      | .ok _ => (peer, message) :: world.accepted
      | .error _ => world.accepted
    | _ => world.accepted

-- A key that is put in place with a fresh window is in none of the peer's slots,
-- and no message accepted from the peer opens under it.
def FreshKey (world : Receiver) (call : SessionCall) : Prop :=
  ∀ installed ∈ world.manager.installsFresh prims call, installed.2 ∉ (world.manager.slots installed.1).held.map Prod.fst ∧
      ∀ message, (installed.1, message) ∈ world.accepted → ¬ OpensUnder prims installed.2 message

structure Unreplayed (world : Receiver) : Prop where
  guarded : ∀ peer, Guard prims (world.manager.slots peer).held fun message => (peer, message) ∈ world.accepted
  distinct : world.accepted.Nodup

variable {world : Receiver}

theorem guard_call (fresh : FreshKey prims world call) (notOpen : ∀ message aad now, call ≠ .openFrom peer message aad now)
    (guard : Guard prims (world.manager.slots peer).held fun message => (peer, message) ∈ world.accepted) :
    Guard prims ((world.manager.call prims call).slots peer).held fun message => (peer, message) ∈ world.accepted := by
  refine guard_subperm prims ?_ (held_call prims notOpen)
  cases installs : world.manager.installsFresh prims call with
  | none => exact guard
  | some installed =>
    obtain ⟨target, key⟩ := installed
    by_cases same : target = peer
    · subst same
      obtain ⟨unheld, unused⟩ := fresh (target, key) installs
      rw [fresh_for_target]
      exact guard_fresh prims guard unheld unused
    · have elsewhere : freshFor (some (target, key)) peer = [] := by simp [freshFor, same]
      rw [elsewhere]
      exact guard

theorem accepted_call (world : Receiver) (notOpen : ∀ peer message aad now, call ≠ .openFrom peer message aad now) :
    (world.step prims call).accepted = world.accepted := by
  cases call with
  | openFrom peer message aad now => exact absurd rfl (notOpen peer message aad now)
  | establish | initiate | accept | complete | remove | evict | sealFor => rfl

theorem unreplayed_open (oneKey : OneKey prims) (inv : Unreplayed prims world) :
    Unreplayed prims (world.step prims (.openFrom target message aad now)) := by
  rcases @slots_open prims world.manager target message aad now with ⟨slots, plaintext, opens, ok, changed⟩ | ⟨error, failed, same⟩
  · have accepted : (world.step prims (.openFrom target message aad now)).accepted = (target, message) :: world.accepted := by
      simp only [Receiver.step, ok]
    have slotsAfter : (world.step prims (.openFrom target message aad now)).manager.slots =
        Function.update world.manager.slots target slots := changed
    obtain ⟨key, window, front, back, held, admits, decrypted, moved⟩ := held_opens opens
    have opensUnder : OpensUnder prims key message := ⟨aad, plaintext, decrypted⟩
    have guard := inv.guarded target
    rw [held] at guard
    have unseen : (target, message) ∉ world.accepted :=
      guard_refuses prims guard (by simp) admits opensUnder
    refine ⟨fun peer => ?_, ?_⟩
    · rw [slotsAfter, accepted]
      by_cases samePeer : peer = target
      · subst samePeer
        rw [update_self]
        have after := guard_accept prims oneKey guard opensUnder
        refine guard_weaken prims (guard_subperm prims after moved) fun other isAccepted => ?_
        rcases mem_cons.mp isAccepted with same | old
        · exact Or.inl (Prod.mk.inj same).2
        · exact Or.inr old
      · rw [update_of_ne samePeer]
        refine guard_weaken prims (inv.guarded peer) fun other isAccepted => ?_
        rcases mem_cons.mp isAccepted with same | old
        · exact absurd (Prod.mk.inj same).1 samePeer
        · exact old
    · rw [accepted]
      exact nodup_cons.mpr ⟨unseen, inv.distinct⟩
  have accepted : (world.step prims (.openFrom target message aad now)).accepted = world.accepted := by
    simp only [Receiver.step, failed]
  have slotsAfter : (world.step prims (.openFrom target message aad now)).manager.slots = world.manager.slots := same
  refine ⟨fun peer => ?_, ?_⟩
  · rw [slotsAfter, accepted]
    exact inv.guarded peer
  · rw [accepted]
    exact inv.distinct

theorem unreplayed_step (oneKey : OneKey prims) (inv : Unreplayed prims world) (fresh : FreshKey prims world call) :
    Unreplayed prims (world.step prims call) := by
  by_cases opening : ∃ peer message aad now, call = .openFrom peer message aad now
  · obtain ⟨peer, message, aad, now, rfl⟩ := opening
    exact unreplayed_open prims oneKey inv
  have notOpen : ∀ peer message aad now, call ≠ .openFrom peer message aad now :=
    fun peer message aad now same => opening ⟨peer, message, aad, now, same⟩
  have accepted := accepted_call prims world notOpen
  refine ⟨fun peer => ?_, by rw [accepted]; exact inv.distinct⟩
  rw [accepted]
  exact guard_call prims fresh (notOpen peer) (inv.guarded peer)

def Receiver.start (secret : Key32) : Receiver := ⟨.fromSecret prims secret, []⟩

theorem start_unreplayed {secret : Key32} : Unreplayed prims (.start prims secret) where
  guarded := fun _ => ⟨nodup_nil, fun _ listed => absurd listed not_mem_nil⟩
  distinct := nodup_nil

theorem no_message_accepted_twice (oneKey : OneKey prims) (secret : Key32) (calls : List SessionCall)
    (fresh : RunMeets (Receiver.step prims) (FreshKey prims) (.start prims secret) calls) :
    (run (Receiver.step prims) (.start prims secret) calls).accepted.Nodup :=
  (run_invariant (FreshKey prims) (Unreplayed prims)
    (fun world call inv freshKey => unreplayed_step prims oneKey inv freshKey) _ calls
    (start_unreplayed prims) fresh).distinct

theorem sample_one_key : OneKey samplePrims := by
  rintro key other message ⟨aad, plaintext, opened⟩ ⟨otherAad, otherPlaintext, otherOpened⟩
  simp only [samplePrims] at opened otherOpened
  split at opened
  · rename_i underKey
    split at otherOpened
    · rename_i underOther
      exact Vector.toList_inj.mp (underKey.symm.trans underOther)
    · cases otherOpened
  · cases opened

def sampleMessage (key : Key32) (counter : Nat) : Bytes := nonceBytes counter ++ key.toList

-- The peer disconnects and comes back: the same long-term key is put in place with
-- an empty window, and the recorded message opens again.
theorem reconnect_accepts_replay :
    OneKey samplePrims ∧ ¬ (run (Receiver.step samplePrims) (.start samplePrims (sampleKey 1))
      [.establish (ofByte 2) (sampleKey 2) 0, .openFrom (ofByte 2) (sampleMessage (sampleKey 3) 0) [] 1,
        .remove (ofByte 2) 2, .establish (ofByte 2) (sampleKey 2) 3,
        .openFrom (ofByte 2) (sampleMessage (sampleKey 3) 0) [] 4]).accepted.Nodup :=
  ⟨sample_one_key, by decide +kernel⟩

theorem sample_opens_under : OpensUnder samplePrims key message ↔ (message.drop 12).take 32 = key.toList := by
  simp [OpensUnder, samplePrims]

instance (world : Receiver) (call : SessionCall) : Decidable (FreshKey samplePrims world call) :=
  decidable_of_iff (∀ installed ∈ world.manager.installsFresh samplePrims call,
    installed.2 ∉ (world.manager.slots installed.1).held.map Prod.fst ∧
      ∀ entry ∈ world.accepted, entry.1 = installed.1 → ¬ (entry.2.drop 12).take 32 = installed.2.toList) (by
    simp only [FreshKey, sample_opens_under, Prod.forall]
    refine forall_congr' fun peer => forall_congr' fun key => forall_congr' fun _ => and_congr_right fun _ => ?_
    constructor
    · intro unused message accepted
      exact unused peer message accepted rfl
    · rintro unused other message accepted rfl
      exact unused message accepted)

theorem no_message_accepted_twice_sample :
    (run (Receiver.step samplePrims) (.start samplePrims (sampleKey 1))
      [.establish (ofByte 2) (sampleKey 2) 0, .openFrom (ofByte 2) (sampleMessage (sampleKey 3) 0) [] 1,
        .openFrom (ofByte 2) (sampleMessage (sampleKey 3) 0) [] 1,
        .accept (ofByte 2) (sampleKey 5) .onConfirmation (sampleKey 6) 2,
        .openFrom (ofByte 2) (sampleMessage (sampleKey 11) 0) [] 3,
        .openFrom (ofByte 2) (sampleMessage (sampleKey 3) 1) [] 4, .remove (ofByte 2) 5,
        .openFrom (ofByte 2) (sampleMessage (sampleKey 11) 0) [] 6]).accepted.Nodup :=
  no_message_accepted_twice samplePrims sample_one_key (sampleKey 1) _ (by decide +kernel)

end SwarmLlm.Crypto
