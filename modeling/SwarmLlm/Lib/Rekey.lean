import Mathlib.Logic.Function.Basic
import SwarmLlm.Lib.Run

namespace Lib

open List Function

-- Two parties that change the key they seal with. The initiator of an exchange
-- switches when the answer arrives, the responder parks the key and switches when
-- a message opens under it. Whatever was sent may arrive late, twice or never.
structure Agreed (Sec Pub K : Type) where
  pub : Sec → Pub
  derive : Sec → Pub → K
  agree : ∀ first second, derive first (pub second) = derive second (pub first)

inductive Wire (Pub Id M : Type) where
  | request (id : Id) (pub : Pub)
  | response (id : Id) (pub : Pub)
  | sealed (message : M)

structure Keys (K Sec : Type) where
  live : Option K
  parked : Option K
  previous : Option K
  pending : Option Sec

structure Rekey (K Sec Pub Id M : Type) where
  keys : Side → Keys K Sec
  sent : List (Side × Wire Pub Id M)
  initiated : Side → Id
  answered : Side → Id

variable {side : Side}

namespace Rekey

variable {K Sec Pub Id M : Type} (dh : Agreed Sec Pub K) (opens : K → M → Prop)

def Holds (keys : Keys K Sec) (key : K) : Prop :=
  keys.live = some key ∨ keys.parked = some key ∨ keys.previous = some key

-- The key that an install pushes out is of no use to the peer.
def Spare (state : Rekey K Sec Pub Id M) (side : Side) : Prop :=
  ∀ key ∈ (state.keys side).previous, (state.keys side.peer).live ≠ some key ∧ (state.keys side.peer).parked ≠ some key

-- The parked key is neither what the peer seals with nor what it will derive.
def Replaceable (state : Rekey K Sec Pub Id M) (side : Side) : Prop :=
  ∀ key ∈ (state.keys side).parked, (state.keys side.peer).live ≠ some key ∧
      ((state.keys side.peer).pending = none ∨ state.initiated side.peer ≠ state.answered side)

structure Unused (state : Rekey K Sec Pub Id M) (key : K) : Prop where
  held : ∀ side, ¬ Holds (state.keys side) key
  opened : ∀ side message, (side, .sealed message) ∈ state.sent → ¬ opens key message

inductive Move (state : Rekey K Sec Pub Id M) : Rekey K Sec Pub Id M → Prop where
  | stay : Move state state
  | initiate (side : Side) (secret : Sec) (id : Id)
      (unasked : ∀ other pub, (other, .request id pub) ∉ state.sent)
      (unanswered : ∀ other pub, (other, .response id pub) ∉ state.sent) :
      Move state
        { state with
          keys := Function.update state.keys side { state.keys side with pending := some secret }
          sent := (side, .request id (dh.pub secret)) :: state.sent
          initiated := Function.update state.initiated side id }
  | park (side : Side) (secret : Sec) (id : Id) (pub : Pub) (asked : (side.peer, .request id pub) ∈ state.sent)
      (unused : Unused opens state (dh.derive secret pub)) (replaceable : state.Replaceable side) :
      Move state
        { state with
          keys := Function.update state.keys side
            { state.keys side with parked := some (dh.derive secret pub), pending := none }
          sent := (side, .response id (dh.pub secret)) :: state.sent
          answered := Function.update state.answered side id }
  | complete (side : Side) (secret : Sec) (id : Id) (pub : Pub) (confirmations : List M)
      (replied : (side.peer, .response id pub) ∈ state.sent) (waiting : (state.keys side).pending = some secret)
      (matching : state.initiated side = id) (spare : state.Spare side) :
      Move state
        { state with
          keys := Function.update state.keys side
            ⟨some (dh.derive secret pub), (state.keys side).parked, (state.keys side).live, none⟩
          sent := confirmations.map (fun message => (side, .sealed message)) ++ state.sent }
  | promote (side : Side) (key : K) (message : M) (arrived : (side.peer, .sealed message) ∈ state.sent)
      (opened : opens key message) (waiting : (state.keys side).parked = some key) (spare : state.Spare side) :
      Move state
        { state with
          keys := Function.update state.keys side
            ⟨some key, none, (state.keys side).live, (state.keys side).pending⟩ }
  | send (side : Side) (message : M) (only : ∀ key, opens key message → (state.keys side).live = some key) :
      Move state { state with sent := (side, .sealed message) :: state.sent }

-- What is known of the key a party will derive from an answer to its exchange.
structure Awaited (state : Rekey K Sec Pub Id M) (side : Side) (key : K) : Prop where
  parked : (state.keys side.peer).parked = some key
  matching : state.answered side.peer = state.initiated side
  notLive : (state.keys side).live ≠ some key
  notParked : (state.keys side).parked ≠ some key
  unsealed : ∀ message, (side, .sealed message) ∈ state.sent → ¬ opens key message

structure Inv (state : Rekey K Sec Pub Id M) : Prop where
  covered : ∀ side key, (state.keys side).live = some key → Holds (state.keys side.peer) key
  backed : ∀ side key message, (state.keys side.peer).parked = some key → (side, .sealed message) ∈ state.sent →
    opens key message → (state.keys side).live = some key ∨ (state.keys side).previous = some key
  asked : ∀ side secret pub, (state.keys side).pending = some secret →
    (side, .request (state.initiated side) pub) ∈ state.sent → pub = dh.pub secret
  awaited : ∀ side secret pub, (state.keys side).pending = some secret →
    (side.peer, .response (state.initiated side) pub) ∈ state.sent → Awaited opens state side (dh.derive secret pub)

variable {pub : Pub} {id : Id} {message : M} {secret : Sec} {state : Rekey K Sec Pub Id M}

theorem inv_send (inv : Inv dh opens state) (only : ∀ key, opens key message → (state.keys side).live = some key) :
    Inv dh opens { state with sent := (side, .sealed message) :: state.sent } where
  covered := inv.covered
  backed := by
    intro other key opened parked listed opensIt
    rcases mem_cons.mp listed with same | old
    · cases same
      exact .inl (only key opensIt)
    · exact inv.backed other key opened parked old opensIt
  asked := by
    intro other secret pub pending listed
    rcases mem_cons.mp listed with same | old
    · cases same
    · exact inv.asked other secret pub pending old
  awaited := by
    intro other secret pub pending listed
    rcases mem_cons.mp listed with same | old
    · cases same
    have known := inv.awaited other secret pub pending old
    refine { known with unsealed := fun sealed inSent opensIt => ?_ }
    rcases mem_cons.mp inSent with same | earlier
    · cases same
      exact known.notLive (only _ opensIt)
    · exact known.unsealed sealed earlier opensIt

section Update

variable {V : Type} (values : Side → V) (side : Side) (value : V)

@[simp] theorem update_peer : Function.update values side value side.peer = values side.peer :=
  update_of_ne peer_ne _ _

end Update

-- What one party's keys say of the other's: the invariant as seen from one side.
structure Known (sent : List (Side × Wire Pub Id M)) (side : Side) (own peer : Keys K Sec) (initiated answered : Id) : Prop where
  covered : ∀ key, own.live = some key → Holds peer key
  backed : ∀ key message, peer.parked = some key → (side, .sealed message) ∈ sent → opens key message →
    own.live = some key ∨ own.previous = some key
  asked : ∀ secret pub, own.pending = some secret → (side, .request initiated pub) ∈ sent → pub = dh.pub secret
  awaited : ∀ secret pub, own.pending = some secret → (side.peer, .response initiated pub) ∈ sent →
    (peer.parked = some (dh.derive secret pub) ∧ answered = initiated) ∧ own.live ≠ some (dh.derive secret pub) ∧
      own.parked ≠ some (dh.derive secret pub) ∧ ∀ message, (side, .sealed message) ∈ sent → ¬ opens (dh.derive secret pub) message

variable {dh opens}

theorem inv_iff (side : Side) : Inv dh opens state ↔
    Known dh opens state.sent side (state.keys side) (state.keys side.peer) (state.initiated side) (state.answered side.peer) ∧
    Known dh opens state.sent side.peer (state.keys side.peer) (state.keys side) (state.initiated side.peer) (state.answered side) := by
  have each : Inv dh opens state ↔ ∀ side, Known dh opens state.sent side (state.keys side) (state.keys side.peer)
      (state.initiated side) (state.answered side.peer) := by
    refine ⟨fun inv side => ⟨inv.covered side, inv.backed side, inv.asked side, fun secret pub pending listed => ?_⟩,
      fun known => ⟨fun side => (known side).covered, fun side => (known side).backed, fun side => (known side).asked,
        fun side secret pub pending listed => ?_⟩⟩
    · have waits := inv.awaited side secret pub pending listed
      exact ⟨⟨waits.parked, waits.matching⟩, waits.notLive, waits.notParked, waits.unsealed⟩
    · obtain ⟨⟨parked, matching⟩, notLive, notParked, unsealed⟩ := (known side).awaited secret pub pending listed
      exact ⟨parked, matching, notLive, notParked, unsealed⟩
  refine each.trans ⟨fun known => ⟨known side, ?_⟩, fun ⟨own, peer⟩ other => ?_⟩
  · simpa only [peer_peer] using known side.peer
  · rcases side_cases side other with rfl | rfl
    · exact own
    · simpa only [peer_peer] using peer

theorem known_sent {sent more : List (Side × Wire Pub Id M)} {own peer : Keys K Sec} {initiated answered : Id}
    (known : Known dh opens sent side own peer initiated answered)
    (sealed : ∀ message, (side, .sealed message) ∈ more → (side, .sealed message) ∈ sent)
    (requests : ∀ pub, (side, .request initiated pub) ∈ more → (side, .request initiated pub) ∈ sent)
    (responses : ∀ pub, (side.peer, .response initiated pub) ∈ more → (side.peer, .response initiated pub) ∈ sent) :
    Known dh opens more side own peer initiated answered where
  covered := known.covered
  backed key message parked listed := known.backed key message parked (sealed message listed)
  asked secret pub pending listed := known.asked secret pub pending (requests pub listed)
  awaited secret pub pending listed := by
    obtain ⟨parked, notLive, notParked, unsealed⟩ := known.awaited secret pub pending (responses pub listed)
    exact ⟨parked, notLive, notParked, fun message inSent => unsealed message (sealed message inSent)⟩

theorem inv_initiate (inv : Inv dh opens state) (unasked : ∀ other pub, (other, .request id pub) ∉ state.sent)
    (unanswered : ∀ other pub, (other, .response id pub) ∉ state.sent) :
    Inv dh opens
      { state with
        keys := Function.update state.keys side { state.keys side with pending := some secret }
        sent := (side, .request id (dh.pub secret)) :: state.sent
        initiated := Function.update state.initiated side id } := by
  obtain ⟨own, peer⟩ := (inv_iff side).mp inv
  refine (inv_iff side).mpr ?_
  simp only [update_self, update_peer]
  refine ⟨⟨own.covered, fun key message parked listed => own.backed key message parked (by simpa using listed), ?_, ?_⟩, ?_⟩
  · intro otherSecret pub pending listed
    cases pending
    rcases mem_cons.mp listed with same | old
    · cases same
      rfl
    · exact absurd old (unasked side pub)
  · intro otherSecret pub pending listed
    exact absurd (by simpa using listed) (unanswered side.peer pub)
  · exact { known_sent peer (by simp) (by simp [peer_ne]) (by simp) with }

-- An earlier answer to the same exchange would be the key that is replaced.
theorem first_answer {sent : List (Side × Wire Pub Id M)}
    (peer : Known dh opens sent side.peer (state.keys side.peer) (state.keys side) (state.initiated side.peer) (state.answered side))
    (replaceable : state.Replaceable side) (pending : (state.keys side.peer).pending = some secret) (earlier : Pub) :
    (side, .response (state.initiated side.peer) earlier) ∉ sent := by
  intro old
  obtain ⟨⟨parked, matching⟩, -⟩ := peer.awaited secret earlier pending (by rwa [peer_peer])
  rcases (replaceable _ parked).2 with idle | different
  · rw [idle] at pending
    cases pending
  · exact different matching.symm

theorem inv_park (inv : Inv dh opens state) (asked : (side.peer, .request id pub) ∈ state.sent)
    (unused : Unused opens state (dh.derive secret pub)) (replaceable : state.Replaceable side) :
    Inv dh opens
      { state with
        keys := Function.update state.keys side
          { state.keys side with parked := some (dh.derive secret pub), pending := none }
        sent := (side, .response id (dh.pub secret)) :: state.sent
        answered := Function.update state.answered side id } := by
  obtain ⟨own, peer⟩ := (inv_iff side).mp inv
  refine (inv_iff side).mpr ?_
  simp only [update_self, update_peer]
  refine ⟨⟨own.covered, fun key message parked listed => own.backed key message parked (by simpa using listed), nofun, nofun⟩,
    ?_, ?_, fun secret pub pending listed => peer.asked secret pub pending (by simpa using listed), ?_⟩
  · intro key live
    rcases peer.covered key live with isLive | parked | previous
    · exact .inl isLive
    · exact absurd live (replaceable key parked).1
    · exact .inr (.inr previous)
  · intro key message parked listed opensIt
    cases parked
    exact absurd opensIt (unused.opened side.peer message (by simpa using listed))
  · intro otherSecret otherPub pending listed
    rw [peer_peer] at listed
    rcases mem_cons.mp listed with same | old
    · cases same
      have same := peer.asked otherSecret pub pending asked
      subst same
      rw [dh.agree otherSecret secret]
      refine ⟨⟨rfl, rfl⟩, fun live => unused.held side.peer (.inl live), fun parked => unused.held side.peer (.inr (.inl parked)), ?_⟩
      exact fun message inSent => unused.opened side.peer message (by simpa using inSent)
    · exact absurd old (first_answer peer replaceable pending otherPub)

theorem inv_complete {confirmations : List M} (inv : Inv dh opens state)
    (replied : (side.peer, .response (state.initiated side) pub) ∈ state.sent)
    (waiting : (state.keys side).pending = some secret) (spare : state.Spare side) :
    Inv dh opens
      { state with
        keys := Function.update state.keys side
          ⟨some (dh.derive secret pub), (state.keys side).parked, (state.keys side).live, none⟩
        sent := confirmations.map (fun message => (side, .sealed message)) ++ state.sent } := by
  obtain ⟨own, peer⟩ := (inv_iff side).mp inv
  obtain ⟨⟨parked, -⟩, -⟩ := own.awaited secret pub waiting replied
  refine (inv_iff side).mpr ?_
  simp only [update_self, update_peer]
  refine ⟨⟨?_, fun key message known _ _ => .inl (parked.symm.trans known), nofun, nofun⟩, ?_⟩
  · intro key live
    cases live
    exact .inr (.inl parked)
  refine { known_sent peer (by simp [peer_ne.symm]) (by simp) (by simp) with covered := fun key live => ?_ }
  rcases peer.covered key live with isLive | parked | previous
  · exact .inr (.inr isLive)
  · exact .inr (.inl parked)
  · exact absurd live (spare key previous).1

theorem inv_promote {key : K} (inv : Inv dh opens state) (arrived : (side.peer, .sealed message) ∈ state.sent)
    (opened : opens key message) (waiting : (state.keys side).parked = some key) (spare : state.Spare side) :
    Inv dh opens
      { state with
        keys := Function.update state.keys side ⟨some key, none, (state.keys side).live, (state.keys side).pending⟩ } := by
  obtain ⟨own, peer⟩ := (inv_iff side).mp inv
  refine (inv_iff side).mpr ?_
  simp only [update_self, update_peer]
  refine ⟨⟨?_, ?_, own.asked, ?_⟩, ?_, nofun, peer.asked, ?_⟩
  · intro otherKey live
    cases live
    exact (peer.backed key message waiting arrived opened).imp_right .inr
  · intro otherKey otherMessage parked listed opensIt
    rcases own.backed otherKey otherMessage parked listed opensIt with isLive | previous
    · exact .inr isLive
    · exact absurd parked (spare otherKey previous).2
  · intro secret pub pending listed
    obtain ⟨parked, -, notParked, unsealed⟩ := own.awaited secret pub pending listed
    exact ⟨parked, fun same => notParked (waiting.trans same), nofun, unsealed⟩
  · intro otherKey live
    rcases peer.covered otherKey live with isLive | parked | previous
    · exact .inr (.inr isLive)
    · exact .inl (waiting.symm.trans parked)
    · exact absurd live (spare otherKey previous).1
  · intro secret pub pending listed
    -- The peer has not sealed with a key it is still waiting for.
    obtain ⟨⟨parked, -⟩, -, -, unsealed⟩ := peer.awaited secret pub pending listed
    cases waiting.symm.trans parked
    exact absurd opened (unsealed message arrived)

theorem inv_move (state after : Rekey K Sec Pub Id M) (inv : Inv dh opens state) (move : Move dh opens state after) :
    Inv dh opens after := by
  cases move with
  | stay => exact inv
  | initiate side secret id unasked unanswered => exact inv_initiate inv unasked unanswered
  | park side secret id pub asked unused replaceable =>
    exact inv_park inv asked unused replaceable
  | complete side secret id pub confirmations replied waiting matching spare =>
    subst matching
    exact inv_complete inv replied waiting spare
  | promote side key message arrived opened waiting spare =>
    exact inv_promote inv arrived opened waiting spare
  | send side message only => exact inv_send dh opens inv only

end Rekey

end Lib
