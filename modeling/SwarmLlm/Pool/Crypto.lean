import SwarmLlm.Pool.Types

namespace SwarmLlm.Pool

open Lib

-- The libraries the pool code calls: BLAKE3, Ed25519 and the RFC 3339 text of an
-- instant. `sign node` is the signature of the identity whose key is `node`.
structure Primitives where
  blake3 : Bytes → Bytes
  keyValid : NodeId → Bool
  verify : NodeId → Bytes → Bytes → Bool
  sign : NodeId → Bytes → Bytes
  rfc3339 : DateTime → String

variable (prims : Primitives)

def nodeBytes (node : NodeId) : Bytes := node.bytes.toList

def uuidBytes (id : Uuid) : Bytes := id.bytes.toList

def poolCreatePayload (ownerId : NodeId) (name : String) (createdAt : DateTime) : Bytes :=
  prims.blake3 (utf8 "pool_create_v1" ++ nodeBytes ownerId ++ utf8 name ++ utf8 (prims.rfc3339 createdAt))

def invitationPayload (id : Uuid) (poolId : PoolId) (invitee : NodeId) (expiresAt : DateTime) : Bytes :=
  prims.blake3 (utf8 "pool_invitation_v1" ++ uuidBytes id ++ nodeBytes poolId ++ nodeBytes invitee ++
    utf8 (prims.rfc3339 expiresAt))

def acceptancePayload (invitationId : Uuid) (poolId : PoolId) (invitee : NodeId) (expiresAt : DateTime) : Bytes :=
  prims.blake3 (utf8 "pool_acceptance_v1" ++ uuidBytes invitationId ++ nodeBytes poolId ++ nodeBytes invitee ++
    utf8 (prims.rfc3339 expiresAt))

variable (identity : NodeId) (poolId : PoolId)

def removalPayload (removedNode : NodeId) (removedAt : DateTime) (removalId : Uuid) : Bytes :=
  prims.blake3 (utf8 "pool_removal_v1" ++ nodeBytes poolId ++ nodeBytes removedNode ++
    utf8 (prims.rfc3339 removedAt) ++ uuidBytes removalId)

def memberLeftPayload (nodeId : NodeId) (leftAt : Int) (nonce : Uuid) : Bytes :=
  prims.blake3 (utf8 "pool_member_left_v1" ++ nodeBytes poolId ++ nodeBytes nodeId ++ leBytesI64 leftAt ++ uuidBytes nonce)

def joinRequestPayload (codeHash : Bytes) (requester : NodeId) : Bytes :=
  prims.blake3 (utf8 "pool_join_request_v1" ++ codeHash ++ nodeBytes requester)

def computeInviteeCommitment (invitee : NodeId) (invitationId : Uuid) : Bytes :=
  prims.blake3 (utf8 "pool_invitee_commit_v1" ++ nodeBytes invitee ++ uuidBytes invitationId)

def creditForwardPayload (id : Uuid) (poolId : PoolId) (fromNode toNode : NodeId) (amount : Int)
    (timestamp : DateTime) : Bytes :=
  prims.blake3 (utf8 "pool_credit_forward_v1" ++ uuidBytes id ++ nodeBytes poolId ++ nodeBytes fromNode ++
    nodeBytes toNode ++ leBytesI64 amount ++ utf8 (prims.rfc3339 timestamp))

def poolStateDiffPayload (parentGeneration newGeneration : Nat) (stateChecksum : Bytes)
    (timestampMs : Nat) : Bytes :=
  prims.blake3 (utf8 "pool_state_diff_v1" ++ nodeBytes poolId ++ leBytes 8 parentGeneration ++
    leBytes 8 newGeneration ++ stateChecksum ++ leBytes 8 timestampMs)

-- The order of `[u8; 32]` and of `Vec<u32>` is lexicographic, that of a model id
-- is the byte order of its text.
def nodeLe (left right : NodeId) : Bool := decide (left.bytes.toList ≤ right.bytes.toList)

def pinLe (left right : ShardPin) : Bool :=
  if left.modelId = right.modelId then
    if left.targetNodeId = right.targetNodeId then decide (left.shardIndices ≤ right.shardIndices)
    else nodeLe left.targetNodeId right.targetNodeId
  else decide (utf8 left.modelId ≤ utf8 right.modelId)

def memberBytes (member : PoolMembership) : Bytes := nodeBytes member.nodeId ++ uuidBytes member.invitationId

def pinBytes (pin : ShardPin) : Bytes :=
  utf8 pin.modelId ++ nodeBytes pin.targetNodeId ++ leBytes 4 pin.shardIndices.length ++
    pin.shardIndices.flatMap fun index => leBytes 4 index.toNat

def sortedMembers (members : List PoolMembership) : List PoolMembership :=
  members.mergeSort fun left right => nodeLe left.nodeId right.nodeId

def checksumInput (state : PoolState) : Bytes :=
  utf8 "pool_state_checksum_v1" ++ nodeBytes state.poolId ++ leBytes 8 state.generation ++
    leBytesI64 state.totalLifetimeCredits ++ [state.memberCreditSplitPct] ++
    leBytes 4 state.members.length ++ (sortedMembers state.members).flatMap memberBytes ++
    leBytes 4 state.shardPins.length ++ (state.shardPins.mergeSort pinLe).flatMap pinBytes

def poolStateChecksum (state : PoolState) : Bytes := prims.blake3 (checksumInput state)

def verifySig (signature payload : Bytes) (key : NodeId) : Bool :=
  signature.length == 64 && prims.verify key payload signature

def verifyRemoval (removal : PoolRemoval) (ownerKey : NodeId) : Bool :=
  verifySig prims removal.ownerSignature
    (removalPayload prims removal.poolId removal.removedNodeId removal.removedAt removal.removalId) ownerKey

def createInvitation (invitee : NodeId) (ttlHours : Nat) (id : Uuid)
    (now : DateTime) : PoolInvitation :=
  let expiresAt := now + ttlHours * hourNs
  ⟨id, poolId, invitee, expiresAt, prims.sign identity (invitationPayload prims id poolId invitee expiresAt), now⟩

variable (invitation : PoolInvitation)

def verifyInvitation (ownerKey : NodeId) : Bool :=
  verifySig prims invitation.ownerSignature
    (invitationPayload prims invitation.id invitation.poolId invitation.inviteeNodeId invitation.expiresAt) ownerKey

def createAcceptance (now : DateTime) : PoolAcceptance :=
  let payload := acceptancePayload prims invitation.id invitation.poolId invitation.inviteeNodeId invitation.expiresAt
  ⟨invitation.id, invitation.poolId, invitation.inviteeNodeId, prims.sign identity payload, now⟩

-- The expiry is the verifier's own copy, never a field of the acceptance.
def verifyAcceptance (acceptance : PoolAcceptance) (inviteeKey : NodeId) (invitationExpiresAt : DateTime) : Bool :=
  verifySig prims acceptance.inviteeSignature
    (acceptancePayload prims acceptance.invitationId acceptance.poolId acceptance.inviteeNodeId invitationExpiresAt)
    inviteeKey

def blindedInvitation (codeHash : Option Bytes) : BlindedPoolInvitation where
  id := invitation.id
  poolId := invitation.poolId
  inviteeCommitment := computeInviteeCommitment prims invitation.inviteeNodeId invitation.id
  expiresAt := invitation.expiresAt
  ownerSignature := invitation.ownerSignature
  createdAt := invitation.createdAt
  codeHash := codeHash

def createRemoval (removedNode : NodeId) (removalId : Uuid) (now : DateTime) :
    PoolRemoval :=
  ⟨poolId, removedNode, prims.sign identity (removalPayload prims poolId removedNode now removalId), now, removalId⟩

def createCreditForward (fromNode toNode : NodeId) (amount : Int) (id : Uuid)
    (now : DateTime) : PoolCreditForward :=
  { id := id, poolId := poolId, fromNodeId := fromNode, toNodeId := toNode, amount := amount
    memberSignature := prims.sign identity (creditForwardPayload prims id poolId fromNode toNode amount now)
    ownerSignature := [], timestamp := now }

def cosignCreditForward (forward : PoolCreditForward) (memberKey : NodeId) :
    Except SwarmError PoolCreditForward :=
  let payload := creditForwardPayload prims forward.id forward.poolId forward.fromNodeId forward.toNodeId
    forward.amount forward.timestamp
  if verifySig prims forward.memberSignature payload memberKey then
    .ok { forward with ownerSignature := prims.sign identity (payload ++ forward.memberSignature) }
  else .error .invalidSignature

-- A signature scheme for evaluating the model: the key's bytes, twice.
def samplePrims : Primitives where
  blake3 := id
  keyValid := fun _ => true
  verify := fun key _ signature => signature == nodeBytes key ++ nodeBytes key
  sign := fun node _ => nodeBytes node ++ nodeBytes node
  rfc3339 := fun _ => ""

end SwarmLlm.Pool
