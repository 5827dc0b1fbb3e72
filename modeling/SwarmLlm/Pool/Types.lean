import SwarmLlm.Types
import SwarmLlm.Lib.Bytes

namespace SwarmLlm.Pool

open Lib

abbrev PoolId := NodeId

structure PoolDeviceStats where
  forwardsServed : Nat
  requestsServed : Nat
  shardsHosted : Nat
  vramMb : Nat
  ramMb : Nat
  uptimeSecs : Nat
  modelsHosted : List String
  deriving DecidableEq

structure PoolMembership where
  nodeId : NodeId
  creditsContributed : Int
  joinedAt : DateTime
  acceptanceSignature : Bytes
  invitationId : Uuid
  invitationExpiresAt : DateTime
  deviceName : Option String
  lastSeen : Option DateTime
  online : Bool
  deviceStats : Option PoolDeviceStats
  contributionLevel : UInt8
  deriving DecidableEq

structure ShardPin where
  modelId : String
  shardIndices : List UInt32
  targetNodeId : NodeId
  deriving DecidableEq

structure PoolState where
  poolId : PoolId
  name : String
  members : List PoolMembership
  createdAt : DateTime
  ownerSignature : Bytes
  totalLifetimeCredits : Int
  memberCreditSplitPct : UInt8
  shardPins : List ShardPin
  generation : Nat
  deriving DecidableEq

structure PoolCreditForward where
  id : Uuid
  poolId : PoolId
  fromNodeId : NodeId
  toNodeId : NodeId
  amount : Int
  memberSignature : Bytes
  ownerSignature : Bytes
  timestamp : DateTime
  deriving DecidableEq

structure PoolRemoval where
  poolId : PoolId
  removedNodeId : NodeId
  ownerSignature : Bytes
  removedAt : DateTime
  removalId : Uuid
  deriving DecidableEq

structure PoolInvitation where
  id : Uuid
  poolId : PoolId
  inviteeNodeId : NodeId
  expiresAt : DateTime
  ownerSignature : Bytes
  createdAt : DateTime
  deriving DecidableEq

structure BlindedPoolInvitation where
  id : Uuid
  poolId : PoolId
  inviteeCommitment : Bytes
  expiresAt : DateTime
  ownerSignature : Bytes
  createdAt : DateTime
  codeHash : Option Bytes
  deriving DecidableEq

structure PoolAcceptance where
  invitationId : Uuid
  poolId : PoolId
  inviteeNodeId : NodeId
  inviteeSignature : Bytes
  acceptedAt : DateTime
  deriving DecidableEq

-- The last two fields are never stored.
structure PoolInviteCode where
  code : String
  poolId : PoolId
  createdAt : DateTime
  expiresAt : DateTime
  codeHash : Bytes
  consumed : Bool
  claimedBy : Option (NodeId × Uuid)
  repeatAnsweredAt : Option DateTime
  deriving DecidableEq

structure MemberLeft where
  poolId : PoolId
  nodeId : NodeId
  leftAt : Int
  nonce : Uuid
  signature : Bytes
  deriving DecidableEq

-- The replay table's keys: a removal's id, or `ml-` and the nonce of a leave notice.
inductive ReplayKey where
  | removal (id : Uuid)
  | memberLeft (nonce : Uuid)
  deriving DecidableEq

structure PoolStateDiff where
  poolId : PoolId
  parentGeneration : Nat
  newGeneration : Nat
  addedMembers : List PoolMembership
  removedNodeIds : List NodeId
  shardPins : Option (List ShardPin)
  totalLifetimeCredits : Option Int
  memberCreditSplitPct : Option UInt8
  stateChecksum : Bytes
  timestampMs : Nat
  ownerSignature : Bytes
  deriving DecidableEq

structure JoinRequest where
  codeHash : Bytes
  requester : NodeId
  signature : Bytes
  deriving DecidableEq

structure DeviceStatsReport where
  poolId : PoolId
  nodeId : NodeId
  deviceName : Option String
  stats : PoolDeviceStats
  deriving DecidableEq

inductive PoolMessage where
  | blindedInvitation (blinded : BlindedPoolInvitation)
  | acceptance (acceptance : PoolAcceptance)
  | stateGossip (state : PoolState)
  | stateDiff (diff : PoolStateDiff)
  | creditForward (forward : PoolCreditForward)
  | removal (removal : PoolRemoval)
  | memberLeft (notice : MemberLeft)
  | joinRequest (request : JoinRequest)
  | deviceStatsReport (report : DeviceStatsReport)
  deriving DecidableEq

end SwarmLlm.Pool
