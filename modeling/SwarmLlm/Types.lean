import Mathlib.Data.Int.Basic

namespace SwarmLlm

-- A node is its Ed25519 public key.
structure NodeId where
  bytes : Vector UInt8 32
  deriving DecidableEq

structure Uuid where
  bytes : Vector UInt8 16
  deriving DecidableEq

-- Wall-clock instants and spans are counted in nanoseconds.
abbrev DateTime := Int

def secondsNs : Int := 1000000000

def hourNs : Int := 3600 * secondsNs

def numSeconds (span : Int) : Int := span.tdiv secondsNs

def timestamp (instant : DateTime) : Int := instant / secondsNs

def NodeId.ofByte (byte : UInt8) : NodeId := ⟨Vector.replicate 32 byte⟩

def Uuid.ofByte (byte : UInt8) : Uuid := ⟨Vector.replicate 16 byte⟩

def Uuid.nil : Uuid := Uuid.ofByte 0

def hexByte (byte : UInt8) : String :=
  String.ofList [Nat.digitChar (byte.toNat / 16), Nat.digitChar (byte.toNat % 16)]

def hexEncode (bytes : List UInt8) : String := String.join (bytes.map hexByte)

def NodeId.display (node : NodeId) : String := hexEncode (node.bytes.toList.take 8)

def Uuid.display (id : Uuid) : String :=
  let bytes := id.bytes.toList
  let part := fun start count => hexEncode ((bytes.drop start).take count)
  part 0 4 ++ "-" ++ part 4 2 ++ "-" ++ part 6 2 ++ "-" ++ part 8 2 ++ "-" ++ part 10 6

inductive SwarmError where
  | invalidSignature
  | creditError (message : String)
  | encryption (message : String)
  | decryptionFailed
  | noSession (peer : NodeId)
  | nonceOverflow
  | database (message : String)
  | network (message : String)
  | validation (message : String)
  | serviceUnavailable (message : String)
  deriving DecidableEq

def SwarmError.display : SwarmError → String
  | .invalidSignature => "Invalid transaction signature"
  | .creditError message => "Credit error: " ++ message
  | .encryption message => "Encryption error: " ++ message
  | .decryptionFailed => "Decryption failed (invalid key, corrupted data, or tampered ciphertext)"
  | .noSession peer => "No encryption session for peer: " ++ peer.display
  | .nonceOverflow => "Nonce counter overflow — session must be re-established"
  | .database message => "Database error: " ++ message
  | .network message => "Network error: " ++ message
  | .validation message => "Validation error: " ++ message
  | .serviceUnavailable message => "Service unavailable: " ++ message

end SwarmLlm
