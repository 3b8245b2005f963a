import P2Panda.Library.Overflow

/-!
# Operations

An operation is a signed header with an optional body. A header names its author, its place in the
author's log and its predecessor by its hash.
-/

namespace P2Panda.Core

abbrev Bytes := List UInt8

def HASH_LEN : Nat := 32

def VERIFYING_KEY_LEN : Nat := 32

def SIGNATURE_LEN : Nat := 64

structure Hash where
  bytes : Vector UInt8 HASH_LEN
  deriving DecidableEq

structure VerifyingKey where
  bytes : Vector UInt8 VERIFYING_KEY_LEN
  deriving DecidableEq

structure Signature where
  bytes : Vector UInt8 SIGNATURE_LEN
  deriving DecidableEq

abbrev Version := UInt16

abbrev PayloadSize := UInt32

abbrev SeqNum := UInt32

abbrev Body := Bytes

/-- A header with known extensions type. The extensions are kept as a CBOR value (of type `V`) as
well. -/
structure Header (V E : Type) where
  version : Version
  verifyingKey : VerifyingKey
  signature : Signature
  payloadSize : PayloadSize
  payloadHash : Option Hash
  seqNum : SeqNum
  backlink : Option Hash
  extensions : E
  extensionsCbor : Option V
  size : UInt32
  digest : Hash
  deriving DecidableEq

structure AnyHeader (V : Type) where
  version : Version
  verifyingKey : VerifyingKey
  signature : Signature
  payloadSize : PayloadSize
  payloadHash : Option Hash
  seqNum : SeqNum
  backlink : Option Hash
  size : UInt32
  digest : Hash
  extensions : Option V
  deriving DecidableEq

structure Operation (V E : Type) where
  hash : Hash
  header : Header V E
  body : Option Body
  deriving DecidableEq

structure AnyOperation (V : Type) where
  hash : Hash
  header : AnyHeader V
  body : Option Body
  deriving DecidableEq

variable {V E : Type}

/-- `AnyHeader::from`. -/
def Header.toAnyHeader (value : Header V E) : AnyHeader V where
  version := value.version
  verifyingKey := value.verifyingKey
  signature := value.signature
  payloadSize := value.payloadSize
  payloadHash := value.payloadHash
  seqNum := value.seqNum
  backlink := value.backlink
  size := value.size
  digest := value.digest
  extensions := value.extensionsCbor

/-- `AnyOperation::from`. -/
def Operation.toAnyOperation (value : Operation V E) : AnyOperation V where
  hash := value.hash
  header := value.header.toAnyHeader
  body := value.body

class Digest (T : Type) where
  hash : T → Hash

class Provenance (T : Type) where
  author : T → VerifyingKey
  verify : T → Bool

class Chain (T : Type) where
  backlink : T → Option Hash
  seqNum : T → SeqNum

class Offchain (T : Type) where
  payload : T → Option Body
  payloadHash : T → Option Hash
  payloadSize : T → PayloadSize

/-- A header is signed when built and verified when decoded; outside of tests nothing is left to
verify. -/
instance : Provenance (Header V E) where
  author := Header.verifyingKey
  verify _ := true

instance : Digest (Header V E) where
  hash := Header.digest

instance : Chain (Header V E) where
  backlink := Header.backlink
  seqNum := Header.seqNum

instance : Provenance (AnyHeader V) where
  author := AnyHeader.verifyingKey
  verify _ := true

instance : Digest (AnyHeader V) where
  hash := AnyHeader.digest

instance : Chain (AnyHeader V) where
  backlink := AnyHeader.backlink
  seqNum := AnyHeader.seqNum

instance : Provenance (Operation V E) where
  author operation := operation.header.verifyingKey
  verify operation := Provenance.verify operation.header

instance : Chain (Operation V E) where
  backlink operation := operation.header.backlink
  seqNum operation := operation.header.seqNum

instance : Offchain (Operation V E) where
  payload := Operation.body
  payloadHash operation := operation.header.payloadHash
  payloadSize operation := operation.header.payloadSize

end P2Panda.Core
