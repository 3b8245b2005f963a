import P2Panda.Core.Operation
import P2Panda.Library.Cbor

/-!
# Encoding of headers

A header is a CBOR array: it has a payload hash with a payload, and a backlink after the first
entry. Extensions come last, if their type has more than one value.
-/

namespace P2Panda.Core

open P2Panda.Library

variable {V E ε ς ι : Type}

/-- `ε` and `ς` are errors of the CBOR library, `ι` of reading a verifying key. -/
inductive HeaderError (ε ς ι : Type) where
  | decodingHeader (error : ε)
  | decodingExtensions (error : ς)
  | unexpectedHeaderType (error : ε)
  | missingField (name : String)
  | unexpectedFieldType (error : ε) (name : String)
  | invalidVerifyingKey (error : ι)
  | invalidBytesLen (name : String) (expected actual : Nat)
  | unsupportedVersion (version supported : Version)
  | invalidSignature
  | excessiveFields
  | unexpectedExtensions
  | missingExtensions

structure Crypto (ι : Type) where
  digest : Bytes → Hash
  checkKey : Vector UInt8 VERIFYING_KEY_LEN → Except ι Unit
  verify : VerifyingKey → Bytes → Signature → Bool

structure Signer where
  verifyingKey : VerifyingKey
  sign : Bytes → Signature

/-- Extensions of type `E`. The value of a zero-sized type takes no bytes. -/
structure ExtensionsType (V E ς : Type) where
  zeroSized : Bool
  zeroed : zeroSized = true → E
  serialized : E → Except ς V
  deserialized : V → Except ς E

structure HeaderCodec (V E ε ς ι : Type) where
  cbor : Cbor V ε
  crypto : Crypto ι
  extensions : ExtensionsType V E ς

namespace HeaderCodec

variable (c : HeaderCodec V E ε ς ι)

/-- The items of the array. Bytes for signing have no signature. -/
def headerItems (version : Version) (verifyingKey : VerifyingKey) (signature : Option Signature)
    (payloadSize : PayloadSize) (payloadHash : Option Hash) (seqNum : SeqNum)
    (backlink : Option Hash) (extensions : Option V) : List V :=
  [c.cbor.unsigned version.toNat, c.cbor.byteString verifyingKey.bytes.toList] ++
    signature.toList.map (fun signature => c.cbor.byteString signature.bytes.toList) ++
    [c.cbor.unsigned payloadSize.toNat] ++
    payloadHash.toList.map (fun hash => c.cbor.byteString hash.bytes.toList) ++
    [c.cbor.unsigned seqNum.toNat] ++
    backlink.toList.map (fun hash => c.cbor.byteString hash.bytes.toList) ++
    extensions.toList

def encodeHeader (version : Version) (verifyingKey : VerifyingKey)
    (signature : Option Signature) (payloadSize : PayloadSize) (payloadHash : Option Hash)
    (seqNum : SeqNum) (backlink : Option Hash) (extensions : Option V) : Bytes :=
  c.cbor.encode (c.cbor.array (c.headerItems version verifyingKey signature payloadSize
    payloadHash seqNum backlink extensions))

/-- `AnyHeader::encode`. -/
def encodeAny (header : AnyHeader V) : Bytes :=
  c.encodeHeader header.version header.verifyingKey (some header.signature) header.payloadSize
    header.payloadHash header.seqNum header.backlink header.extensions

/-- `Header::encode`. -/
def encode (header : Header V E) : Bytes :=
  c.encodeHeader header.version header.verifyingKey (some header.signature) header.payloadSize
    header.payloadHash header.seqNum header.backlink header.extensionsCbor

def nextField (name : String) : List V → Except (HeaderError ε ς ι) (V × List V)
  | [] => .error (.missingField name)
  | next :: iter => .ok (next, iter)

def numberField {N : Type} (toNumber : V → Except ε N) (name : String) (iter : List V) :
    Except (HeaderError ε ς ι) (N × List V) := do
  let (next, iter) ← nextField name iter
  let number ← (toNumber next).mapError (.unexpectedFieldType · name)
  return (number, iter)

def bytesField (name : String) (len : Nat) (iter : List V) :
    Except (HeaderError ε ς ι) (Vector UInt8 len × List V) := do
  let (next, iter) ← nextField name iter
  let bytes ← (c.cbor.asBytes next).mapError (.unexpectedFieldType · name)
  if h : bytes.length = len then return (⟨bytes.toArray, h⟩, iter)
  else throw (.invalidBytesLen name len bytes.length)

def hashField (name : String) (given : Bool) (iter : List V) :
    Except (HeaderError ε ς ι) (Option Hash × List V) :=
  if given then do
    let (bytes, iter) ← c.bytesField name HASH_LEN iter
    return (some ⟨bytes⟩, iter)
  else return (none, iter)

/-- `VerifyingKey::from_bytes`. -/
def verifyingKeyFromBytes (bytes : Vector UInt8 VERIFYING_KEY_LEN) :
    Except (HeaderError ε ς ι) VerifyingKey := do
  (c.crypto.checkKey bytes).mapError .invalidVerifyingKey
  return ⟨bytes⟩

/-- `AnyHeader::decode`. -/
def decodeAny (bytes : Bytes) : Except (HeaderError ε ς ι) (AnyHeader V) := do
  let cbor ← (c.cbor.decode bytes).mapError .decodingHeader
  let seq ← (c.cbor.intoArray cbor).mapError .unexpectedHeaderType
  let (version, iter) ← numberField c.cbor.toU16 "version" seq
  ensure (version = 1) (.unsupportedVersion version 1)
  let (keyBytes, iter) ← c.bytesField "verifying_key" VERIFYING_KEY_LEN iter
  let verifyingKey ← c.verifyingKeyFromBytes keyBytes
  let (signatureBytes, iter) ← c.bytesField "signature" SIGNATURE_LEN iter
  let (payloadSize, iter) ← numberField c.cbor.toU32 "payload_size" iter
  let (payloadHash, iter) ← c.hashField "payload_hash" (payloadSize > 0) iter
  let (seqNum, iter) ← numberField c.cbor.toU32 "seq_num" iter
  let (backlink, iter) ← c.hashField "backlink" (seqNum > 0) iter
  ensure (iter.length ≤ 1) .excessiveFields
  -- the signature is over all fields but itself
  let verifyBytes := c.cbor.encode (c.cbor.array (seq.eraseIdx 2))
  ensure (c.crypto.verify verifyingKey verifyBytes ⟨signatureBytes⟩) .invalidSignature
  return ⟨version, verifyingKey, ⟨signatureBytes⟩, payloadSize, payloadHash, seqNum, backlink,
    UInt32.ofNat bytes.length, c.crypto.digest bytes, iter.head?⟩

def extensionsFrom : Option V → Except (HeaderError ε ς ι) E
  | some cbor =>
    if c.extensions.zeroSized then .error .unexpectedExtensions
    else (c.extensions.deserialized cbor).mapError .decodingExtensions
  | none =>
    if h : c.extensions.zeroSized = true then .ok (c.extensions.zeroed h)
    else .error .missingExtensions

/-- `Header::try_from`. -/
def tryFrom (value : AnyHeader V) : Except (HeaderError ε ς ι) (Header V E) := do
  let extensions ← c.extensionsFrom value.extensions
  return ⟨value.version, value.verifyingKey, value.signature, value.payloadSize,
    value.payloadHash, value.seqNum, value.backlink, extensions, value.extensions, value.size,
    value.digest⟩

/-- `Header::decode`. -/
def decode (bytes : Bytes) : Except (HeaderError ε ς ι) (Header V E) := do
  let anyHeader ← c.decodeAny bytes
  c.tryFrom anyHeader

end HeaderCodec

structure Builder where
  payloadSize : PayloadSize
  payloadHash : Option Hash
  seqNum : SeqNum
  backlink : Option Hash

namespace Builder

def new : Builder := ⟨0, none, 0, none⟩

def body (crypto : Crypto ι) (b : Builder) (bytes : Bytes) : Builder :=
  let payloadSize := UInt32.ofNat bytes.length
  ⟨payloadSize, if payloadSize = 0 then none else some (crypto.digest bytes), b.seqNum,
    b.backlink⟩

/-- Sets the "hash chain" values. A backlink of the first operation is ignored. -/
def chain (b : Builder) (seqNum : SeqNum) (backlink : Hash) : Builder :=
  ⟨b.payloadSize, b.payloadHash, seqNum, if seqNum > 0 then some backlink else none⟩

def extensionsCbor (c : HeaderCodec V E ε ς ι) (extensions : E) : Outcome Empty (Option V) :=
  if ¬c.extensions.zeroSized then
    match c.extensions.serialized extensions with
    | .ok cbor => .ok (some cbor)
    | .error _ => .panic "serializable extensions"
  else .ok none

def build (c : HeaderCodec V E ε ς ι) (b : Builder) (signingKey : Signer) (extensions : E) :
    Outcome Empty (Header V E) := do
  let extensionsCbor ← extensionsCbor c extensions
  let signingBytes := c.encodeHeader 1 signingKey.verifyingKey none b.payloadSize b.payloadHash
    b.seqNum b.backlink extensionsCbor
  let signature := signingKey.sign signingBytes
  let bytes := c.encodeHeader 1 signingKey.verifyingKey (some signature) b.payloadSize
    b.payloadHash b.seqNum b.backlink extensionsCbor
  return ⟨1, signingKey.verifyingKey, signature, b.payloadSize, b.payloadHash, b.seqNum,
    b.backlink, extensions, extensionsCbor, UInt32.ofNat bytes.length, c.crypto.digest bytes⟩

end Builder

end P2Panda.Core
