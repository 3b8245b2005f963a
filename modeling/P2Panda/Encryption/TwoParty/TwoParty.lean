import P2Panda.Encryption.TwoParty.X3dh

/-!
# Two-Party Secure Messaging

The first message is encrypted with X3DH, all others with HPKE. Whoever sends makes two new keys:
one of their own, and one for the other party, whose secret is in the message.
-/

namespace P2Panda.Encryption

open P2Panda.Library P2Panda.Core

inductive KeyUsed where
  | preKey
  | receivedKey
  | ownKey (index : UInt64)
  deriving DecidableEq, Repr

structure TwoPartyState (KB : Type) where
  ourNextKeyIndex : UInt64
  /-- Index after the last key the other peer has used towards us. -/
  ourMinKeyIndex : UInt64
  ourSecretKeys : HashMap UInt64 SecretKey
  ourReceivedSecretKey : Option SecretKey
  theirNextKeyUsed : KeyUsed
  theirPrekeyBundle : Option KB
  theirVerifyingKey : Option PublicKey

inductive TwoPartyCiphertext where
  | preKey (ciphertext : X3dhCiphertext)
  | hpke (ciphertext : HpkeCiphertext)
  deriving DecidableEq

structure TwoPartyMessage where
  ciphertext : TwoPartyCiphertext
  keyUsed : KeyUsed
  deriving DecidableEq

structure TwoPartyPlaintext where
  plaintext : Bytes
  receiverNewSecret : SecretKey
  senderNewVerifyingKey : PublicKey
  senderNextIndex : UInt64
  deriving DecidableEq

/-- `encode_cbor` and `decode_cbor` for payloads. -/
structure PlaintextCodec where
  toBytes : TwoPartyPlaintext → Option Bytes
  fromBytes : Bytes → Option TwoPartyPlaintext

def PlaintextCodec.Lawful (codec : PlaintextCodec) : Prop :=
  ∀ {p bytes}, codec.toBytes p = some bytes → codec.fromBytes bytes = some p

inductive TwoPartyError where
  | hpke (error : HpkeError)
  | x3dh (error : X3dhError)
  | rng (error : RngError)
  | encode
  | decode
  | preKeyReuse
  | unknownSecretUsed (index : UInt64)
  | unknownPreKeyUsed (id : PreKeyId)
  | invalidCiphertextType
  deriving DecidableEq

namespace TwoParty

variable {KB Y ε : Type} [KeyBundle KB] [PreKeyManager Y ε]
variable (checks : Bool) (c : Primitives) (codec : PlaintextCodec) (clock : Clock)

def initToSend (theirPrekeyBundle : KB) : TwoPartyState KB :=
  ⟨1, 1, ∅, none, .preKey, some theirPrekeyBundle, none⟩

def initToReceive : TwoPartyState KB :=
  ⟨1, 1, ∅, none, .preKey, none, none⟩

def encrypt (y : TwoPartyState KB) (manager : Y) (plaintext : Bytes) (rng : Rng)
    (entropy : Bytes) : Outcome TwoPartyError (TwoPartyState KB × TwoPartyCiphertext × Rng) :=
  match y.theirVerifyingKey with
  | none =>
    match y.theirPrekeyBundle with
    | some theirPrekeyBundle => do
      let (ciphertext, rng) ← (x3dhEncrypt c clock plaintext
        (PreKeyManager.identitySecret manager) theirPrekeyBundle rng).mapErr .x3dh
      return ({ y with theirPrekeyBundle := none }, .preKey ciphertext, rng)
    | none => .err .preKeyReuse
  | some theirVerifyingKey => do
    let ciphertext ←
      (hpkeSeal c entropy theirVerifyingKey none none plaintext).mapErr .hpke
    return (y, .hpke ciphertext, rng)

def onetimeSecret (manager : Y) :
    Option OneTimePreKeyId → Outcome TwoPartyError (Y × Option SecretKey)
  | some id => (PreKeyManager.useOnetimeSecret manager id).mapErr fun _ => .preKeyReuse
  | none => .ok (manager, none)

def removeKeys (keys : HashMap UInt64 SecretKey) (first last : UInt64) :
    HashMap UInt64 SecretKey :=
  (List.range' first.toNat (last.toNat - first.toNat)).foldl
    (fun keys i => keys.erase (UInt64.ofNat i)) keys

def decrypt (y : TwoPartyState KB) (manager : Y) (ciphertext : TwoPartyCiphertext)
    (keyUsed : KeyUsed) : Outcome TwoPartyError (TwoPartyState KB × Y × Bytes) :=
  match keyUsed, ciphertext with
  | .preKey, .preKey ciphertext => do
    let (manager, onetimeSecret) ← onetimeSecret manager ciphertext.onetimePrekeyId
    let prekeySecret ← (PreKeyManager.prekeySecret manager ciphertext.prekeyId).mapErr
      fun _ => .unknownPreKeyUsed ciphertext.prekeyId
    let plaintext ← (x3dhDecrypt c ciphertext (PreKeyManager.identitySecret manager)
      prekeySecret onetimeSecret).mapErr .x3dh
    return (y, manager, plaintext)
  | .receivedKey, .hpke ciphertext =>
    match y.ourReceivedSecretKey with
    | some ourReceivedSecretKey => do
      let plaintext ← (hpkeOpen c ciphertext ourReceivedSecretKey none none).mapErr .hpke
      return (y, manager, plaintext)
    | none => .err (.unknownSecretUsed 0)
  | .ownKey index, .hpke ciphertext =>
    match y.ourSecretKeys.lookup index with
    | some secret => do
      let plaintext ← (hpkeOpen c ciphertext secret none none).mapErr .hpke
      let next ← addU64 checks index 1
      let ourSecretKeys := removeKeys y.ourSecretKeys y.ourMinKeyIndex next
      return ({ y with ourSecretKeys := ourSecretKeys, ourMinKeyIndex := next },
        manager, plaintext)
    | none => .err (.unknownSecretUsed index)
  | _, _ => .err .invalidCiphertextType

def generateKeys (rng : Rng) : Outcome TwoPartyError (SecretKey × SecretKey × Rng) := do
  let (ours, rng) ← (rng.randomArray SECRET_KEY_SIZE).mapErr .rng
  let (theirs, rng) ← (rng.randomArray SECRET_KEY_SIZE).mapErr .rng
  return (SecretKey.fromBytes ours, SecretKey.fromBytes theirs, rng)

def send (y : TwoPartyState KB) (manager : Y) (plaintext : Bytes) (rng : Rng)
    (entropy : Bytes) : Outcome TwoPartyError (TwoPartyState KB × TwoPartyMessage × Rng) := do
  let (ourNewSecret, theirNewSecret, rng) ← generateKeys rng
  let plaintextMessage : TwoPartyPlaintext :=
    ⟨plaintext, theirNewSecret, c.verifyingKey ourNewSecret, y.ourNextKeyIndex⟩
  match codec.toBytes plaintextMessage with
  | some plaintextBytes => do
    let (y, ciphertext, rng) ← encrypt c clock y manager plaintextBytes rng entropy
    let message : TwoPartyMessage := ⟨ciphertext, y.theirNextKeyUsed⟩
    let ourNextKeyIndex ← addU64 checks y.ourNextKeyIndex 1
    return ({ y with
      ourSecretKeys := y.ourSecretKeys.insert y.ourNextKeyIndex ourNewSecret
      ourNextKeyIndex := ourNextKeyIndex
      theirVerifyingKey := some (c.verifyingKey theirNewSecret)
      theirNextKeyUsed := .receivedKey }, message, rng)
  | none => .err .encode

def receive (y : TwoPartyState KB) (manager : Y) (message : TwoPartyMessage) :
    Outcome TwoPartyError (TwoPartyState KB × Y × Bytes) := do
  let (y, manager, plaintextBytes) ← decrypt checks c y manager message.ciphertext message.keyUsed
  match codec.fromBytes plaintextBytes with
  | some plaintextMessage =>
    return ({ y with
      theirVerifyingKey := some plaintextMessage.senderNewVerifyingKey
      theirNextKeyUsed := .ownKey plaintextMessage.senderNextIndex
      ourReceivedSecretKey := some plaintextMessage.receiverNewSecret },
      manager, plaintextMessage.plaintext)
  | none => .err .decode

end TwoParty

end P2Panda.Encryption
