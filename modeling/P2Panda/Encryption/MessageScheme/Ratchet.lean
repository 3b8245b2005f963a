import P2Panda.Encryption.Crypto

/-!
# Message ratchets

A ratchet derives the key material of one generation after the other. For decryption, the material
of skipped generations is kept in a queue, the generation before the head first.
-/

namespace P2Panda.Encryption.MessageScheme

open P2Panda.Library P2Panda.Core

def MESSAGE_KEY_SIZE : Nat := 32

abbrev RatchetKeyMaterial := Secret MESSAGE_KEY_SIZE × AeadNonce

abbrev Generation := UInt32

inductive RatchetError where
  | hkdf (error : HkdfError)
  | tooDistantInTheFuture
  | tooDistantInThePast
  | indexOutOfBounds
  | secretReuse
  deriving DecidableEq, Repr

structure RatchetSecretState where
  secret : Secret MESSAGE_KEY_SIZE
  generation : Generation
  deriving DecidableEq

variable (checks : Bool) (derive : Hkdf)

namespace RatchetSecret

def init (secret : Secret MESSAGE_KEY_SIZE) : RatchetSecretState := ⟨secret, 0⟩

def label (text : String) : Bytes := text.toUTF8.toList

def ratchetForward (y : RatchetSecretState) :
    Outcome RatchetError (RatchetSecretState × Generation × RatchetKeyMaterial) := do
  let nonce ← (hkdf derive 12 (label "nonce") y.secret.bytes.toList none).mapErr .hkdf
  let key ← (hkdf derive MESSAGE_KEY_SIZE (label "key") y.secret.bytes.toList none).mapErr .hkdf
  let generation ← addU32 checks y.generation 1
  let secret ← (hkdf derive MESSAGE_KEY_SIZE (label "chain") y.secret.bytes.toList none).mapErr
    .hkdf
  return (⟨⟨secret⟩, generation⟩, y.generation, (⟨key⟩, nonce))

end RatchetSecret

structure DecryptionRatchetState where
  pastSecrets : List (Option RatchetKeyMaterial)
  ratchetHead : RatchetSecretState
  deriving DecidableEq

namespace DecryptionRatchet

def init (secret : Secret MESSAGE_KEY_SIZE) : DecryptionRatchetState :=
  ⟨[], RatchetSecret.init secret⟩

def ratchetBy : Nat → DecryptionRatchetState → Outcome RatchetError DecryptionRatchetState
  | 0, y => .ok y
  | n + 1, y => do
    let (ratchetHead, _, ratchetSecrets) ← RatchetSecret.ratchetForward checks derive y.ratchetHead
    ratchetBy n ⟨some ratchetSecrets :: y.pastSecrets, ratchetHead⟩

def secretForDecryption (y : DecryptionRatchetState) (generation : Generation)
    (maximumForwardDistance oooTolerance : UInt32) :
    Outcome RatchetError (DecryptionRatchetState × RatchetKeyMaterial) :=
  let generationHead := y.ratchetHead.generation
  if generationHead < UInt32.ofNat (UInt32.size - 1) - maximumForwardDistance ∧
      generation > generationHead + maximumForwardDistance then
    .err .tooDistantInTheFuture
  else if generation < generationHead ∧ generationHead - generation > oooTolerance then
    .err .tooDistantInThePast
  else if generation ≥ generationHead then do
    let y ← ratchetBy checks derive (generation - generationHead).toNat y
    let (ratchetHead, _, ratchetSecrets) ← RatchetSecret.ratchetForward checks derive y.ratchetHead
    -- an entry for the generation at hand keeps indexing consistent
    let pastSecrets := (none :: y.pastSecrets).take oooTolerance.toNat
    return (⟨pastSecrets, ratchetHead⟩, ratchetSecrets)
  else do
    let windowIndex ← subI32 checks (asI32 (generationHead - generation)) 1
    if windowIndex ≥ 0 then
      let index := windowIndex.toNat
      match y.pastSecrets[index]? with
      | none => .err .indexOutOfBounds
      | some none => .err .secretReuse
      | some (some ratchetSecrets) =>
        return (⟨y.pastSecrets.set index none, y.ratchetHead⟩, ratchetSecrets)
    else .err .tooDistantInThePast

end DecryptionRatchet

end P2Panda.Encryption.MessageScheme
