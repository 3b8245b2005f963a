import P2Panda.Core.Operation

/-!
# Secrets, keys and ciphers

The primitives come from other crates. Of them we assume that a key agreement is the same for both
sides, and that what is encrypted is decrypted with the matching key.
-/

namespace P2Panda.Encryption

open P2Panda.Library P2Panda.Core

structure Secret (N : Nat) where
  bytes : Vector UInt8 N
  deriving DecidableEq

abbrev AeadNonce := Vector UInt8 12

inductive HkdfError where
  | invalidArguments
  deriving DecidableEq, Repr

/-- HMAC and SHA256, of salt, key material and info, for any length of the output. -/
abbrev Hkdf := (N : Nat) → Bytes → Bytes → Bytes → Vector UInt8 N

def HKDF_MAX_LEN : Nat := 255 * 32

variable {ε : Type}

def hkdf (derive : Hkdf) (N : Nat) (salt ikm : Bytes) (info : Option Bytes) :
    Outcome HkdfError (Vector UInt8 N) :=
  if N ≤ HKDF_MAX_LEN then .ok (derive N salt ikm (info.getD [])) else .err .invalidArguments

theorem hkdf_eq_ok {derive : Hkdf} {N : Nat} (h : N ≤ HKDF_MAX_LEN) (salt ikm : Bytes)
    (info : Option Bytes) : hkdf derive N salt ikm info = .ok (derive N salt ikm (info.getD [])) :=
  if_pos h

abbrev AeadKey := Vector UInt8 32

def SECRET_KEY_SIZE : Nat := 32

def PUBLIC_KEY_SIZE : Nat := 32

def SHARED_SECRET_SIZE : Nat := 32

def SIGNATURE_SIZE : Nat := 64

structure SecretKey where
  secret : Secret SECRET_KEY_SIZE
  deriving DecidableEq

structure PublicKey where
  bytes : Vector UInt8 PUBLIC_KEY_SIZE
  deriving DecidableEq

structure XSignature where
  bytes : Vector UInt8 SIGNATURE_SIZE
  deriving DecidableEq

structure HpkeCiphertext where
  kemOutput : Bytes
  ciphertext : Bytes
  deriving DecidableEq

def clampInteger (bytes : Vector UInt8 32) : Vector UInt8 32 :=
  (bytes.set 0 (bytes[0] &&& 0b11111000)).set 31 ((bytes[31] &&& 0b01111111) ||| 0b01000000)

def SecretKey.fromBytes (bytes : Vector UInt8 SECRET_KEY_SIZE) : SecretKey :=
  ⟨⟨clampInteger bytes⟩⟩

inductive RngError where
  | lockPoisoned
  | notEnoughRandomness
  deriving DecidableEq, Repr

structure Rng where
  poisoned : Bool
  bytes : Bytes

def Rng.randomArray (N : Nat) (rng : Rng) : Outcome RngError (Vector UInt8 N × Rng) :=
  if rng.poisoned then .err .lockPoisoned
  else if h : N ≤ rng.bytes.length then
    .ok (⟨(rng.bytes.take N).toArray, by simp [h]⟩, ⟨false, rng.bytes.drop N⟩)
  else .err .notEnoughRandomness

inductive AeadError where
  | encrypt
  | decrypt
  deriving DecidableEq, Repr

inductive HpkeError where
  | encryption
  | decryption
  deriving DecidableEq, Repr

inductive XEdDSAError where
  | rng (error : RngError)
  | invalidArgument
  | verificationFailed
  deriving DecidableEq, Repr

/-- Functions of cryptography crates. Where an encryption draws its own randomness, it is the first
argument. -/
structure Primitives where
  verifyingKey : SecretKey → PublicKey
  calculateAgreement : SecretKey → PublicKey → Vector UInt8 SHARED_SECRET_SIZE
  derive : Hkdf
  aeadEncrypt : AeadKey → Bytes → AeadNonce → Bytes → Option Bytes
  aeadDecrypt : AeadKey → Bytes → AeadNonce → Bytes → Option Bytes
  hpkeSeal : Bytes → PublicKey → Bytes → Bytes → Bytes → Option HpkeCiphertext
  hpkeOpen : HpkeCiphertext → SecretKey → Bytes → Bytes → Option Bytes
  xeddsaSign : Vector UInt8 SIGNATURE_SIZE → Bytes → SecretKey → XSignature
  xeddsaVerify : Bytes → PublicKey → XSignature → Outcome XEdDSAError Unit

structure Primitives.Ideal (c : Primitives) : Prop where
  agreement : ∀ a b,
    c.calculateAgreement a (c.verifyingKey b) = c.calculateAgreement b (c.verifyingKey a)
  aead : ∀ {key plaintext nonce aad ciphertext},
    c.aeadEncrypt key plaintext nonce aad = some ciphertext →
      c.aeadDecrypt key ciphertext nonce aad = some plaintext
  hpke : ∀ {entropy secret info aad plaintext ciphertext},
    c.hpkeSeal entropy (c.verifyingKey secret) info aad plaintext = some ciphertext →
      c.hpkeOpen ciphertext secret info aad = some plaintext

/-- A ciphertext is opened with no other key than its own. -/
def Primitives.Binding (c : Primitives) : Prop :=
  ∀ {entropy : Bytes} {secret other : SecretKey} {info aad plaintext : Bytes} {ciphertext},
    c.hpkeSeal entropy (c.verifyingKey secret) info aad plaintext = some ciphertext →
      c.verifyingKey other ≠ c.verifyingKey secret → c.hpkeOpen ciphertext other info aad = none

variable (c : Primitives)

def aeadEncrypt (key : AeadKey) (plaintext : Bytes) (nonce : AeadNonce) (aad : Option Bytes) :
    Outcome AeadError Bytes :=
  match c.aeadEncrypt key plaintext nonce (aad.getD []) with
  | some ciphertext => .ok ciphertext
  | none => .err .encrypt

def aeadDecrypt (key : AeadKey) (ciphertext : Bytes) (nonce : AeadNonce) (aad : Option Bytes) :
    Outcome AeadError Bytes :=
  match c.aeadDecrypt key ciphertext nonce (aad.getD []) with
  | some plaintext => .ok plaintext
  | none => .err .decrypt

def xeddsaSign (bytes : Bytes) (secretKey : SecretKey) (rng : Rng) :
    Outcome XEdDSAError (XSignature × Rng) := do
  let (z, rng) ← (rng.randomArray SIGNATURE_SIZE).mapErr .rng
  return (c.xeddsaSign z bytes secretKey, rng)

def hpkeSeal (entropy : Bytes) (verifyingKey : PublicKey) (info aad : Option Bytes)
    (plaintext : Bytes) : Outcome HpkeError HpkeCiphertext :=
  match c.hpkeSeal entropy verifyingKey (info.getD []) (aad.getD []) plaintext with
  | some ciphertext => .ok ciphertext
  | none => .err .encryption

def hpkeOpen (input : HpkeCiphertext) (secretKey : SecretKey) (info aad : Option Bytes) :
    Outcome HpkeError Bytes :=
  match c.hpkeOpen input secretKey (info.getD []) (aad.getD []) with
  | some plaintext => .ok plaintext
  | none => .err .decryption

variable {c} {entropy plaintext : Bytes} {info aad : Option Bytes} {ciphertext : HpkeCiphertext}

theorem aeadDecrypt_of_aeadEncrypt (hc : c.Ideal) {key : AeadKey} {plaintext ciphertext : Bytes}
    {nonce : AeadNonce} {aad : Option Bytes}
    (h : aeadEncrypt c key plaintext nonce aad = .ok ciphertext) :
    aeadDecrypt c key ciphertext nonce aad = .ok plaintext := by
  unfold aeadEncrypt at h
  split at h
  · rename_i heq
    rw [← Outcome.ok.inj h, aeadDecrypt, hc.aead heq]
  · cases h

theorem hpkeOpen_of_hpkeSeal (hc : c.Ideal) {secret : SecretKey}
    (h : hpkeSeal c entropy (c.verifyingKey secret) info aad plaintext = .ok ciphertext) :
    hpkeOpen c ciphertext secret info aad = .ok plaintext := by
  unfold hpkeSeal at h
  split at h
  · rename_i heq
    rw [← Outcome.ok.inj h, hpkeOpen, hc.hpke heq]
  · cases h

theorem hpkeOpen_of_ne (hc : c.Binding) {secret other : SecretKey}
    (h : hpkeSeal c entropy (c.verifyingKey secret) info aad plaintext = .ok ciphertext)
    (hne : c.verifyingKey other ≠ c.verifyingKey secret) :
    hpkeOpen c ciphertext other info aad = .err .decryption := by
  unfold hpkeSeal at h
  split at h
  · rename_i heq
    rw [← Outcome.ok.inj h, hpkeOpen, hc heq hne]
  · cases h

end P2Panda.Encryption
