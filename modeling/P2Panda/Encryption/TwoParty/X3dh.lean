import P2Panda.Encryption.KeyManager

/-!
# Extended Triple Diffie-Hellman

The sender needs a key bundle of the receiver, who computes the same secret from the keys in the
message and the secrets of the bundle.
-/

namespace P2Panda.Encryption

open P2Panda.Library Outcome P2Panda.Core

def KDF_INFO : Bytes := "p2panda".toUTF8.toList

structure X3dhCiphertext where
  identityKey : PublicKey
  onetimePrekeyId : Option OneTimePreKeyId
  prekeyId : PreKeyId
  ciphertext : Bytes
  ephemeralKey : PublicKey
  deriving DecidableEq

inductive X3dhError where
  | rng (error : RngError)
  | aead (error : AeadError)
  | hkdf (error : HkdfError)
  | keyBundle (error : KeyBundleError)
  deriving DecidableEq, Repr

variable {KB : Type} [KeyBundle KB] (c : Primitives) (clock : Clock)

/-- The agreements after the "discontinuity bytes". -/
def x3dhKeyMaterial (dh1 dh2 dh3 : Vector UInt8 SHARED_SECRET_SIZE)
    (dh4 : Option (Vector UInt8 SHARED_SECRET_SIZE)) : Bytes :=
  List.replicate 32 0xFF ++ dh1.toList ++ dh2.toList ++ dh3.toList ++
    (dh4.map Vector.toList).getD []

def x3dhSecret (ikm : Bytes) : Outcome HkdfError (AeadKey × AeadNonce) := do
  let sk ← hkdf c.derive 32 (List.replicate 32 0) ikm (some KDF_INFO)
  let nonce ← hkdf c.derive 12 [] sk.toList none
  return (sk, nonce)

def x3dhEncrypt (plaintext : Bytes) (ourIdentitySecret : SecretKey) (theirPrekeyBundle : KB)
    (rng : Rng) : Outcome X3dhError (X3dhCiphertext × Rng) := do
  (KeyBundle.verify c clock theirPrekeyBundle).mapErr .keyBundle
  let ourIdentityKey := c.verifyingKey ourIdentitySecret
  let (bytes, rng) ← (rng.randomArray SECRET_KEY_SIZE).mapErr .rng
  let ourEphemeralSecret := SecretKey.fromBytes bytes
  let ikm := x3dhKeyMaterial
    (c.calculateAgreement ourIdentitySecret (KeyBundle.signedPrekey theirPrekeyBundle))
    (c.calculateAgreement ourEphemeralSecret (KeyBundle.identityKey theirPrekeyBundle))
    (c.calculateAgreement ourEphemeralSecret (KeyBundle.signedPrekey theirPrekeyBundle))
    ((KeyBundle.onetimePrekey theirPrekeyBundle).map (c.calculateAgreement ourEphemeralSecret))
  let (sk, nonce) ← (x3dhSecret c ikm).mapErr .hkdf
  -- AD = Encode(IKA) || Encode(IKB)
  let ad := ourIdentityKey.bytes.toList ++ (KeyBundle.identityKey theirPrekeyBundle).bytes.toList
  let ciphertext ← (aeadEncrypt c sk plaintext nonce (some ad)).mapErr .aead
  return (⟨ourIdentityKey, KeyBundle.onetimePrekeyId theirPrekeyBundle,
    KeyBundle.signedPrekey theirPrekeyBundle, ciphertext, c.verifyingKey ourEphemeralSecret⟩, rng)

def x3dhDecrypt (theirCiphertext : X3dhCiphertext) (ourIdentitySecret ourPrekeySecret : SecretKey)
    (ourOnetimeSecret : Option SecretKey) : Outcome X3dhError Bytes := do
  let ourIdentityKey := c.verifyingKey ourIdentitySecret
  let ikm := x3dhKeyMaterial
    (c.calculateAgreement ourPrekeySecret theirCiphertext.identityKey)
    (c.calculateAgreement ourIdentitySecret theirCiphertext.ephemeralKey)
    (c.calculateAgreement ourPrekeySecret theirCiphertext.ephemeralKey)
    (ourOnetimeSecret.map fun secret => c.calculateAgreement secret theirCiphertext.ephemeralKey)
  let (sk, nonce) ← (x3dhSecret c ikm).mapErr .hkdf
  let ad := theirCiphertext.identityKey.bytes.toList ++ ourIdentityKey.bytes.toList
  (aeadDecrypt c sk theirCiphertext.ciphertext nonce (some ad)).mapErr .aead

variable {c clock} {plaintext : Bytes} {ciphertext : X3dhCiphertext}

theorem prekeyId_of_x3dhEncrypt {identitySecret : SecretKey} {b : KB} {rng rng' : Rng}
    (h : x3dhEncrypt c clock plaintext identitySecret b rng = .ok (ciphertext, rng')) :
    ciphertext.prekeyId = KeyBundle.signedPrekey b ∧
      ciphertext.onetimePrekeyId = KeyBundle.onetimePrekeyId b := by
  obtain ⟨_, _, h⟩ := bind_eq_ok.mp h
  obtain ⟨⟨bytes, rng1⟩, _, h⟩ := bind_eq_ok.mp h
  obtain ⟨⟨sk, nonce⟩, _, h⟩ := bind_eq_ok.mp h
  obtain ⟨encrypted, _, h⟩ := bind_eq_ok.mp h
  cases h
  exact ⟨rfl, rfl⟩

theorem x3dhDecrypt_of_x3dhEncrypt (hc : c.Ideal)
    {theirIdentitySecret identitySecret prekeySecret : SecretKey} {onetimeSecret : Option SecretKey}
    {b : KB} {rng rng' : Rng} (hident : c.verifyingKey identitySecret = KeyBundle.identityKey b)
    (hprekey : c.verifyingKey prekeySecret = KeyBundle.signedPrekey b)
    (honetime : KeyBundle.onetimePrekey b = onetimeSecret.map c.verifyingKey)
    (h : x3dhEncrypt c clock plaintext theirIdentitySecret b rng = .ok (ciphertext, rng')) :
    x3dhDecrypt c ciphertext identitySecret prekeySecret onetimeSecret = .ok plaintext := by
  obtain ⟨_, _, h⟩ := bind_eq_ok.mp h
  obtain ⟨⟨bytes, rng1⟩, _, h⟩ := bind_eq_ok.mp h
  obtain ⟨⟨sk, nonce⟩, hsec, h⟩ := bind_eq_ok.mp h
  obtain ⟨encrypted, hencd, h⟩ := bind_eq_ok.mp h
  cases h
  -- the four agreements are symmetric
  have hfourth : c.calculateAgreement (SecretKey.fromBytes bytes) ∘ c.verifyingKey =
      fun secret => c.calculateAgreement secret (c.verifyingKey (SecretKey.fromBytes bytes)) :=
    funext fun secret => hc.agreement _ secret
  rw [honetime, ← hident, ← hprekey, hc.agreement _ identitySecret,
    hc.agreement _ prekeySecret, hc.agreement _ prekeySecret, Option.map_map, hfourth] at hsec
  rw [← hident] at hencd
  have hdecrypted := aeadDecrypt_of_aeadEncrypt hc (mapErr_eq_ok.mp hencd)
  rw [x3dhDecrypt, hsec, ok_bind]
  dsimp only
  rw [hdecrypted]
  rfl

end P2Panda.Encryption
