import P2Panda.Encryption.KeyBundle
import P2Panda.Library.HashMap

/-!
# Key managers

A key manager holds the secrets of an identity, of its pre-keys and of its one-time pre-keys, and
makes public bundles for key agreements from them.
-/

namespace P2Panda.Encryption

open P2Panda.Library Outcome

class PreKeyManager (Y : Type) (ε : outParam Type) where
  identitySecret : Y → SecretKey
  prekeySecret : Y → PreKeyId → Outcome ε SecretKey
  useOnetimeSecret : Y → OneTimePreKeyId → Outcome ε (Y × Option SecretKey)

structure Holds {Y KB ε : Type} [PreKeyManager Y ε] [KeyBundle KB] (c : Primitives) (y : Y)
    (b : KB) : Prop where
  identity : c.verifyingKey (PreKeyManager.identitySecret y) = KeyBundle.identityKey b
  prekey : ∃ s, PreKeyManager.prekeySecret y (KeyBundle.signedPrekey b) = .ok s ∧
    c.verifyingKey s = KeyBundle.signedPrekey b
  longterm : KeyBundle.onetimePrekeyId b = none → KeyBundle.onetimePrekey b = none
  onetime : ∀ id, KeyBundle.onetimePrekeyId b = some id →
    ∃ y' s, PreKeyManager.useOnetimeSecret y id = .ok (y', some s) ∧
      KeyBundle.onetimePrekey b = some (c.verifyingKey s) ∧
      PreKeyManager.identitySecret y' = PreKeyManager.identitySecret y ∧
      PreKeyManager.prekeySecret y' (KeyBundle.signedPrekey b) =
        PreKeyManager.prekeySecret y (KeyBundle.signedPrekey b)

structure PreKeyBundle where
  prekey : PreKey
  signature : XSignature
  secret : SecretKey
  deriving DecidableEq

def PreKeyBundle.id (b : PreKeyBundle) : PreKeyId := b.prekey.key

structure KeyManagerState where
  identitySecret : SecretKey
  identityKey : PublicKey
  prekeys : HashMap PreKeyId PreKeyBundle
  onetimeSecrets : HashMap OneTimePreKeyId (PreKeyId × SecretKey)
  onetimeNextId : OneTimePreKeyId

inductive KeyManagerError where
  | rng (error : RngError)
  | xeddsa (error : XEdDSAError)
  | unknownOneTimeSecret (id : OneTimePreKeyId)
  | unknownPreKeySecret (id : PreKeyId)
  | noPreKeysAvailable
  deriving DecidableEq

variable (checks : Bool) (c : Primitives) (clock : Clock) (order : HashOrder PreKeyId)

def PreKeyBundle.new (identitySecret : SecretKey) (lifetime : Lifetime) (rng : Rng) :
    Outcome KeyManagerError (PreKeyBundle × Rng) := do
  let (bytes, rng) ← (rng.randomArray SECRET_KEY_SIZE).mapErr .rng
  let secret := SecretKey.fromBytes bytes
  let prekey : PreKey := ⟨c.verifyingKey secret, lifetime⟩
  let (signature, rng) ←
    (xeddsaSign c prekey.key.bytes.toList identitySecret rng).mapErr .xeddsa
  return (⟨prekey, signature, secret⟩, rng)

namespace KeyManager

def init (identitySecret : SecretKey) : KeyManagerState :=
  ⟨identitySecret, c.verifyingKey identitySecret, ∅, ∅, 0⟩

def initFromPrekeyBundles (identitySecret : SecretKey) (prekeys : HashMap PreKeyId PreKeyBundle) :
    KeyManagerState :=
  ⟨identitySecret, c.verifyingKey identitySecret, prekeys, ∅, 0⟩

def latest (prekeys : HashMap PreKeyId PreKeyBundle) :
    Outcome KeyManagerError (Option PreKeyBundle) :=
  match latestPrekey clock ((prekeys.entries order).map fun entry => entry.2.prekey) with
  | some prekey => do
    let bundle ← Outcome.expect "we know the item exists in the set" (prekeys.lookup prekey.key)
    return some bundle
  | none => .ok none

def identitySecret (y : KeyManagerState) : SecretKey := y.identitySecret

def prekeySecret (y : KeyManagerState) (id : PreKeyId) : Outcome KeyManagerError SecretKey :=
  match y.prekeys.lookup id with
  | some prekey => .ok prekey.secret
  | none => .err (.unknownPreKeySecret id)

def rotatePrekey (y : KeyManagerState) (lifetime : Lifetime) (rng : Rng) :
    Outcome KeyManagerError (KeyManagerState × Rng) := do
  let (prekey, rng) ← PreKeyBundle.new c y.identitySecret lifetime rng
  return ({ y with prekeys := y.prekeys.insert prekey.id prekey }, rng)

def prekeyBundle (y : KeyManagerState) : Outcome KeyManagerError LongTermKeyBundle := do
  match ← latest clock order y.prekeys with
  | some latest => .ok ⟨y.identityKey, latest.prekey, latest.signature⟩
  | none => .err .noPreKeysAvailable

def generateOnetimeBundle (y : KeyManagerState) (rng : Rng) :
    Outcome KeyManagerError (KeyManagerState × OneTimeKeyBundle × Rng) := do
  match ← latest clock order y.prekeys with
  | some latest => do
    let (bytes, rng) ← (rng.randomArray SECRET_KEY_SIZE).mapErr .rng
    let onetimeSecret := SecretKey.fromBytes bytes
    let onetimeKey : OneTimePreKey := ⟨c.verifyingKey onetimeSecret, y.onetimeNextId⟩
    if y.onetimeSecrets.lookup onetimeKey.id ≠ none then
      .panic "should never insert same id more than once"
    else do
      let onetimeNextId ← addU64 checks y.onetimeNextId 1
      let onetimeSecrets := y.onetimeSecrets.insert onetimeKey.id (latest.id, onetimeSecret)
      return ({ y with onetimeSecrets := onetimeSecrets, onetimeNextId := onetimeNextId },
        ⟨y.identityKey, latest.prekey, latest.signature, some onetimeKey⟩, rng)
  | none => .err .noPreKeysAvailable

def useOnetimeSecret (y : KeyManagerState) (id : OneTimePreKeyId) :
    Outcome KeyManagerError (KeyManagerState × Option SecretKey) :=
  match y.onetimeSecrets.lookup id with
  | some secret =>
    .ok ({ y with onetimeSecrets := y.onetimeSecrets.erase id }, some secret.2)
  | none => .err (.unknownOneTimeSecret id)

def removeExpired (y : KeyManagerState) : KeyManagerState :=
  let prekeys := y.prekeys.filter fun _ prekey => (prekey.prekey.lifetime.verify clock).IsOk
  -- remove one-time bundles which do not have a valid pre-key anymore
  { y with
    prekeys := prekeys
    onetimeSecrets := y.onetimeSecrets.filter fun _ secret => (prekeys.lookup secret.1).isSome }

end KeyManager

instance : PreKeyManager KeyManagerState KeyManagerError where
  identitySecret := KeyManager.identitySecret
  prekeySecret := KeyManager.prekeySecret
  useOnetimeSecret := KeyManager.useOnetimeSecret

namespace KeyManager

variable {checks c clock order} {y : KeyManagerState}

structure WellFormed (c : Primitives) (y : KeyManagerState) : Prop where
  identity : c.verifyingKey y.identitySecret = y.identityKey
  prekeys : ∀ id b, y.prekeys.lookup id = some b → b.prekey.key = id ∧ c.verifyingKey b.secret = id

theorem wellFormed_init (identitySecret : SecretKey) : WellFormed c (init c identitySecret) where
  identity := rfl
  prekeys := fun _ _ h => nomatch h

theorem WellFormed.rotatePrekey {y y' : KeyManagerState} (hy : WellFormed c y) {lifetime : Lifetime}
    {rng rng' : Rng} (h : rotatePrekey c y lifetime rng = .ok (y', rng')) : WellFormed c y' := by
  obtain ⟨⟨b, _⟩, hb, hpure⟩ := bind_eq_ok.mp h
  obtain ⟨⟨bytes, _⟩, _, hb⟩ := bind_eq_ok.mp hb
  obtain ⟨⟨signature, _⟩, _, hb⟩ := bind_eq_ok.mp hb
  cases hb
  cases hpure
  constructor
  · exact hy.identity
  · intro id b' hb'
    rw [HashMap.lookup_insert_ite] at hb'
    split_ifs at hb' with hid
    · cases hb'
      exact ⟨hid.symm, hid.symm⟩
    · exact hy.prekeys id b' hb'

theorem latest_eq_some {prekeys : HashMap PreKeyId PreKeyBundle} {b : PreKeyBundle}
    (h : latest clock order prekeys = .ok (some b)) : ∃ id, prekeys.lookup id = some b := by
  unfold latest at h
  split at h
  · obtain ⟨b', hb', hpure⟩ := bind_eq_ok.mp h
    cases hpure
    exact ⟨_, expect_eq_ok.mp hb'⟩
  · cases h

theorem useOnetimeSecret_of_lookup {id : OneTimePreKeyId} {secret : PreKeyId × SecretKey}
    (h : y.onetimeSecrets.lookup id = some secret) :
    useOnetimeSecret y id =
      .ok ({ y with onetimeSecrets := y.onetimeSecrets.erase id }, some secret.2) := by
  rw [useOnetimeSecret, h]

end KeyManager

end P2Panda.Encryption
