import P2Panda.Encryption.Crypto

/-!
# Key bundles

Public keys to establish a X3DH key agreement: the identity of the owner, a signed pre-key with a
lifetime and possibly a one-time pre-key.
-/

namespace P2Panda.Encryption

open P2Panda.Library

structure Lifetime where
  notBefore : UInt64
  notAfter : UInt64
  deriving DecidableEq

inductive LifetimeError where
  | invalidLifetime
  | systemTime
  deriving DecidableEq, Repr

abbrev Clock := Option UInt64

def Lifetime.verify (clock : Clock) (l : Lifetime) : Outcome LifetimeError Unit :=
  match clock with
  | some elapsed =>
    if l.notBefore < elapsed ∧ elapsed < l.notAfter then .ok () else .err .invalidLifetime
  | none => .err .systemTime

abbrev PreKeyId := PublicKey

structure PreKey where
  key : PublicKey
  lifetime : Lifetime
  deriving DecidableEq

abbrev OneTimePreKeyId := UInt64

structure OneTimePreKey where
  key : PublicKey
  id : OneTimePreKeyId
  deriving DecidableEq

inductive KeyBundleError where
  | xeddsa (error : XEdDSAError)
  | lifetime (error : LifetimeError)
  deriving DecidableEq, Repr

class KeyBundle (KB : Type) where
  identityKey : KB → PublicKey
  signedPrekey : KB → PublicKey
  onetimePrekey : KB → Option PublicKey
  onetimePrekeyId : KB → Option OneTimePreKeyId
  verify : Primitives → Clock → KB → Outcome KeyBundleError Unit

def verifyPrekey (c : Primitives) (clock : Clock) (identityKey : PublicKey)
    (signedPrekey : PreKey) (prekeySignature : XSignature) : Outcome KeyBundleError Unit := do
  (signedPrekey.lifetime.verify clock).mapErr .lifetime
  (c.xeddsaVerify signedPrekey.key.bytes.toList identityKey prekeySignature).mapErr .xeddsa

structure OneTimeKeyBundle where
  identityKey : PublicKey
  signedPrekey : PreKey
  prekeySignature : XSignature
  onetimePrekey : Option OneTimePreKey
  deriving DecidableEq

instance : KeyBundle OneTimeKeyBundle where
  identityKey b := b.identityKey
  signedPrekey b := b.signedPrekey.key
  onetimePrekey b := b.onetimePrekey.map OneTimePreKey.key
  onetimePrekeyId b := b.onetimePrekey.map OneTimePreKey.id
  verify c clock b := verifyPrekey c clock b.identityKey b.signedPrekey b.prekeySignature

structure LongTermKeyBundle where
  identityKey : PublicKey
  signedPrekey : PreKey
  prekeySignature : XSignature
  deriving DecidableEq

instance : KeyBundle LongTermKeyBundle where
  identityKey b := b.identityKey
  signedPrekey b := b.signedPrekey.key
  onetimePrekey _ := none
  onetimePrekeyId _ := none
  verify c clock b := verifyPrekey c clock b.identityKey b.signedPrekey b.prekeySignature

def laterPrekey (clock : Clock) (latest : Option PreKey) (prekey : PreKey) : Option PreKey :=
  if (prekey.lifetime.verify clock).IsOk then
    match latest with
    | some currentPrekey =>
      -- lifetimes are compared by their ends
      if prekey.lifetime.notAfter > currentPrekey.lifetime.notAfter then some prekey else latest
    | none => some prekey
  else latest

def latestPrekey (clock : Clock) (prekeys : List PreKey) : Option PreKey :=
  prekeys.foldl (laterPrekey clock) none

end P2Panda.Encryption
