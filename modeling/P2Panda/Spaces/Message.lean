import P2Panda.Auth.Group.Queries
import P2Panda.Encryption.DataScheme.Group

/-!
# Spaces messages

The key bundles of members, the control messages of groups, the pointers with which a change of a
group is applied to a space, and encrypted application data.
-/

namespace P2Panda.Spaces

open P2Panda.Library P2Panda.Auth.Group
open P2Panda.Encryption P2Panda.Encryption.DataScheme
open P2Panda.Core (Bytes Signature)

variable {ID OP C : Type}

/-- Cryptography, codecs and signatures of members, from other crates. -/
structure Platform (ID : Type) where
  checks : Bool
  primitives : DataPrimitives
  codec : SecretCodec
  encodeKeyBundle : LongTermKeyBundle → Option Bytes
  asBytes : ID → Bytes
  verify : ID → Bytes → Signature → Bool
  verifyingKey : Vector UInt8 32 → ID

/-- Placeholder for DGM implementation: the auth state sets the members. -/
structure EncryptionMembershipState (ID : Type) where
  members : List ID
  deriving DecidableEq

def EncryptionMembershipState.default : EncryptionMembershipState ID := ⟨[]⟩

instance [DecidableEq ID] : GroupMembership (EncryptionMembershipState ID) ID OP Empty where
  create _ initialMembers := .ok ⟨initialMembers⟩
  fromWelcome _ y := .ok y
  -- the state is already updated manually before these are called
  add y _ _ _ := .ok y
  remove y _ _ _ := .ok y
  members y := .ok y.members.toFinset

abbrev EncryptionDirectMessage (ID : Type) := DirectMessage ID (EncryptionMembershipState ID)

structure Member (ID : Type) where
  id : ID
  keyBundle : LongTermKeyBundle
  crossSignature1 : XSignature
  crossSignature2 : Signature
  deriving DecidableEq

inductive MemberError where
  | encodeKeyBundle
  | identitySignature (error : XEdDSAError)
  | memberSignature
  | invalidKeyBundle (error : KeyBundleError)
  deriving DecidableEq, Repr

def Member.verify (platform : Platform ID) (clock : Clock) (member : Member ID) :
    Outcome MemberError Unit := do
  -- Identity Key -> Pre-Key + Verifying Key
  let bytes := platform.asBytes member.id ++ (KeyBundle.signedPrekey member.keyBundle).bytes.toList
  (platform.primitives.xeddsaVerify bytes (KeyBundle.identityKey member.keyBundle)
    member.crossSignature1).mapErr .identitySignature
  -- Verifying Key -> Identity Key
  match platform.encodeKeyBundle member.keyBundle with
  | none => .err .encodeKeyBundle
  | some bytes =>
    if !platform.verify member.id bytes member.crossSignature2 then .err .memberSignature
    -- Identity Key -> Pre-Key in key bundle & lifetime check
    else
      (KeyBundle.verify platform.primitives.toPrimitives clock member.keyBundle).mapErr
        MemberError.invalidKeyBundle

inductive SpacesArgs (ID OP C : Type) where
  | member (member : Member ID)
  | group (groupId : ID) (groupAction : GroupAction ID C) (authDependencies : List OP)
  | spaceMembership (spaceId : OP) (groupId : ID) (spaceDependencies : List OP)
      (authMessageId : OP) (directMessages : List (EncryptionDirectMessage ID))
  | spaceUpdate (spaceId : OP) (groupId : ID) (spaceDependencies : List OP)
  | application (spaceId : OP) (spaceDependencies proof : List OP)
      (groupSecretId : GroupSecretId) (nonce : XAeadNonce) (ciphertext : Bytes)
  deriving DecidableEq

def SpacesArgs.dependencies : SpacesArgs ID OP C → List OP
  | member _ => []
  | group _ _ authDependencies => authDependencies
  | spaceMembership _ _ spaceDependencies authMessageId _ => authMessageId :: spaceDependencies
  | spaceUpdate _ _ spaceDependencies => spaceDependencies
  | application _ spaceDependencies _ _ _ _ => spaceDependencies

structure SpacesMessage (ID OP C : Type) where
  id : OP
  author : ID
  args : SpacesArgs ID OP C
  deriving DecidableEq

abbrev AuthMessage (ID OP C : Type) := Operation ID OP C

structure SpaceMembershipMessage (ID OP : Type) where
  id : OP
  author : ID
  groupId : ID
  spaceDependencies : List OP
  authMessageId : OP
  directMessages : List (EncryptionDirectMessage ID)

structure ApplicationMessage (ID OP : Type) where
  id : OP
  author : ID
  spaceDependencies : List OP
  proof : List OP
  groupSecretId : GroupSecretId
  nonce : XAeadNonce
  ciphertext : Bytes

namespace SpacesMessage

variable {ε : Type}

def spaceMembership (message : SpacesMessage ID OP C) : Outcome ε (SpaceMembershipMessage ID OP) :=
  match message.args with
  | .spaceMembership _ groupId spaceDependencies authMessageId directMessages =>
    .ok ⟨message.id, message.author, groupId, spaceDependencies, authMessageId, directMessages⟩
  | _ => .panic "unexpected message type"

def auth (message : SpacesMessage ID OP C) : Outcome ε (AuthMessage ID OP C) :=
  match message.args with
  | .group groupId groupAction authDependencies =>
    .ok ⟨message.id, message.author, authDependencies, groupId, groupAction⟩
  | _ => .panic "unexpected message type"

def application (message : SpacesMessage ID OP C) : Outcome ε (ApplicationMessage ID OP) :=
  match message.args with
  | .application _ spaceDependencies proof groupSecretId nonce ciphertext =>
    .ok ⟨message.id, message.author, spaceDependencies, proof, groupSecretId, nonce, ciphertext⟩
  | _ => .panic "unexpected message type"

end SpacesMessage

end P2Panda.Spaces
