import P2Panda.Encryption.KeyRegistry
import P2Panda.Spaces.Event

/-!
# State of spaces and of their manager

A space has its own copy of the groups state, and an encryption group. It is persisted without key
material, which is injected again.
-/

namespace P2Panda.Spaces

open P2Panda.Library P2Panda.Auth.Group
open P2Panda.Encryption P2Panda.Encryption.DataScheme

instance {ID : Type} [DecidableEq ID] :
    PreKeyRegistry (KeyRegistryState ID) ID KeyRegistryError where
  keyBundle := KeyRegistry.longtermKeyBundle

abbrev AuthGroupState (ID OP C : Type) := GroupCrdtInnerState ID OP C

abbrev EncryptionDcgkaState (ID : Type) :=
  DcgkaState ID (KeyRegistryState ID) (EncryptionMembershipState ID) KeyManagerState

abbrev EncryptionDcgkaError (ID : Type) := DcgkaError ID KeyRegistryError Empty

abbrev EncryptionGroupState (ID OP : Type) :=
  GroupState ID (KeyRegistryState ID) (EncryptionMembershipState ID) KeyManagerState
    (EncryptionOrdererState ID OP)

abbrev EncryptionGroupError (ID : Type) := DataScheme.GroupError ID KeyRegistryError Empty Empty

abbrev EncryptionOutcome (ID α : Type) := Outcome (EncryptionGroupError ID) α

structure SpacesState (ID OP C : Type) where
  spaceId : OP
  groupId : ID
  groupsY : AuthGroupState ID OP C
  encryptionY : EncryptionGroupState ID OP
  removed : Finset ID

structure SpacesStoreState (ID OP C : Type) where
  myId : ID
  spaceId : OP
  groupId : ID
  groupsY : AuthGroupState ID OP C
  isWelcomed : Bool
  secrets : SecretBundleState
  orderer : EncryptionOrdererState ID OP
  twoParty : HashMap ID (TwoPartyState LongTermKeyBundle)
  removed : Finset ID

def SpacesState.toStore {ID OP C : Type} (y : SpacesState ID OP C) : SpacesStoreState ID OP C where
  myId := y.encryptionY.myId
  spaceId := y.spaceId
  groupId := y.groupId
  groupsY := y.groupsY
  isWelcomed := y.encryptionY.isWelcomed
  secrets := y.encryptionY.secrets
  orderer := y.encryptionY.orderer
  twoParty := y.encryptionY.dcgka.twoParty
  removed := y.removed

def SpacesState.assembleFromStore {ID OP C : Type} (spaceY : SpacesStoreState ID OP C)
    (keyManagerY : KeyManagerState) (keyRegistryY : KeyRegistryState ID) :
    SpacesState ID OP C where
  spaceId := spaceY.spaceId
  groupId := spaceY.groupId
  groupsY := spaceY.groupsY
  encryptionY := {
    myId := spaceY.myId
    dcgka := ⟨keyRegistryY, keyManagerY, spaceY.myId, spaceY.twoParty, .default⟩
    orderer := spaceY.orderer
    secrets := spaceY.secrets
    isWelcomed := spaceY.isWelcomed }
  removed := spaceY.removed

inductive IdentityError (φ : Type) where
  | forge (error : φ)
  | keyRegistry (error : KeyRegistryError)
  | member (error : MemberError)

inductive GroupError (ID OP φ : Type) where
  | authGroup (error : GroupCrdtError ID OP)
  | identityManager (error : IdentityError φ)

inductive SpaceError (ID OP φ : Type) where
  | rng (error : RngError)
  | authGroup (error : GroupCrdtError ID OP)
  | group (error : GroupError ID OP φ)
  | encryptionGroup (error : EncryptionGroupError ID)
  | identityManager (error : IdentityError φ)
  | unknownSpace (id : OP)
  | notWelcomed (id : OP)
  | unauthorizedWrite (error : VerifyClaimedWriteError ID OP)

inductive ManagerError (ID OP φ : Type) where
  | space (error : SpaceError ID OP φ)
  | group (error : GroupError ID OP φ)
  | identityManager (error : IdentityError φ)
  | rng (error : RngError)
  | unexpectedMessage (id : OP)
  | missingAuthMessage (spaceMessage authMessage : OP)
  | incorrectMessageVariant (id : OP)
  | spaceNotFound (id : OP)

def MessageStore (ID OP C : Type) [DecidableEq OP] :=
  { messages : HashMap OP (SpacesMessage ID OP C) //
    ∀ id message, messages.lookup id = some message → message.id = id }

instance (ID OP C : Type) [DecidableEq OP] : EmptyCollection (MessageStore ID OP C) :=
  ⟨∅, by simp⟩

structure Store (ID OP C : Type) [DecidableEq OP] where
  groups : Option (AuthGroupState ID OP C)
  spaces : HashMap OP (SpacesStoreState ID OP C)
  messages : MessageStore ID OP C
  prekeySecrets : Option (HashMap PreKeyId PreKeyBundle)
  keyRegistry : Option (KeyRegistryState ID)

structure Manager (ID OP C : Type) [DecidableEq OP] where
  actorId : ID
  identitySecret : SecretKey
  store : Store ID OP C

/-- The runtimes of the calls of the auth state and the surroundings of those of the encryption
group, the time, random numbers, the ids of the messages it forges, and the order of graph heads. -/
structure Surroundings (ID OP C φ : Type) [DecidableEq ID] [DecidableEq OP] where
  auth : Nat → Runtime ID OP
  encryption : Nat → DataScheme.Surroundings ID
  clock : Clock
  rng : Rng
  forge : Nat → SpacesArgs ID OP C → Outcome φ OP
  order : HashOrder OP

namespace Manager

variable {ID OP C φ : Type} [DecidableEq ID] [DecidableEq OP]

def getGroupsState (manager : Manager ID OP C) : AuthGroupState ID OP C :=
  manager.store.groups.getD .default

def getSpaceState (manager : Manager ID OP C) (id : OP) : Option (SpacesStoreState ID OP C) :=
  manager.store.spaces.lookup id

def keyManager (platform : Platform ID) (manager : Manager ID OP C) : KeyManagerState :=
  KeyManager.initFromPrekeyBundles platform.primitives.toPrimitives manager.identitySecret
    (manager.store.prekeySecrets.getD ∅)

def keyRegistry (manager : Manager ID OP C) : KeyRegistryState ID :=
  manager.store.keyRegistry.getD KeyRegistry.init

def forge (env : Surroundings ID OP C φ) (manager : Manager ID OP C) (n : Nat)
    (args : SpacesArgs ID OP C) : Outcome (IdentityError φ) (SpacesMessage ID OP C) := do
  let id ← (env.forge n args).mapErr .forge
  return ⟨id, manager.actorId, args⟩

def processMember (platform : Platform ID) (env : Surroundings ID OP C φ)
    (manager : Manager ID OP C) (member : Member ID) :
    Outcome (IdentityError φ) (KeyRegistryState ID × Event ID OP C) := do
  (member.verify platform env.clock).mapErr .member
  let pki ← (KeyRegistry.addLongtermBundle platform.primitives.toPrimitives env.clock
    manager.keyRegistry member.id member.keyBundle).mapErr .keyRegistry
  return (pki, .member member)

end Manager

end P2Panda.Spaces
