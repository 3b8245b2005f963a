import P2Panda.Encryption.DataScheme.GroupSecret
import P2Panda.Encryption.TwoParty.TwoParty

/-!
# Key agreement for data encryption

Whoever changes the group sends a new secret to every other member over a two-party channel; whoever
is added is sent all secrets in a welcome.
-/

namespace P2Panda.Encryption.DataScheme

open P2Panda.Library P2Panda.Core

class PreKeyRegistry (P ID : Type) (ρ : outParam Type) where
  keyBundle : Clock → P → ID → Outcome ρ (P × Option LongTermKeyBundle)

class GroupMembership (D ID OP : Type) (δ : outParam Type) where
  create : ID → List ID → Outcome δ D
  fromWelcome : ID → D → Outcome δ D
  add : D → ID → ID → OP → Outcome δ D
  remove : D → ID → ID → OP → Outcome δ D
  members : D → Outcome δ (Finset ID)

/-- `encode_cbor` and `decode_cbor` for secrets and for lists of them. -/
structure SecretCodec extends PlaintextCodec where
  secretToBytes : GroupSecret → Option Bytes
  secretFromBytes : Bytes → Option GroupSecret
  bundleToBytes : List GroupSecret → Option Bytes
  bundleFromBytes : Bytes → Option (List GroupSecret)

structure SecretCodec.Lawful (codec : SecretCodec) : Prop where
  plaintext : codec.toPlaintextCodec.Lawful
  secret : ∀ {s bytes}, codec.secretToBytes s = some bytes → codec.secretFromBytes bytes = some s
  bundle : ∀ {l bytes}, codec.bundleToBytes l = some bytes → codec.bundleFromBytes bytes = some l

structure DcgkaState (ID P D Y : Type) where
  pki : P
  myKeys : Y
  myId : ID
  twoParty : HashMap ID (TwoPartyState LongTermKeyBundle)
  dgm : D

inductive ControlMessage (ID : Type) where
  | create (initialMembers : List ID)
  | update
  | remove (removed : ID)
  | add (added : ID)
  deriving DecidableEq

inductive DirectMessageContent (D : Type) where
  | welcome (ciphertext : TwoPartyMessage) (history : D)
  | twoParty (ciphertext : TwoPartyMessage)
  deriving DecidableEq

def DirectMessageContent.ciphertext {D : Type} : DirectMessageContent D → TwoPartyMessage
  | .welcome ciphertext _ => ciphertext
  | .twoParty ciphertext => ciphertext

structure DirectMessage (ID D : Type) where
  recipient : ID
  content : DirectMessageContent D
  deriving DecidableEq

inductive DirectMessageType where
  | welcome
  | twoParty
  deriving DecidableEq, Repr

def DirectMessage.messageType {ID D : Type} (message : DirectMessage ID D) : DirectMessageType :=
  match message.content with
  | .welcome .. => .welcome
  | .twoParty .. => .twoParty

inductive GroupSecretOutput where
  | none
  | secret (secret : GroupSecret)
  | bundle (bundle : SecretBundleState)

def GroupSecretOutput.Carries (c : DataPrimitives) : GroupSecretOutput → GroupSecretId → Prop
  | .none, _ => False
  | .secret groupSecret, id => groupSecret.id c = id
  | .bundle secrets, id => secrets.contains id = true

instance (c : DataPrimitives) (output : GroupSecretOutput) (id : GroupSecretId) :
    Decidable (output.Carries c id) :=
  match output with
  | .none => isFalse False.elim
  | .secret secret => inferInstanceAs (Decidable (secret.id c = id))
  | .bundle secrets => inferInstanceAs (Decidable (secrets.contains id = true))

structure OperationOutput (ID D : Type) where
  controlMessage : ControlMessage ID
  directMessages : List (DirectMessage ID D)

structure ProcessInput (ID OP D : Type) where
  seq : OP
  sender : ID
  controlMessage : ControlMessage ID
  directMessage : Option (DirectMessage ID D)

inductive DcgkaError (ID ρ δ : Type) where
  | missingDirectMessage (type : DirectMessageType)
  | unexpectedDirectMessageType (expected actual : DirectMessageType)
  | notOurDirectMessage (us recipient : ID)
  | groupMembership (error : δ)
  | dgmOperation (error : δ)
  | preKeyRegistry (error : ρ)
  | missingPreKeys (id : ID)
  | groupSecret (error : GroupSecretError)
  | twoParty (error : TwoPartyError)

/-- What a call takes from its surroundings, besides random numbers: the times when a secret is made
and a message is encrypted, the randomness of HPKE, and the order of hash sets and hash maps. -/
structure Surroundings (ID : Type) where
  now : Clock
  clock : ID → Clock
  entropy : ID → Bytes
  members : HashOrder ID
  secrets : HashOrder GroupSecretId

namespace Dcgka

variable {ID OP P D Y ρ δ ε : Type} [DecidableEq ID] [PreKeyRegistry P ID ρ]
  [GroupMembership D ID OP δ] [PreKeyManager Y ε]
variable (checks : Bool) (c : DataPrimitives) (codec : SecretCodec) (env : Surroundings ID)

def init (myId : ID) (myKeys : Y) (pki : P) (dgm : D) : DcgkaState ID P D Y :=
  ⟨pki, myKeys, myId, ∅, dgm⟩

def channelTo (y : DcgkaState ID P D Y) (recipient : ID) : Outcome (DcgkaError ID ρ δ)
    (DcgkaState ID P D Y × TwoPartyState LongTermKeyBundle) :=
  match y.twoParty.lookup recipient with
  | some twoParty => .ok ({ y with twoParty := y.twoParty.erase recipient }, twoParty)
  | none => do
    let (pki, prekeyBundle) ←
      (PreKeyRegistry.keyBundle (env.clock recipient) y.pki recipient).mapErr .preKeyRegistry
    match prekeyBundle with
    | some prekeyBundle => return ({ y with pki := pki }, TwoParty.initToSend prekeyBundle)
    | none => .err (.missingPreKeys recipient)

def encryptTo (y : DcgkaState ID P D Y) (recipient : ID) (plaintext : Bytes) (rng : Rng) :
    Outcome (DcgkaError ID ρ δ) (DcgkaState ID P D Y × TwoPartyMessage × Rng) := do
  let (y, twoParty) ← channelTo env y recipient
  let (twoParty, ciphertext, rng) ← (TwoParty.send checks c.toPrimitives codec.toPlaintextCodec
    (env.clock recipient) twoParty y.myKeys plaintext rng (env.entropy recipient)).mapErr .twoParty
  return ({ y with twoParty := y.twoParty.insert recipient twoParty }, ciphertext, rng)

def decryptFrom (y : DcgkaState ID P D Y) (sender : ID) (ciphertext : TwoPartyMessage) :
    Outcome (DcgkaError ID ρ δ) (DcgkaState ID P D Y × Bytes) := do
  let twoParty := (y.twoParty.lookup sender).getD TwoParty.initToReceive
  let (twoParty, myKeys, plaintext) ← (TwoParty.receive checks c.toPrimitives
    codec.toPlaintextCodec twoParty y.myKeys ciphertext).mapErr .twoParty
  return ({ y with myKeys := myKeys, twoParty := y.twoParty.insert sender twoParty }, plaintext)

def encoded (bytes : Option Bytes) : Outcome (DcgkaError ID ρ δ) Bytes :=
  match bytes with
  | some bytes => .ok bytes
  | none => .err (.groupSecret .encode)

def sendGroupSecret (groupSecret : GroupSecret) :
    DcgkaState ID P D Y → Rng → List ID →
      Outcome (DcgkaError ID ρ δ) (DcgkaState ID P D Y × List (DirectMessage ID D) × Rng)
  | y, rng, [] => .ok (y, [], rng)
  | y, rng, recipient :: recipients =>
    if recipient = y.myId then sendGroupSecret groupSecret y rng recipients
    else do
      let plaintext ← encoded (codec.secretToBytes groupSecret)
      let (y, ciphertext, rng) ← encryptTo checks c codec env y recipient plaintext rng
      let (y, directMessages, rng) ← sendGroupSecret groupSecret y rng recipients
      return (y, ⟨recipient, .twoParty ciphertext⟩ :: directMessages, rng)

variable (OP) in
def members (y : DcgkaState ID P D Y) : Outcome (DcgkaError ID ρ δ) (Finset ID) :=
  (GroupMembership.members OP y.dgm).mapErr .groupMembership

def initialMembers (myId : ID) (members : List ID) : List ID :=
  let members := members.foldl (fun acc id => if id ∈ acc then acc else acc ++ [id]) []
  if myId ∈ members then members else members ++ [myId]

def create (y : DcgkaState ID P D Y) (members : List ID) (groupSecret : GroupSecret) (rng : Rng) :
    Outcome (DcgkaError ID ρ δ) (DcgkaState ID P D Y × OperationOutput ID D × Rng) := do
  let initialMembers := initialMembers y.myId members
  let (y, directMessages, rng) ←
    sendGroupSecret checks c codec env groupSecret y rng initialMembers
  return (y, ⟨.create initialMembers, directMessages⟩, rng)

variable (OP) in
def update (y : DcgkaState ID P D Y) (groupSecret : GroupSecret) (rng : Rng) :
    Outcome (DcgkaError ID ρ δ) (DcgkaState ID P D Y × OperationOutput ID D × Rng) := do
  let members ← members OP y
  let recipients := (env.members.iter members).filter fun member => member ≠ y.myId
  let (y, directMessages, rng) ← sendGroupSecret checks c codec env groupSecret y rng recipients
  return (y, ⟨.update, directMessages⟩, rng)

variable (OP) in
def remove (y : DcgkaState ID P D Y) (removed : ID) (groupSecret : GroupSecret) (rng : Rng) :
    Outcome (DcgkaError ID ρ δ) (DcgkaState ID P D Y × OperationOutput ID D × Rng) := do
  let members ← members OP y
  let recipients := (env.members.iter members).filter fun member =>
    member ≠ y.myId ∧ member ≠ removed
  let (y, directMessages, rng) ← sendGroupSecret checks c codec env groupSecret y rng recipients
  return (y, ⟨.remove removed, directMessages⟩, rng)

def add (y : DcgkaState ID P D Y) (added : ID) (bundle : SecretBundleState) (rng : Rng) :
    Outcome (DcgkaError ID ρ δ) (DcgkaState ID P D Y × OperationOutput ID D × Rng) := do
  let bundleBytes ← encoded (codec.bundleToBytes (bundle.values env.secrets))
  let (y, ciphertext, rng) ← encryptTo checks c codec env y added bundleBytes rng
  return (y, ⟨.add added, [⟨added, .welcome ciphertext y.dgm⟩]⟩, rng)

def processSecret (y : DcgkaState ID P D Y) (sender : ID)
    (directMessage : Option (DirectMessage ID D)) :
    Outcome (DcgkaError ID ρ δ) (DcgkaState ID P D Y × GroupSecretOutput) :=
  match directMessage with
  | none => .ok (y, .none)
  | some directMessage =>
    match directMessage.content with
    | .twoParty ciphertext =>
      if directMessage.recipient ≠ y.myId then
        .err (.notOurDirectMessage y.myId directMessage.recipient)
      else do
        let (y, plaintext) ← decryptFrom checks c codec y sender ciphertext
        match codec.secretFromBytes plaintext with
        | some groupSecret => return (y, .secret groupSecret)
        | none => .err (.groupSecret .decode)
    | .welcome .. => .err (.unexpectedDirectMessageType .twoParty directMessage.messageType)

variable (OP) in
def processCreate (y : DcgkaState ID P D Y) (sender : ID) (initialMembers : List ID)
    (directMessage : Option (DirectMessage ID D)) :
    Outcome (DcgkaError ID ρ δ) (DcgkaState ID P D Y × GroupSecretOutput) := do
  let dgm ← (GroupMembership.create OP y.myId initialMembers).mapErr .dgmOperation
  processSecret checks c codec { y with dgm := dgm } sender directMessage

def processRemove (y : DcgkaState ID P D Y) (sender : ID) (seq : OP) (removed : ID)
    (directMessage : Option (DirectMessage ID D)) :
    Outcome (DcgkaError ID ρ δ) (DcgkaState ID P D Y × GroupSecretOutput) := do
  let dgm ← (GroupMembership.remove y.dgm sender removed seq).mapErr .dgmOperation
  processSecret checks c codec { y with dgm := dgm } sender directMessage

variable (OP) in
def processWelcome (y : DcgkaState ID P D Y) (sender : ID) (ciphertext : TwoPartyMessage)
    (history : D) : Outcome (DcgkaError ID ρ δ) (DcgkaState ID P D Y × GroupSecretOutput) := do
  let dgm ← (GroupMembership.fromWelcome OP y.myId history).mapErr .dgmOperation
  let (y, plaintext) ← decryptFrom checks c codec { y with dgm := dgm } sender ciphertext
  match codec.bundleFromBytes plaintext with
  | some secrets => return (y, .bundle (SecretBundle.fromSecrets c env.secrets secrets))
  | none => .err (.groupSecret .decode)

def processAdd (y : DcgkaState ID P D Y) (sender : ID) (seq : OP) (added : ID)
    (directMessage : Option (DirectMessage ID D)) :
    Outcome (DcgkaError ID ρ δ) (DcgkaState ID P D Y × GroupSecretOutput) := do
  let dgm ← (GroupMembership.add y.dgm sender added seq).mapErr .dgmOperation
  let y := { y with dgm := dgm }
  if added = y.myId then
    match directMessage with
    | none => .err (.missingDirectMessage .welcome)
    | some directMessage =>
      match directMessage.content with
      | .welcome ciphertext history =>
        if directMessage.recipient ≠ y.myId then
          .err (.notOurDirectMessage y.myId directMessage.recipient)
        else processWelcome OP checks c codec env y sender ciphertext history
      | .twoParty .. => .err (.unexpectedDirectMessageType .welcome directMessage.messageType)
  else return (y, .none)

def process (y : DcgkaState ID P D Y) (input : ProcessInput ID OP D) :
    Outcome (DcgkaError ID ρ δ) (DcgkaState ID P D Y × GroupSecretOutput) :=
  match input.controlMessage with
  | .create initialMembers =>
    processCreate OP checks c codec y input.sender initialMembers input.directMessage
  | .update => processSecret checks c codec y input.sender input.directMessage
  | .remove removed =>
    processRemove checks c codec y input.sender input.seq removed input.directMessage
  | .add added => processAdd checks c codec env y input.sender input.seq added input.directMessage

end Dcgka

end P2Panda.Encryption.DataScheme
