import P2Panda.Encryption.MessageScheme.Ratchet
import P2Panda.Encryption.TwoParty.TwoParty

/-!
# Decentralized continuous group key agreement

To make an update, a member sends a seed to every other member over a two-party channel. From it all
derive one secret per member, which is mixed into the member's ratchet when the member has
acknowledged the update.
-/

namespace P2Panda.Encryption.MessageScheme

open P2Panda.Library P2Panda.Core

/-- 256-bit "outer" chain- and update key. -/
def RATCHET_KEY_SIZE : Nat := 32

/-- Seed we keep temporarily when creating or updating a group or removing a member. -/
structure NextSeed where
  secret : Secret RATCHET_KEY_SIZE
  deriving DecidableEq

structure ChainSecret where
  secret : Secret RATCHET_KEY_SIZE
  deriving DecidableEq

structure UpdateSecret where
  secret : Secret RATCHET_KEY_SIZE
  deriving DecidableEq

/-- BLAKE3 hash of "welcome" as utf8. -/
def ChainSecret.fromWelcome : ChainSecret :=
  ⟨⟨#v[168, 234, 241, 118, 147, 12, 137, 47, 48, 26, 61, 243, 183, 11, 158, 143, 99, 219, 142,
    131, 41, 18, 245, 167, 132, 195, 241, 26, 89, 106, 154, 134]⟩⟩

/-- BLAKE3 hash of "add" as utf8. -/
def ChainSecret.fromAdd : ChainSecret :=
  ⟨⟨#v[58, 3, 204, 193, 45, 117, 68, 208, 41, 238, 11, 13, 169, 250, 180, 215, 22, 4, 43, 226,
    179, 34, 182, 188, 85, 49, 221, 39, 150, 98, 220, 156]⟩⟩

class KeyRegistry (P ID : Type) (ρ : outParam Type) where
  identityKey : P → ID → Outcome ρ (Option PublicKey)
  keyBundle : P → ID → Outcome ρ (P × Option OneTimeKeyBundle)

class AckedGroupMembership (D ID OP : Type) (δ : outParam Type) where
  create : ID → List ID → Outcome δ D
  fromWelcome : D → D → Outcome δ D
  add : D → ID → ID → OP → Outcome δ D
  remove : D → ID → ID → OP → Outcome δ D
  ack : D → ID → OP → Outcome δ D
  membersView : D → ID → Outcome δ (Finset ID)
  isAdd : D → OP → Bool
  isRemove : D → OP → Bool

structure DcgkaState (ID OP P D Y : Type) where
  pki : P
  myKeys : Y
  myId : ID
  nextSeed : Option NextSeed
  twoParty : HashMap ID (TwoPartyState OneTimeKeyBundle)
  /-- Secrets which wait for the acknowledgment of a member, by sender, operation and member. -/
  memberSecrets : HashMap (ID × OP × ID) ChainSecret
  ratchet : HashMap ID ChainSecret
  dgm : D

inductive ControlMessage (ID OP : Type) where
  | create (initialMembers : List ID)
  | ack (ackSender : ID) (ackSeq : OP)
  | update
  | remove (removed : ID)
  | add (added : ID)
  | addAck (ackSender : ID) (ackSeq : OP)
  deriving DecidableEq

inductive DirectMessageContent (D : Type) where
  | welcome (ciphertext : TwoPartyMessage) (history : D)
  | twoParty (ciphertext : TwoPartyMessage)
  | forward (ciphertext : TwoPartyMessage)

structure DirectMessage (ID D : Type) where
  recipient : ID
  content : DirectMessageContent D

inductive DirectMessageType where
  | welcome
  | twoParty
  | forward
  deriving DecidableEq, Repr

def DirectMessage.messageType {ID D : Type} (message : DirectMessage ID D) : DirectMessageType :=
  match message.content with
  | .welcome .. => .welcome
  | .twoParty .. => .twoParty
  | .forward .. => .forward

structure ProcessOutput (ID OP D : Type) where
  controlMessage : Option (ControlMessage ID OP)
  directMessages : List (DirectMessage ID D)
  senderUpdateSecret : Option UpdateSecret
  meUpdateSecret : Option UpdateSecret

def ProcessOutput.default {ID OP D : Type} : ProcessOutput ID OP D := ⟨none, [], none, none⟩

structure OperationOutput (ID OP D : Type) where
  controlMessage : ControlMessage ID OP
  directMessages : List (DirectMessage ID D)
  meUpdateSecret : Option UpdateSecret

structure ProcessInput (ID OP D : Type) where
  seq : OP
  sender : ID
  controlMessage : ControlMessage ID OP
  directMessage : Option (DirectMessage ID D)

inductive DcgkaError (ID OP ρ δ : Type) where
  | invalidKeySize
  | missingRatchetSecret
  | missingMemberSecret (sender : ID) (seq : OP)
  | missingDirectMessage (type : DirectMessageType)
  | unexpectedDirectMessageType (expected actual : DirectMessageType)
  | notOurDirectMessage (us recipient : ID)
  | membersView (error : δ)
  | dgmOperation (error : δ)
  | preKeyRegistry (error : ρ)
  | identityRegistry (error : ρ)
  | missingPreKeys (id : ID)
  | missingIdentityKey (id : ID)
  | rng (error : RngError)
  | twoParty (error : TwoPartyError)
  | hkdf (error : HkdfError)

/-- What a call takes from its surroundings, besides random numbers: the time, the randomness of
HPKE, and the order of hash sets. -/
structure Surroundings (ID : Type) where
  clock : Clock
  entropy : ID → Bytes
  order : HashOrder ID

namespace Dcgka

variable {ID OP P D Y ρ δ ε : Type} [DecidableEq ID] [DecidableEq OP] [KeyRegistry P ID ρ]
  [AckedGroupMembership D ID OP δ] [PreKeyManager Y ε]
variable (checks : Bool) (c : Primitives) (codec : PlaintextCodec) (env : Surroundings ID)

def init (myId : ID) (myKeys : Y) (pki : P) (dgm : D) : DcgkaState ID OP P D Y :=
  ⟨pki, myKeys, myId, none, ∅, ∅, ∅, dgm⟩

/-! ## Secrets -/

def tryFromBytes (bytes : Bytes) : Outcome (DcgkaError ID OP ρ δ) (Secret RATCHET_KEY_SIZE) :=
  if h : bytes.length = RATCHET_KEY_SIZE then .ok ⟨⟨bytes.toArray, h⟩⟩ else .err .invalidKeySize

def identityKey (y : DcgkaState ID OP P D Y) (id : ID) :
    Outcome (DcgkaError ID OP ρ δ) PublicKey := do
  match ← (KeyRegistry.identityKey y.pki id).mapErr .identityRegistry with
  | some key => .ok key
  | none => .err (.missingIdentityKey id)

def memberView (y : DcgkaState ID OP P D Y) (viewer : ID) :
    Outcome (DcgkaError ID OP ρ δ) (Finset ID) :=
  (AckedGroupMembership.membersView OP y.dgm viewer).mapErr .membersView

def memberSecret (nextSeed : NextSeed) (identityKey : PublicKey) :
    Outcome (DcgkaError ID OP ρ δ) ChainSecret := do
  let ikm := nextSeed.secret.bytes.toList ++ identityKey.bytes.toList
  let secret ← (hkdf c.derive RATCHET_KEY_SIZE (RatchetSecret.label "update") ikm none).mapErr .hkdf
  return ⟨⟨secret⟩⟩

def updateRatchet (y : DcgkaState ID OP P D Y) (member : ID) (memberSecret : ChainSecret) :
    Outcome (DcgkaError ID OP ρ δ) (DcgkaState ID OP P D Y × UpdateSecret) := do
  let identityKey ← identityKey y member
  -- mix in the previous "outer" ratchet chain secret if it exists
  let previous := ((y.ratchet.lookup member).map fun key => key.secret.bytes.toList).getD []
  let ikm := previous ++ memberSecret.secret.bytes.toList ++ identityKey.bytes.toList
  let updateSecret ←
    (hkdf c.derive RATCHET_KEY_SIZE (RatchetSecret.label "update") ikm none).mapErr .hkdf
  let nextOuterRatchetKey ←
    (hkdf c.derive RATCHET_KEY_SIZE (RatchetSecret.label "chain") ikm none).mapErr .hkdf
  return ({ y with ratchet := y.ratchet.insert member ⟨⟨nextOuterRatchetKey⟩⟩ }, ⟨⟨updateSecret⟩⟩)

/-! ## Two-party channels -/

def twoPartyState (y : DcgkaState ID OP P D Y) (id : ID) : Outcome (DcgkaError ID OP ρ δ)
    (DcgkaState ID OP P D Y × TwoPartyState OneTimeKeyBundle) :=
  match y.twoParty.lookup id with
  | some twoParty => .ok ({ y with twoParty := y.twoParty.erase id }, twoParty)
  | none => do
    let (pki, prekeyBundle) ← (KeyRegistry.keyBundle y.pki id).mapErr .preKeyRegistry
    match prekeyBundle with
    | some prekeyBundle => return ({ y with pki := pki }, TwoParty.initToSend prekeyBundle)
    | none => .err (.missingPreKeys id)

def encryptTo (y : DcgkaState ID OP P D Y) (recipient : ID) (plaintext : Bytes) (rng : Rng) :
    Outcome (DcgkaError ID OP ρ δ) (DcgkaState ID OP P D Y × TwoPartyMessage × Rng) := do
  let (y, twoParty) ← twoPartyState y recipient
  let (twoParty, ciphertext, rng) ← (TwoParty.send checks c codec env.clock twoParty y.myKeys
    plaintext rng (env.entropy recipient)).mapErr .twoParty
  return ({ y with twoParty := y.twoParty.insert recipient twoParty }, ciphertext, rng)

def decryptFrom (y : DcgkaState ID OP P D Y) (sender : ID) (ciphertext : TwoPartyMessage) :
    Outcome (DcgkaError ID OP ρ δ) (DcgkaState ID OP P D Y × Bytes) := do
  let (y, twoParty) ← twoPartyState y sender
  let (twoParty, myKeys, plaintext) ←
    (TwoParty.receive checks c codec twoParty y.myKeys ciphertext).mapErr .twoParty
  return ({ y with myKeys := myKeys, twoParty := y.twoParty.insert sender twoParty }, plaintext)

def encryptToAll (content : TwoPartyMessage → DirectMessageContent D) (plaintext : Bytes) :
    DcgkaState ID OP P D Y → Rng → List ID →
      Outcome (DcgkaError ID OP ρ δ) (DcgkaState ID OP P D Y × List (DirectMessage ID D) × Rng)
  | y, rng, [] => .ok (y, [], rng)
  | y, rng, recipient :: recipients => do
    let (y, ciphertext, rng) ← encryptTo checks c codec env y recipient plaintext rng
    let (y, directMessages, rng) ← encryptToAll content plaintext y rng recipients
    return (y, ⟨recipient, content ciphertext⟩ :: directMessages, rng)

def generateSeed (y : DcgkaState ID OP P D Y) (recipients : List ID) (rng : Rng) :
    Outcome (DcgkaError ID OP ρ δ)
      (DcgkaState ID OP P D Y × List (DirectMessage ID D) × Rng) := do
  let (nextSeedBytes, rng) ← (rng.randomArray RATCHET_KEY_SIZE).mapErr .rng
  encryptToAll checks c codec env .twoParty nextSeedBytes.toList
    { y with nextSeed := some ⟨⟨nextSeedBytes⟩⟩ } rng
    (recipients.filter fun recipient => recipient ≠ y.myId)

/-! ## Processing -/

/-- An acknowledgment is recorded if the message was a group membership operation, not for the
creation or updates. -/
def recordAck (y : DcgkaState ID OP P D Y) (sender : ID) (ackSeq : OP) :
    Outcome (DcgkaError ID OP ρ δ) D :=
  if AckedGroupMembership.isAdd ID y.dgm ackSeq ∧ AckedGroupMembership.isRemove ID y.dgm ackSeq ∧
      sender ≠ y.myId then
    (AckedGroupMembership.ack y.dgm sender ackSeq).mapErr .dgmOperation
  else .ok y.dgm

def updateSender (y : DcgkaState ID OP P D Y) (sender : ID) (secret : ChainSecret) :
    Outcome (DcgkaError ID OP ρ δ) (DcgkaState ID OP P D Y × ProcessOutput ID OP D) := do
  let (y, senderUpdateSecret) ← updateRatchet c y sender secret
  return (y, ⟨none, [], some senderUpdateSecret, none⟩)

def processAck (y : DcgkaState ID OP P D Y) (sender : ID) (ack : ID × OP)
    (directMessage : Option (DirectMessage ID D)) :
    Outcome (DcgkaError ID OP ρ δ) (DcgkaState ID OP P D Y × ProcessOutput ID OP D) := do
  let dgm ← recordAck y sender ack.2
  -- the member secret is deleted for forward secrecy
  let memberSecret := y.memberSecrets.lookup (ack.1, ack.2, sender)
  let memberSecrets := y.memberSecrets.erase (ack.1, ack.2, sender)
  let y := { y with dgm := dgm, memberSecrets := memberSecrets }
  match memberSecret, directMessage with
  | none, none => return (y, .default)
  | some memberSecret, _ => updateSender c y sender memberSecret
  | none, some directMessage =>
    match directMessage.content with
    | .forward ciphertext =>
      -- direct message was not meant for us
      if directMessage.recipient ≠ y.myId then return (y, .default)
      else do
        let (y, plaintext) ← decryptFrom checks c codec y sender ciphertext
        let secret ← tryFromBytes plaintext
        updateSender c y sender ⟨secret⟩
    | _ => .err (.unexpectedDirectMessageType .forward directMessage.messageType)

def insertMemberSecrets (sender : ID) (seq : OP) (nextSeed : NextSeed) :
    DcgkaState ID OP P D Y → List ID → Outcome (DcgkaError ID OP ρ δ) (DcgkaState ID OP P D Y)
  | y, [] => .ok y
  | y, recipient :: recipients => do
    let recipientIdentityKey ← identityKey y recipient
    let recipientMemberSecret ← memberSecret c nextSeed recipientIdentityKey
    let memberSecrets := y.memberSecrets.insert (sender, seq, recipient) recipientMemberSecret
    insertMemberSecrets sender seq nextSeed { y with memberSecrets := memberSecrets } recipients

/-- The seed we have generated, or the one which was sent to us. There is none for a
non-recipient. -/
def obtainSeed (y : DcgkaState ID OP P D Y) (sender : ID) (recipients : List ID)
    (directMessage : Option (DirectMessage ID D)) :
    Outcome (DcgkaError ID OP ρ δ) (DcgkaState ID OP P D Y × Option NextSeed) :=
  if sender = y.myId then do
    let nextSeed ← Outcome.expect "seed was generated before" y.nextSeed
    return ({ y with nextSeed := none }, some nextSeed)
  else if y.myId ∈ recipients then
    match directMessage with
    | some directMessage =>
      match directMessage.content with
      | .twoParty ciphertext =>
        if directMessage.recipient ≠ y.myId then
          .err (.notOurDirectMessage y.myId directMessage.recipient)
        else do
          let (y, plaintext) ← decryptFrom checks c codec y sender ciphertext
          let nextSeed ← tryFromBytes plaintext
          return (y, some ⟨nextSeed⟩)
      | _ => .err (.unexpectedDirectMessageType .twoParty directMessage.messageType)
    | none => .err (.missingDirectMessage .twoParty)
  else .ok (y, none)

/-- Members whose additions the sender of an update did not know are sent our member secret. -/
def forwardSecret (y : DcgkaState ID OP P D Y) (sender : ID) (seq : OP) (members : List ID)
    (rng : Rng) :
    Outcome (DcgkaError ID OP ρ δ)
      (DcgkaState ID OP P D Y × List (DirectMessage ID D) × Rng) :=
  match members with
  | [] => .ok (y, [], rng)
  | _ :: _ =>
    match y.memberSecrets.lookup (sender, seq, y.myId) with
    | some secret =>
      encryptToAll checks c codec env .forward secret.secret.bytes.toList y rng members
    | none => .err (.missingMemberSecret sender seq)

def processSeed (y : DcgkaState ID OP P D Y) (sender : ID) (seq : OP)
    (directMessage : Option (DirectMessage ID D)) (rng : Rng) :
    Outcome (DcgkaError ID OP ρ δ) (DcgkaState ID OP P D Y × ProcessOutput ID OP D) := do
  let view ← memberView y sender
  let recipients := (env.order.iter view).filter fun member => member ≠ sender
  let (y, nextSeed) ← obtainSeed checks c codec y sender recipients directMessage
  match nextSeed with
  | none =>
    -- a member who was added concurrently does not derive an update secret
    return (y, ⟨some (.ack sender seq), [], none, none⟩)
  | some nextSeed => do
    let y ← insertMemberSecrets c sender seq nextSeed y recipients
    let senderIdentityKey ← identityKey y sender
    let senderMemberSecret ← memberSecret c nextSeed senderIdentityKey
    let (y, senderUpdateSecret) ← updateRatchet c y sender senderMemberSecret
    if sender = y.myId then return (y, ⟨none, [], some senderUpdateSecret, none⟩)
    else do
      let view ← memberView y y.myId
      let members := (env.order.iter view).filter fun member =>
        member ≠ sender ∧ member ∉ recipients
      let (y, forwardMessages, _) ← forwardSecret checks c codec env y sender seq members rng
      let (y, output) ← processAck checks c codec y y.myId (sender, seq) none
      return (y, ⟨some (.ack sender seq), forwardMessages, some senderUpdateSecret,
        output.senderUpdateSecret⟩)

def processCreate (y : DcgkaState ID OP P D Y) (sender : ID) (seq : OP) (initialMembers : List ID)
    (directMessage : Option (DirectMessage ID D)) (rng : Rng) :
    Outcome (DcgkaError ID OP ρ δ) (DcgkaState ID OP P D Y × ProcessOutput ID OP D) := do
  let dgm ← (AckedGroupMembership.create OP y.myId initialMembers).mapErr .dgmOperation
  processSeed checks c codec env { y with dgm := dgm } sender seq directMessage rng

def processUpdate (y : DcgkaState ID OP P D Y) (sender : ID) (seq : OP)
    (directMessage : Option (DirectMessage ID D)) (rng : Rng) :
    Outcome (DcgkaError ID OP ρ δ) (DcgkaState ID OP P D Y × ProcessOutput ID OP D) :=
  processSeed checks c codec env y sender seq directMessage rng

def processRemove (y : DcgkaState ID OP P D Y) (sender : ID) (seq : OP) (removed : ID)
    (directMessage : Option (DirectMessage ID D)) (rng : Rng) :
    Outcome (DcgkaError ID OP ρ δ) (DcgkaState ID OP P D Y × ProcessOutput ID OP D) := do
  let dgm ← (AckedGroupMembership.remove y.dgm sender removed seq).mapErr .dgmOperation
  processSeed checks c codec env { y with dgm := dgm } sender seq directMessage rng

/-- The ratchet of someone who acknowledged our addition, as sent to us. -/
def receiveRatchet (y : DcgkaState ID OP P D Y) (sender : ID)
    (directMessage : Option (DirectMessage ID D)) :
    Outcome (DcgkaError ID OP ρ δ) (DcgkaState ID OP P D Y) :=
  match directMessage with
  | some directMessage =>
    match directMessage.content with
    | .forward ciphertext =>
      if directMessage.recipient ≠ y.myId then
        .err (.notOurDirectMessage y.myId directMessage.recipient)
      else do
        let (y, plaintext) ← decryptFrom checks c codec y sender ciphertext
        let chainSecret ← tryFromBytes plaintext
        return { y with ratchet := y.ratchet.insert sender ⟨chainSecret⟩ }
    | _ => .err (.unexpectedDirectMessageType .forward directMessage.messageType)
  | none => .ok y

def processAddAck (y : DcgkaState ID OP P D Y) (sender : ID) (ack : ID × OP)
    (directMessage : Option (DirectMessage ID D)) :
    Outcome (DcgkaError ID OP ρ δ) (DcgkaState ID OP P D Y × ProcessOutput ID OP D) := do
  let dgm ← (AckedGroupMembership.ack y.dgm sender ack.2).mapErr .dgmOperation
  let y ← receiveRatchet checks c codec { y with dgm := dgm } sender directMessage
  -- we were already a group member when the message was sent, unless additions are concurrent
  let view ← memberView y sender
  if y.myId ∈ view then updateSender c y sender .fromAdd
  else return (y, .default)

def processWelcome (y : DcgkaState ID OP P D Y) (sender : ID) (seq : OP) (history : D)
    (ciphertext : TwoPartyMessage) :
    Outcome (DcgkaError ID OP ρ δ) (DcgkaState ID OP P D Y × ProcessOutput ID OP D) := do
  let dgm ← (AckedGroupMembership.fromWelcome ID OP y.dgm history).mapErr .dgmOperation
  let dgm ← (AckedGroupMembership.add dgm sender y.myId seq).mapErr .dgmOperation
  let (y, plaintext) ← decryptFrom checks c codec { y with dgm := dgm } sender ciphertext
  let chainSecret ← tryFromBytes plaintext
  let y := { y with ratchet := y.ratchet.insert sender ⟨chainSecret⟩ }
  let (y, memberSecret) ← updateRatchet c y sender .fromWelcome
  let y := { y with
    memberSecrets := y.memberSecrets.insert (sender, seq, y.myId) ⟨memberSecret.secret⟩ }
  let (y, senderUpdateSecret) ← updateRatchet c y sender .fromAdd
  let (y, output) ← processAck checks c codec y y.myId (sender, seq) none
  let meUpdateSecret ←
    Outcome.expect "sender update secret from process_ack" output.senderUpdateSecret
  return (y, ⟨some (.ack sender seq), [], some senderUpdateSecret, some meUpdateSecret⟩)

/-- The ratchet of the sender of an "add" message is updated for the added member and for the
sender, by those who were members when it was sent. -/
def updateForAdd (y : DcgkaState ID OP P D Y) (sender : ID) (seq : OP) (added : ID)
    (isMember : Bool) :
    Outcome (DcgkaError ID OP ρ δ) (DcgkaState ID OP P D Y × Option UpdateSecret) :=
  if isMember then do
    let (y, senderMemberSecret) ← updateRatchet c y sender .fromWelcome
    let memberSecrets := y.memberSecrets.insert (sender, seq, added) ⟨senderMemberSecret.secret⟩
    let (y, senderUpdateSecret) ←
      updateRatchet c { y with memberSecrets := memberSecrets } sender .fromAdd
    return (y, some senderUpdateSecret)
  else .ok (y, none)

def processAdd (y : DcgkaState ID OP P D Y) (sender : ID) (seq : OP) (added : ID)
    (directMessage : Option (DirectMessage ID D)) (rng : Rng) :
    Outcome (DcgkaError ID OP ρ δ) (DcgkaState ID OP P D Y × ProcessOutput ID OP D) :=
  if added = y.myId then
    match directMessage with
    | some directMessage =>
      match directMessage.content with
      | .welcome ciphertext history =>
        if directMessage.recipient ≠ y.myId then
          .err (.notOurDirectMessage y.myId directMessage.recipient)
        else processWelcome checks c codec y sender seq history ciphertext
      | _ => .err (.unexpectedDirectMessageType .welcome directMessage.messageType)
    | none => .err (.missingDirectMessage .welcome)
  else do
    let dgm ← (AckedGroupMembership.add y.dgm sender added seq).mapErr .dgmOperation
    let y := { y with dgm := dgm }
    let view ← memberView y sender
    let (y, senderUpdateSecret) ← updateForAdd c y sender seq added (y.myId ∈ view)
    if sender = y.myId then return (y, ⟨none, [], senderUpdateSecret, none⟩)
    else
      match y.ratchet.lookup y.myId with
      | some chainSecret => do
        let (y, ciphertext, _) ←
          encryptTo checks c codec env y added chainSecret.secret.bytes.toList rng
        let (y, output) ← processAddAck checks c codec y y.myId (sender, seq) none
        return (y, ⟨some (.addAck sender seq), [⟨added, .forward ciphertext⟩],
          senderUpdateSecret, output.senderUpdateSecret⟩)
      | none => .err .missingRatchetSecret

def processRemote (y : DcgkaState ID OP P D Y) (input : ProcessInput ID OP D) (rng : Rng) :
    Outcome (DcgkaError ID OP ρ δ) (DcgkaState ID OP P D Y × ProcessOutput ID OP D) :=
  if input.sender = y.myId then .panic "do not process own control messages"
  else
    match input.controlMessage with
    | .create initialMembers =>
      processCreate checks c codec env y input.sender input.seq initialMembers
        input.directMessage rng
    | .ack ackSender ackSeq =>
      processAck checks c codec y input.sender (ackSender, ackSeq) input.directMessage
    | .update => processUpdate checks c codec env y input.sender input.seq input.directMessage rng
    | .remove removed =>
      processRemove checks c codec env y input.sender input.seq removed input.directMessage rng
    | .add added =>
      processAdd checks c codec env y input.sender input.seq added input.directMessage rng
    | .addAck ackSender ackSeq =>
      processAddAck checks c codec y input.sender (ackSender, ackSeq) input.directMessage

def processOwn (y : DcgkaState ID OP P D Y) (seq : OP) (controlMessage : ControlMessage ID OP)
    (rng : Rng) :
    Outcome (DcgkaError ID OP ρ δ) (DcgkaState ID OP P D Y × ProcessOutput ID OP D) :=
  match controlMessage with
  | .create initialMembers =>
    processCreate checks c codec env y y.myId seq initialMembers none rng
  | .update => processUpdate checks c codec env y y.myId seq none rng
  | .remove removed => processRemove checks c codec env y y.myId seq removed none rng
  | .add added => processAdd checks c codec env y y.myId seq added none rng
  | _ => .panic "only call process_local after local create, update, remove or add operations"

def processLocal (y : DcgkaState ID OP P D Y) (seq : OP) (input : OperationOutput ID OP D)
    (rng : Rng) :
    Outcome (DcgkaError ID OP ρ δ) (DcgkaState ID OP P D Y × OperationOutput ID OP D) := do
  let (y, output) ← processOwn checks c codec env y seq input.controlMessage rng
  if output.controlMessage ≠ none then .panic "assertion failed: output.control_message.is_none()"
  else if ¬output.directMessages.isEmpty then
    .panic "assertion failed: output.direct_messages.is_empty()"
  else do
    let senderUpdateSecret ← Outcome.expect
      "called `Option::unwrap()` on a `None` value" output.senderUpdateSecret
    return (y, ⟨input.controlMessage, input.directMessages, some senderUpdateSecret⟩)

/-! ## Operations -/

def create (y : DcgkaState ID OP P D Y) (initialMembers : List ID) (rng : Rng) :
    Outcome (DcgkaError ID OP ρ δ) (DcgkaState ID OP P D Y × OperationOutput ID OP D) := do
  let initialMembers := initialMembers.foldl
    (fun acc id => if id ∈ acc then acc else acc ++ [id]) []
  let initialMembers :=
    if y.myId ∈ initialMembers then initialMembers else initialMembers ++ [y.myId]
  let (y, directMessages, _) ← generateSeed checks c codec env y initialMembers rng
  return (y, ⟨.create initialMembers, directMessages, none⟩)

def update (y : DcgkaState ID OP P D Y) (rng : Rng) :
    Outcome (DcgkaError ID OP ρ δ) (DcgkaState ID OP P D Y × OperationOutput ID OP D) := do
  let view ← memberView y y.myId
  let recipientIds := (env.order.iter view).filter fun member => member ≠ y.myId
  let (y, directMessages, _) ← generateSeed checks c codec env y recipientIds rng
  return (y, ⟨.update, directMessages, none⟩)

def remove (y : DcgkaState ID OP P D Y) (removed : ID) (rng : Rng) :
    Outcome (DcgkaError ID OP ρ δ) (DcgkaState ID OP P D Y × OperationOutput ID OP D) := do
  let view ← memberView y y.myId
  let recipientIds := (env.order.iter view).filter fun member =>
    member ≠ y.myId ∧ member ≠ removed
  let (y, directMessages, _) ← generateSeed checks c codec env y recipientIds rng
  return (y, ⟨.remove removed, directMessages, none⟩)

def add (y : DcgkaState ID OP P D Y) (added : ID) (rng : Rng) :
    Outcome (DcgkaError ID OP ρ δ) (DcgkaState ID OP P D Y × OperationOutput ID OP D) :=
  match y.ratchet.lookup y.myId with
  | some chainSecret => do
    let (y, ciphertext, _) ←
      encryptTo checks c codec env y added chainSecret.secret.bytes.toList rng
    return (y, ⟨.add added, [⟨added, .welcome ciphertext y.dgm⟩], none⟩)
  | none => .err .missingRatchetSecret

end Dcgka

end P2Panda.Encryption.MessageScheme
