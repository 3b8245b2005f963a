import P2Panda.Encryption.DataScheme.Dcgka

/-!
# Groups with data encryption

Control messages go through the key agreement, which yields the secrets of the group; an ordering
decides when a message is ready. Messages from before we have joined are kept until we do.
-/

namespace P2Panda.Encryption.DataScheme

open P2Panda.Library P2Panda.Core

inductive GroupMessageContent (ID : Type) where
  | control (message : ControlMessage ID)
  | application (groupSecretId : GroupSecretId) (nonce : XAeadNonce) (ciphertext : Bytes)
  deriving DecidableEq

class GroupMessage (M : Type) (ID OP D : outParam Type) where
  id : M → OP
  sender : M → ID
  content : M → Outcome Empty (GroupMessageContent ID)
  directMessages : M → List (DirectMessage ID D)

/-- Which message comes next, and which one is ready to be processed. -/
class MessageOrdering (O : Type) (ID OP D M ω : outParam Type) where
  nextControlMessage : O → ControlMessage ID → List (DirectMessage ID D) → Outcome ω (O × M)
  nextApplicationMessage : O → GroupSecretId → XAeadNonce → Bytes → Outcome ω (O × M)
  queue : O → M → Outcome ω O
  setWelcome : O → M → Outcome ω O
  nextReadyMessage : O → Outcome ω (O × Option M)

structure GroupState (ID P D Y O : Type) where
  myId : ID
  dcgka : DcgkaState ID P D Y
  orderer : O
  secrets : SecretBundleState
  isWelcomed : Bool

/-- Processing never yields new control messages. -/
inductive GroupOutput where
  | application (plaintext : Bytes)
  | removed
  deriving DecidableEq

inductive GroupError (ID ρ δ ω : Type) where
  | rng (error : RngError)
  | dcgka (error : DcgkaError ID ρ δ)
  | orderer (error : ω)
  | xAead (error : XAeadError)
  | groupSecret (error : GroupSecretError)
  | groupAlreadyEstablished
  | groupNotYetEstablished
  | notAddOurselves
  | noGroupSecretAvailable
  | unknownGroupSecret (id : GroupSecretId)

def encryptData (c : DataPrimitives) (plaintext : Bytes) (groupSecret : GroupSecret)
    (nonce : XAeadNonce) : Outcome XAeadError Bytes :=
  match c.xAeadEncrypt groupSecret.secret.bytes plaintext nonce [] with
  | some ciphertext => .ok ciphertext
  | none => .err .encrypt

def decryptData (c : DataPrimitives) (ciphertext : Bytes) (groupSecret : GroupSecret)
    (nonce : XAeadNonce) : Outcome XAeadError Bytes :=
  match c.xAeadDecrypt groupSecret.secret.bytes ciphertext nonce [] with
  | some plaintext => .ok plaintext
  | none => .err .decrypt

namespace EncryptionGroup

variable {ID OP P D Y O M ρ δ ε ω : Type} [DecidableEq ID] [PreKeyRegistry P ID ρ]
  [GroupMembership D ID OP δ] [PreKeyManager Y ε] [GroupMessage M ID OP D]
  [MessageOrdering O ID OP D M ω]
variable (checks : Bool) (c : DataPrimitives) (codec : SecretCodec) (env : Surroundings ID)

open GroupMessage (sender directMessages)
open MessageOrdering

def content (message : M) : Outcome (GroupError ID ρ δ ω) (GroupMessageContent ID) :=
  (GroupMessage.content message).mapErr Empty.elim

def init (myId : ID) (myKeys : Y) (pki : P) (dgm : D) (orderer : O) : GroupState ID P D Y O :=
  ⟨myId, Dcgka.init myId myKeys pki dgm, orderer, SecretBundle.init, false⟩

variable (OP) in
def members (y : GroupState ID P D Y O) : Outcome (GroupError ID ρ δ ω) (Finset ID) :=
  (Dcgka.members OP y.dcgka).mapErr .dcgka

def insertSecret (y : GroupState ID P D Y O) (groupSecret : Option GroupSecret) :
    GroupState ID P D Y O :=
  match groupSecret with
  | some groupSecret =>
    { y with secrets := SecretBundle.insert c env.secrets y.secrets groupSecret }
  | none => y

def processLocal (y : GroupState ID P D Y O) (output : OperationOutput ID D)
    (groupSecret : Option GroupSecret) :
    Outcome (GroupError ID ρ δ ω) (GroupState ID P D Y O × M) := do
  let (orderer, message) ←
    (nextControlMessage y.orderer output.controlMessage output.directMessages).mapErr .orderer
  let (dcgka, _) ← (Dcgka.process checks c codec env y.dcgka
    ⟨GroupMessage.id message, sender message, output.controlMessage, none⟩).mapErr .dcgka
  return (insertSecret c env { y with orderer := orderer, dcgka := dcgka } groupSecret, message)

def create (y : GroupState ID P D Y O) (initialMembers : List ID) (rng : Rng) :
    Outcome (GroupError ID ρ δ ω) (GroupState ID P D Y O × M × Rng) :=
  if y.isWelcomed then .err .groupAlreadyEstablished
  else do
    let (groupSecret, rng) ←
      (SecretBundle.generate checks env.now y.secrets rng).mapErr .groupSecret
    let (dcgka, pre, rng) ←
      (Dcgka.create checks c codec env y.dcgka initialMembers groupSecret rng).mapErr .dcgka
    let (y, message) ←
      processLocal checks c codec env { y with dcgka := dcgka } pre (some groupSecret)
    -- set our own "create" as the "welcome" message
    let orderer ← (setWelcome y.orderer message).mapErr .orderer
    return ({ y with orderer := orderer, isWelcomed := true }, message, rng)

def add (y : GroupState ID P D Y O) (added : ID) (rng : Rng) :
    Outcome (GroupError ID ρ δ ω) (GroupState ID P D Y O × M × Rng) :=
  if !y.isWelcomed then .err .groupNotYetEstablished
  else if y.myId = added then .err .notAddOurselves
  else do
    let (dcgka, pre, rng) ←
      (Dcgka.add checks c codec env y.dcgka added y.secrets rng).mapErr .dcgka
    let (y, message) ← processLocal checks c codec env { y with dcgka := dcgka } pre none
    return (y, message, rng)

def remove (y : GroupState ID P D Y O) (removed : ID) (rng : Rng) :
    Outcome (GroupError ID ρ δ ω) (GroupState ID P D Y O × M × Rng) :=
  if !y.isWelcomed then .err .groupNotYetEstablished
  else do
    let (groupSecret, rng) ←
      (SecretBundle.generate checks env.now y.secrets rng).mapErr .groupSecret
    let (dcgka, pre, rng) ←
      (Dcgka.remove OP checks c codec env y.dcgka removed groupSecret rng).mapErr .dcgka
    let (y, message) ←
      processLocal checks c codec env { y with dcgka := dcgka } pre (some groupSecret)
    return (y, message, rng)

def update (y : GroupState ID P D Y O) (rng : Rng) :
    Outcome (GroupError ID ρ δ ω) (GroupState ID P D Y O × M × Rng) :=
  if !y.isWelcomed then .err .groupNotYetEstablished
  else do
    let (groupSecret, rng) ←
      (SecretBundle.generate checks env.now y.secrets rng).mapErr .groupSecret
    let (dcgka, pre, rng) ←
      (Dcgka.update OP checks c codec env y.dcgka groupSecret rng).mapErr .dcgka
    let (y, message) ←
      processLocal checks c codec env { y with dcgka := dcgka } pre (some groupSecret)
    return (y, message, rng)

def send (y : GroupState ID P D Y O) (plaintext : Bytes) (rng : Rng) :
    Outcome (GroupError ID ρ δ ω) (GroupState ID P D Y O × M × Rng) :=
  if !y.isWelcomed then .err .groupNotYetEstablished
  else
    match y.secrets.latest with
    | none => .err .noGroupSecretAvailable
    | some groupSecret => do
      let (nonce, rng) ← (rng.randomArray 24).mapErr .rng
      let ciphertext ← (encryptData c plaintext groupSecret nonce).mapErr .xAead
      let (orderer, message) ←
        (nextApplicationMessage y.orderer (groupSecret.id c) nonce ciphertext).mapErr .orderer
      return ({ y with orderer := orderer }, message, rng)

def decrypt (y : GroupState ID P D Y O) (nonce : XAeadNonce) (groupSecretId : GroupSecretId)
    (ciphertext : Bytes) : Outcome (GroupError ID ρ δ ω) Bytes :=
  match y.secrets.get groupSecretId with
  | none => .err (.unknownGroupSecret groupSecretId)
  | some groupSecret => (decryptData c ciphertext groupSecret nonce).mapErr .xAead

def learn (secrets : SecretBundleState) : GroupSecretOutput → SecretBundleState
  | .secret groupSecret => SecretBundle.insert c env.secrets secrets groupSecret
  | .bundle bundle => SecretBundle.extend env.secrets secrets bundle
  | .none => secrets

def processRemote (y : GroupState ID P D Y O) (input : ProcessInput ID OP D) :
    Outcome (GroupError ID ρ δ ω) (GroupState ID P D Y O) := do
  let (dcgka, output) ← (Dcgka.process checks c codec env y.dcgka input).mapErr .dcgka
  return { y with dcgka := dcgka, secrets := learn c env y.secrets output }

def processInput (y : GroupState ID P D Y O) (message : M) (controlMessage : ControlMessage ID) :
    ProcessInput ID OP D where
  seq := GroupMessage.id message
  sender := sender message
  controlMessage := controlMessage
  directMessage := (directMessages message).find? fun dm => dm.recipient = y.myId

def processReady (y : GroupState ID P D Y O) (message : M) :
    Outcome (GroupError ID ρ δ ω) (GroupState ID P D Y O × Option GroupOutput) := do
  match ← content message with
  | .control controlMessage => do
    let y ← processRemote checks c codec env y (processInput y message controlMessage)
    let weAreMembers := decide (y.myId ∈ (← members OP y))
    -- check if processing this message added us to the group or removed us from it
    let isWelcomed := y.isWelcomed || weAreMembers
    let output := if isWelcomed && !weAreMembers then some .removed else none
    return ({ y with isWelcomed := isWelcomed }, output)
  | .application groupSecretId nonce ciphertext => do
    let plaintext ← decrypt c y nonce groupSecretId ciphertext
    return (y, some (.application plaintext))

def processAll : GroupState ID P D Y O → List M →
    Outcome (GroupError ID ρ δ ω) (GroupState ID P D Y O × List GroupOutput)
  | y, [] => .ok (y, [])
  | y, message :: messages => do
    let (y, output) ← processReady checks c codec env y message
    let (y, outputs) ← processAll y messages
    return (y, output.toList ++ outputs)

/-- The messages which are ready, control messages apart from application messages. -/
def collectReady : Nat → O → List M → List M →
    Outcome (GroupError ID ρ δ ω) (O × List M × List M)
  | 0, _, _, _ => .panic "the loop does not end"
  | fuel + 1, orderer, controlMessages, applicationMessages => do
    let (orderer, result) ← (nextReadyMessage orderer).mapErr .orderer
    match result with
    | none => return (orderer, controlMessages, applicationMessages)
    | some message =>
      match ← content message with
      | .control _ =>
        collectReady fuel orderer (controlMessages ++ [message]) applicationMessages
      | .application .. =>
        collectReady fuel orderer controlMessages (applicationMessages ++ [message])

/-- Process what is ready: all control messages first, then all application messages. -/
def processQueue (fuel : Nat) (y : GroupState ID P D Y O) :
    Outcome (GroupError ID ρ δ ω) (GroupState ID P D Y O × List GroupOutput) := do
  let (orderer, controlMessages, applicationMessages) ← collectReady fuel y.orderer [] []
  processAll checks c codec env { y with orderer := orderer }
    (controlMessages ++ applicationMessages)

/-- A "create" or "add" message for us, with which we can join. -/
def isCreateOrWelcome (y : GroupState ID P D Y O) : GroupMessageContent ID → Bool
  | .control (.create initialMembers) => decide (y.myId ∈ initialMembers)
  | .control (.add added) => !y.isWelcomed && decide (added = y.myId)
  | _ => false

def isCreate : GroupMessageContent ID → Bool
  | .control (.create _) => true
  | _ => false

def receive (fuel : Nat) (y : GroupState ID P D Y O) (message : M) :
    Outcome (GroupError ID ρ δ ω) (GroupState ID P D Y O × List GroupOutput) := do
  let messageContent ← content message
  if isCreate messageContent && y.isWelcomed then .err .groupAlreadyEstablished
  else do
    let orderer ← (queue y.orderer message).mapErr .orderer
    let y := { y with orderer := orderer }
    if y.isWelcomed then processQueue checks c codec env fuel y
    else if isCreateOrWelcome y messageContent then do
      -- we can join the group now
      let orderer ← (setWelcome y.orderer message).mapErr .orderer
      processQueue checks c codec env fuel { y with orderer := orderer }
    else
      -- we haven't joined yet and keep the message for later
      return (y, [])

variable {checks c codec env}

omit [DecidableEq ID] in
theorem contains_learn {secrets : SecretBundleState} {output : GroupSecretOutput}
    {id : GroupSecretId} : (learn c env secrets output).contains id = true ↔
      secrets.contains id = true ∨ output.Carries c id := by
  cases output with
  | none => simp [learn, GroupSecretOutput.Carries]
  | secret groupSecret =>
    show ((secrets.secrets.insert _ _).lookup id).isSome = true ↔ _
    rw [HashMap.lookup_insert_ite]
    by_cases h : id = groupSecret.id c
    · simp [h, GroupSecretOutput.Carries]
    · simp [h, GroupSecretOutput.Carries, Ne.symm h, SecretBundleState.contains]
  | bundle bundle =>
    show ((secrets.secrets.extend bundle.secrets).lookup id).isSome = true ↔ _
    rw [HashMap.lookup_extend]
    simp only [GroupSecretOutput.Carries, SecretBundleState.contains]
    cases bundle.secrets.lookup id <;> simp

end EncryptionGroup

end P2Panda.Encryption.DataScheme
