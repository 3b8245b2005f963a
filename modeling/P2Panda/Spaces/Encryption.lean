import P2Panda.Spaces.Utils

/-!
# Encryption messages of a space

Encryption messages are rebuilt from space messages and the auth messages they point at. The orderer
keeps them until the local actor has been welcomed.
-/

namespace P2Panda.Spaces

open P2Panda.Library P2Panda.Auth.Group
open P2Panda.Encryption.DataScheme
open P2Panda.Core (Bytes)

variable {ID OP C : Type}

inductive EncryptionArgs (ID OP : Type) where
  | system (dependencies : List OP) (controlMessage : ControlMessage ID)
      (directMessages : List (EncryptionDirectMessage ID))
  | application (dependencies : List OP) (groupSecretId : GroupSecretId) (nonce : XAeadNonce)
      (ciphertext : Bytes)
  deriving DecidableEq

inductive EncryptionMessage (ID OP : Type) where
  | args (args : EncryptionArgs ID OP)
  | forged (author : ID) (operationId : OP) (args : EncryptionArgs ID OP)
  deriving DecidableEq

/-- The sender and the id of a message which has not been forged yet. -/
class Placeholders (ID OP : Type) where
  verifyingKey : ID
  hash : OP

namespace EncryptionMessage

def fromApplication (spaceMessage : ApplicationMessage ID OP) : EncryptionMessage ID OP :=
  .forged spaceMessage.author spaceMessage.id (.application spaceMessage.spaceDependencies
    spaceMessage.groupSecretId spaceMessage.nonce spaceMessage.ciphertext)

/-- The control message for a change of the auth state. If we were added or removed, it has our own
actor id. -/
def controlMessage [LinearOrder ID] (myId : ID) (action : GroupAction ID C)
    (hasMyDirectMessage : Bool) (currentMembers nextMembers : List ID) : ControlMessage ID :=
  let removed (member : GroupMember ID) : ControlMessage ID :=
    if (removedSecretMembers currentMembers nextMembers).contains myId then .remove myId
    else .remove member.id
  let added (member : GroupMember ID) : ControlMessage ID :=
    if hasMyDirectMessage then .add myId else .add member.id
  match action with
  | .create _ => .create nextMembers
  | .add member _ => added member
  | .promote member _ => added member
  | .remove member => removed member
  | .demote member _ => removed member

variable {ε : Type} [LinearOrder ID] [DecidableEq OP]

def fromMembership (spaceMessage : SpaceMembershipMessage ID OP) (myId : ID)
    (authMessage : AuthMessage ID OP C) (currentMembers nextMembers : List ID) :
    Outcome ε (EncryptionMessage ID OP) :=
  if authMessage.id ≠ spaceMessage.authMessageId then .panic "assertion `left == right` failed"
  else
    let hasMyDirectMessage := spaceMessage.directMessages.any fun message =>
      message.recipient = myId
    let controlMessage :=
      controlMessage myId authMessage.action hasMyDirectMessage currentMembers nextMembers
    .ok (.forged spaceMessage.author spaceMessage.id (.system spaceMessage.spaceDependencies
      controlMessage spaceMessage.directMessages))

end EncryptionMessage

instance [Placeholders ID OP] :
    GroupMessage (EncryptionMessage ID OP) ID OP (EncryptionMembershipState ID) where
  id
    | .args _ => Placeholders.hash ID
    | .forged _ operationId _ => operationId
  sender
    | .args _ => Placeholders.verifyingKey OP
    | .forged author _ _ => author
  content
    -- nothing of this will ever be called where we're just preparing the arguments
    | .args _ => .panic "internal error: entered unreachable code"
    | .forged _ _ (.system _ controlMessage _) => .ok (.control controlMessage)
    | .forged _ _ (.application _ groupSecretId nonce ciphertext) =>
      .ok (.application groupSecretId nonce ciphertext)
  directMessages
    | .args (.system _ _ directMessages) => directMessages
    | .forged _ _ (.system _ _ directMessages) => directMessages
    | _ => []

structure EncryptionOrdererState (ID OP : Type) where
  heads : List OP
  graph : DiGraphMap OP
  queue : List OP
  messages : HashMap OP (EncryptionMessage ID OP)
  welcomeMessage : Option (EncryptionMessage ID OP)

namespace EncryptionOrdererState

def new : EncryptionOrdererState ID OP := ⟨[], .empty, [], ∅, none⟩

variable [DecidableEq OP]

/-- Add dependencies to the operation graph. The order of the heads is up to the graph library. -/
def addDependency (order : HashOrder OP) (y : EncryptionOrdererState ID OP) (id : OP)
    (dependencies : List OP) : EncryptionOrdererState ID OP :=
  if id ∈ y.graph.nodes then y
  else
    let graph := dependencies.foldl (fun graph dependency => graph.addEdge dependency id)
      (y.graph.addNode id)
    { y with graph := graph, heads := order.iter graph.externals }

def isWelcomed (y : EncryptionOrdererState ID OP) : Bool := y.welcomeMessage.isSome

def hasSeen (y : EncryptionOrdererState ID OP) (id : OP) : Bool := decide (id ∈ y.graph.nodes)

theorem mem_nodes_foldl_addEdge (g : DiGraphMap OP) (dependencies : List OP) (id : OP) {x : OP}
    (hx : x ∈ g.nodes) :
    x ∈ (dependencies.foldl (fun graph dependency => graph.addEdge dependency id) g).nodes := by
  induction dependencies generalizing g with
  | nil => exact hx
  | cons dependency dependencies ih =>
    apply ih
    simp [hx]

theorem hasSeen_addDependency (order : HashOrder OP) (y : EncryptionOrdererState ID OP) (id : OP)
    (dependencies : List OP) : (y.addDependency order id dependencies).hasSeen id = true := by
  unfold addDependency
  split
  · rename_i hmem
    exact decide_eq_true hmem
  · apply decide_eq_true
    apply mem_nodes_foldl_addEdge
    simp

variable [Placeholders ID OP]

instance : MessageOrdering (EncryptionOrdererState ID OP) ID OP (EncryptionMembershipState ID)
    (EncryptionMessage ID OP) Empty where
  nextControlMessage y controlMessage directMessages :=
    .ok (y, .args (.system y.heads controlMessage directMessages))
  nextApplicationMessage y groupSecretId nonce ciphertext :=
    .ok (y, .args (.application y.heads groupSecretId nonce ciphertext))
  queue y message :=
    let id := GroupMessage.id message
    .ok { y with messages := y.messages.insert id message, queue := y.queue ++ [id] }
  setWelcome y message := .ok { y with welcomeMessage := some message }
  nextReadyMessage y :=
    -- We have not joined the group yet, don't process any messages.
    if y.welcomeMessage.isNone then .ok (y, none)
    else
      match y.queue with
      | [] => .ok (y, none)
      | id :: queue => do
        let message ← Outcome.expect "ids map consistently to messages" (y.messages.lookup id)
        return ({ y with queue := queue }, some message)

end EncryptionOrdererState

end P2Panda.Spaces
