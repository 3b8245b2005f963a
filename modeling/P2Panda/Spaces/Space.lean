import P2Panda.Spaces.Group

/-!
# Spaces

An encryption context with a group of actors. A change of a group is applied by a "pointer" message,
which carries the direct messages for the members whose secrets change.
-/

namespace P2Panda.Spaces.Space

open P2Panda.Library Outcome P2Panda.Auth P2Panda.Auth.Group
open P2Panda.Encryption P2Panda.Encryption.DataScheme
open P2Panda.Core (Bytes)

variable {ID OP C φ : Type} [LinearOrder ID] [DecidableEq OP] [Conditions C] [Placeholders ID OP]
variable (platform : Platform ID) (env : Surroundings ID OP C φ) (manager : Manager ID OP C)

/-! ## State -/

def state (id : OP) : Outcome (SpaceError ID OP φ) (SpacesState ID OP C) :=
  match manager.getSpaceState id with
  | none => .err (.unknownSpace id)
  | some spaceY =>
    .ok (.assembleFromStore spaceY (manager.keyManager platform) manager.keyRegistry)

def getOrInitState (spaceId : OP) (groupId : ID) : SpacesState ID OP C :=
  match manager.getSpaceState spaceId with
  | some spaceY => .assembleFromStore spaceY (manager.keyManager platform) manager.keyRegistry
  | none => {
      spaceId := spaceId
      groupId := groupId
      groupsY := .default
      encryptionY := EncryptionGroup.init manager.actorId (manager.keyManager platform)
        manager.keyRegistry .default .new
      removed := ∅ }

/-! ## Changing the members -/

abbrev MemberOperation (ID OP : Type) :=
  DataScheme.Surroundings ID → EncryptionGroupState ID OP → ID → Rng →
    Outcome (EncryptionGroupError ID)
      (EncryptionGroupState ID OP × EncryptionMessage ID OP × Rng)

def changeAll (operation : MemberOperation ID OP) (env : Nat → DataScheme.Surroundings ID) :
    Nat → EncryptionGroupState ID OP → Rng → List ID →
      Outcome (EncryptionGroupError ID)
        (EncryptionGroupState ID OP × List (EncryptionDirectMessage ID))
  | _, y, _, [] => .ok (y, [])
  | n, y, rng, member :: members => do
    let (y, message, rng) ← operation (env n) y member rng
    let (y, directMessages) ← changeAll operation env (n + 1) y rng members
    return (y, GroupMessage.directMessages message ++ directMessages)

/-- Apply a group membership change to the encryption state. For "add" and "remove", only the
difference between current and next secret members is processed. -/
def applySecretMemberChange (env : Nat → DataScheme.Surroundings ID)
    (encryptionY : EncryptionGroupState ID OP) (action : GroupAction ID C)
    (currentMembers nextMembers : List ID) (rng : Rng) :
    Outcome (EncryptionGroupError ID)
      (EncryptionGroupState ID OP × List (EncryptionDirectMessage ID)) :=
  -- make the DGM aware of group members after this change has been processed
  let dcgka := { encryptionY.dcgka with dgm := ⟨nextMembers⟩ }
  let encryptionY := { encryptionY with dcgka := dcgka }
  let addAll := changeAll (fun env y added rng => EncryptionGroup.add platform.checks
    platform.primitives platform.codec env y added rng) env 0 encryptionY rng
  let removeAll := changeAll (fun env y removed rng => EncryptionGroup.remove platform.checks
    platform.primitives platform.codec env y removed rng) env 0 encryptionY rng
  match action with
  | .create _ => do
    let (encryptionY, message, _) ← EncryptionGroup.create platform.checks platform.primitives
      platform.codec (env 0) encryptionY nextMembers rng
    return (encryptionY, GroupMessage.directMessages message)
  | .add _ _ => addAll (addedSecretMembers currentMembers nextMembers)
  | .promote _ _ => addAll (addedSecretMembers currentMembers nextMembers)
  | .remove _ => removeAll (removedSecretMembers currentMembers nextMembers)
  | .demote _ _ => removeAll (removedSecretMembers currentMembers nextMembers)

def changeSecretMembers (y : SpacesState ID OP C) (action : GroupAction ID C)
    (currentMembers nextMembers : List ID) :
    Outcome (SpaceError ID OP φ)
      (EncryptionGroupState ID OP × List (EncryptionDirectMessage ID)) :=
  if currentMembers ≠ nextMembers then
    (applySecretMemberChange platform env.encryption y.encryptionY action currentMembers
      nextMembers env.rng).mapErr .encryptionGroup
  else .ok (y.encryptionY, [])

def generateSpaceEvents {ε : Type} (E : Nat → Runtime ID OP) (me : ID) (y : SpacesState ID OP C)
    (authMessage : AuthMessage ID OP C) (spaceMessage : SpaceMembershipMessage ID OP)
    (previousMembers : List (ID × Access C)) (previousAncestors : List ID) :
    Outcome ε (List (SpaceEvent ID OP C)) := do
  let nextMembers ← y.groupsY.members (E 0) y.groupId
  -- the space is not affected by this auth change
  if previousMembers == nextMembers then return []
  else
    let wasMember := previousMembers.any fun (member, _) => member = me
    let isMember := nextMembers.any fun (member, _) => member = me
    let ejected := wasMember && !isMember
    -- If we were not a member and haven't become one then don't emit any space events.
    if !wasMember && !isMember then return []
    else do
      let spaceEvent ← toSpaceEvent (E 1) y.spaceId y.groupId y.groupsY spaceMessage authMessage
        previousMembers previousAncestors
      return spaceEvent :: if ejected then [.ejected y.spaceId] else []

def addDependency (order : HashOrder OP) (y : SpacesState ID OP C) (id : OP)
    (dependencies : List OP) : SpacesState ID OP C :=
  let orderer := y.encryptionY.orderer.addDependency order id dependencies
  { y with encryptionY := { y.encryptionY with orderer := orderer } }

def processAuthMessage (y : SpacesState ID OP C) (authMessage : AuthMessage ID OP C) :
    Outcome (SpaceError ID OP φ)
      (SpacesState ID OP C × SpacesMessage ID OP C × List (Event ID OP C)) := do
  let currentMembers ← y.groupsY.members (env.auth 0) y.groupId
  let groupsY ← (GroupCrdt.process (env.auth 1) y.groupsY authMessage).mapErr .authGroup
  let nextMembers ← groupsY.members (env.auth 2) y.groupId
  let currentAncestors ← groupsY.ancestors (env.auth 3) y.groupId
  let (encryptionY, directMessages) ← changeSecretMembers platform env y authMessage.action
    (secretMembers currentMembers) (secretMembers nextMembers)
  let y := { y with groupsY := groupsY, encryptionY := encryptionY }
  let dependencies := y.encryptionY.orderer.heads
  let spaceMessage ← (manager.forge env 0 (.spaceMembership y.spaceId y.groupId dependencies
    authMessage.id directMessages)).mapErr .identityManager
  let y := addDependency env.order y spaceMessage.id dependencies
  let membership ← spaceMessage.spaceMembership
  let events ← generateSpaceEvents (fun n => env.auth (n + 4)) manager.actorId y authMessage
    membership currentMembers currentAncestors
  return (y, spaceMessage, events.map .spaces)

/-! ## Receiving -/

def rounds (y : EncryptionGroupState ID OP) : Nat := y.orderer.queue.length + 2

def receive (y : SpacesState ID OP C) (message : EncryptionMessage ID OP) :
    Outcome (SpaceError ID OP φ) (SpacesState ID OP C × List (Event ID OP C)) := do
  let (encryptionY, encryptionOutput) ← (EncryptionGroup.receive platform.checks
    platform.primitives platform.codec (env.encryption 0) (rounds y.encryptionY) y.encryptionY
    message).mapErr .encryptionGroup
  return ({ y with encryptionY := encryptionY },
    encryptionOutputToSpaceEvents y.spaceId encryptionOutput)

def receiveMembership (me : ID) (y : SpacesState ID OP C)
    (spaceMessage : SpaceMembershipMessage ID OP) (authMessage : AuthMessage ID OP C)
    (currentMembers nextMembers : List ID) :
    Outcome (SpaceError ID OP φ) (SpacesState ID OP C × List (Event ID OP C)) :=
  if spaceMessage.directMessages.any fun message => message.recipient = me then do
    let encryptionMessage ← EncryptionMessage.fromMembership spaceMessage me authMessage
      currentMembers nextMembers
    receive platform env y encryptionMessage
  else .ok (y, [])

/-- The auth state after a pointer, which may point at a processed message when several peers
publish pointers to it. -/
def processPointer (y : SpacesState ID OP C) (authMessage : AuthMessage ID OP C) :
    Outcome (SpaceError ID OP φ) (AuthGroupState ID OP C) :=
  if (y.groupsY.operations.lookup authMessage.id).isSome then .ok y.groupsY
  else (GroupCrdt.process (env.auth 2) y.groupsY authMessage).mapErr .authGroup

def removedBy (currentMembers : List (ID × Access C)) (events : List (SpaceEvent ID OP C)) :
    Finset ID :=
  events.foldl (fun removed event =>
    match event with
    | .removed _ _ context _ =>
      removed ∪ ((removedMembers currentMembers context.members).map Prod.fst).toFinset
    | _ => removed) ∅

def handleMembershipMessage (id : OP) (spaceMessage : SpaceMembershipMessage ID OP)
    (authMessage : AuthMessage ID OP C) :
    Outcome (SpaceError ID OP φ) (Option (SpacesState ID OP C × List (Event ID OP C))) :=
  let y := getOrInitState platform manager id spaceMessage.groupId
  -- If we already processed this message return here.
  if y.encryptionY.orderer.hasSeen spaceMessage.id then .ok none
  else do
    let currentMembers ← y.groupsY.members (env.auth 0) y.groupId
    let currentAncestors ← y.groupsY.ancestors (env.auth 1) y.groupId
    let groupsY ← processPointer env y authMessage
    let me := manager.actorId
    let nextMembers ← groupsY.members (env.auth 3) y.groupId
    -- make the dgm aware of the new space members
    let dcgka := { y.encryptionY.dcgka with dgm := ⟨secretMembers nextMembers⟩ }
    let encryptionY := { y.encryptionY with dcgka := dcgka }
    let (y, applicationEvents) ← receiveMembership platform env me
      { y with groupsY := groupsY, encryptionY := encryptionY } spaceMessage authMessage
      (secretMembers currentMembers) (secretMembers nextMembers)
    let y := addDependency env.order y spaceMessage.id spaceMessage.spaceDependencies
    let events ← generateSpaceEvents (fun n => env.auth (n + 4)) me y authMessage spaceMessage
      currentMembers currentAncestors
    let y := { y with removed := y.removed ∪ removedBy currentMembers events }
    return some (y, events.map .spaces ++ applicationEvents)

def handleApplicationMessage (id : OP) (message : ApplicationMessage ID OP) :
    Outcome (SpaceError ID OP φ) (SpacesState ID OP C × List (Event ID OP C)) := do
  let y ← state platform manager id
  -- Check that the publisher of this application message has write access.
  (verifyClaimedWriteAccess (env.auth 0) y.groupsY message.author y.groupId
    message.proof.toFinset).mapErr .unauthorizedWrite
  let (y, events) ← receive platform env y (.fromApplication message)
  return (addDependency env.order y message.id message.spaceDependencies, events)

/-! ## Local operations -/

def publish (id : OP) (plaintext : Bytes) :
    Outcome (SpaceError ID OP φ) (SpacesState ID OP C × SpacesMessage ID OP C × Event ID OP C) := do
  let y ← state platform manager id
  if !y.encryptionY.orderer.isWelcomed then .err (.notWelcomed id)
  else do
    let (encryptionY, encryptionArgs, _) ← (EncryptionGroup.send platform.primitives y.encryptionY
      plaintext env.rng).mapErr .encryptionGroup
    match encryptionArgs with
    | .args (.application dependencies groupSecretId nonce ciphertext) => do
      let proof ← y.groupsY.heads (env.auth 0) [y.groupId]
      let args := .application y.spaceId dependencies ((env.auth 1).ops.iter proof) groupSecretId
        nonce ciphertext
      let message ← (manager.forge env 0 args).mapErr .identityManager
      let y := addDependency env.order { y with encryptionY := encryptionY } message.id
        dependencies
      return (y, message, .application y.spaceId plaintext)
    | .args (.system ..) => .panic "unexpected message type"
    | .forged .. => .panic "here we're only dealing with local operations"

/-- A local change of a member, in the groups state and in the space. -/
def change (env : Nat → Surroundings ID OP C φ) (id : OP) (member : ID)
    (action : GroupMember ID → GroupAction ID C) :
    Outcome (SpaceError ID OP φ) (AuthGroupState ID OP C × SpacesState ID OP C ×
      SpacesMessage ID OP C × SpacesMessage ID OP C × List (Event ID OP C)) := do
  let spaceY ← state platform manager id
  let (groupsY, message, authEvent) ←
    (Group.change (env 0) manager spaceY.groupId member action).mapErr .group
  let authMessage ← message.auth
  let (spaceY, spaceMessage, spaceEvents) ←
    processAuthMessage platform (env 1) manager spaceY authMessage
  return (groupsY, spaceY, message, spaceMessage, authEvent :: spaceEvents)

def add (env : Nat → Surroundings ID OP C φ) (id : OP) (member : ID) (access : Access C) :=
  change platform manager env id member fun member => .add member access

def remove (env : Nat → Surroundings ID OP C φ) (id : OP) (member : ID) :=
  change platform manager env id member fun member => .remove member

def promote (env : Nat → Surroundings ID OP C φ) (id : OP) (member : ID) (access : Access C) :=
  change platform manager env id member fun member => .promote member access

def demote (env : Nat → Surroundings ID OP C φ) (id : OP) (member : ID) (access : Access C) :=
  change platform manager env id member fun member => .demote member access

/-- Publish pointers for operations of the global auth graph, one after the other. -/
def publishPointers (groupsY : AuthGroupState ID OP C) :
    Nat → SpacesState ID OP C → List OP → List OP →
      Outcome (SpaceError ID OP φ) (SpacesState ID OP C × List (SpacesMessage ID OP C))
  | _, y, _, [] => .ok (y, [])
  | n, y, spaceDependencies, id :: ids => do
    let operation ← Outcome.expect "all auth operations exist" (groupsY.operations.lookup id)
    let message ← (manager.forge env n (.spaceMembership y.spaceId y.groupId spaceDependencies
      operation.id [])).mapErr .identityManager
    let y := addDependency env.order y message.id spaceDependencies
    let (y, messages) ← publishPointers groupsY (n + 1) y [message.id] ids
    return (y, message :: messages)

def fromGroup (spaceId : OP) (groupId : ID) (includes : List ID) :
    Outcome (SpaceError ID OP φ) (SpacesState ID OP C × List (SpacesMessage ID OP C)) := do
  let y := getOrInitState platform manager spaceId groupId
  let groupsY := manager.getGroupsState
  let sorted ← groupsY.toposort (env.auth 0) includes
  let (y, messages) ← publishPointers env manager groupsY 0 y [] sorted
  return ({ y with groupsY := groupsY }, messages)

/-- Ourselves with "manage" level as default. -/
def initialMembers (initialMembers : List (ID × Access C)) : List (ID × Access C) :=
  if initialMembers.any fun (member, _) => member = manager.actorId then initialMembers
  else initialMembers ++ [(manager.actorId, .manage)]

def create (env : Nat → Surroundings ID OP C φ) (spaceId : OP)
    (members : List (ID × Access C)) :
    Outcome (SpaceError ID OP φ) (AuthGroupState ID OP C × SpacesState ID OP C ×
      List (SpacesMessage ID OP C) × List (Event ID OP C)) := do
  let members := initialMembers manager members
  let (bytes, _) ← ((env 0).rng.randomArray 32).mapErr .rng
  let groupId := platform.verifyingKey bytes
  let groupsY := manager.getGroupsState
  -- the groups to include in the space history based on initial group members
  let includes := (typedMembers ((env 0).auth 1) groupsY members).filterMap fun (member, _) =>
    member.groupId?
  let (spaceY, spaceHistory) ← fromGroup platform (env 0) manager spaceId groupId includes
  let (groupsY, createGroup, authEvent) ←
    (Group.create (env 1) manager groupsY groupId members).mapErr .group
  let authMessage ← createGroup.auth
  let (spaceY, createSpace, spaceEvents) ←
    processAuthMessage platform (env 2) manager spaceY authMessage
  return (groupsY, spaceY, createGroup :: spaceHistory ++ [createSpace], authEvent :: spaceEvents)

def applyMissing (groupsY : AuthGroupState ID OP C) (env : Nat → Surroundings ID OP C φ) :
    Nat → SpacesState ID OP C → List OP →
      Outcome (SpaceError ID OP φ)
        (SpacesState ID OP C × List (SpacesMessage ID OP C) × List (Event ID OP C))
  | _, y, [] => .ok (y, [], [])
  | n, y, id :: ids =>
    -- This auth message has already been processed by the space.
    if (y.groupsY.operations.lookup id).isSome then applyMissing groupsY env n y ids
    else do
      let operation ← Outcome.expect "called `Option::unwrap()` on a `None` value"
        (groupsY.operations.lookup id)
      let (y, message, events) ← processAuthMessage platform (env n) manager y operation
      let (y, messages, moreEvents) ← applyMissing groupsY env (n + 1) y ids
      return (y, message :: messages, events ++ moreEvents)

def repair (E : Runtime ID OP) (env : Nat → Surroundings ID OP C φ) (id : OP) (groups : List ID) :
    Outcome (SpaceError ID OP φ)
      (SpacesState ID OP C × List (SpacesMessage ID OP C) × List (Event ID OP C)) := do
  let groupsY := manager.getGroupsState
  let spaceY ← state platform manager id
  let sorted ← groupsY.toposort E groups
  applyMissing platform manager groupsY env 0 spaceY sorted

/-- The filter of `removed`. Its calls share one iterator: each takes members off it until it has
met one other than the removed individual. -/
def filterRemoved : List ID → List ID → List ID
  | _, [] => []
  | members, removed :: rest =>
    match members.dropWhile fun member => member = removed with
    | [] => filterRemoved [] rest
    | _ :: members => removed :: filterRemoved members rest

def removed (E : Runtime ID OP) (order : HashOrder ID) (id : OP) :
    Outcome (SpaceError ID OP φ) (List ID) := do
  let y ← state platform manager id
  let members ← y.groupsY.members E y.groupId
  return filterRemoved (members.map Prod.fst) (order.iter y.removed)

/-! ## Events of a space are always computed -/

omit [Placeholders ID OP] in
theorem isOk_generateSpaceEvents {ε : Type} {y : SpacesState ID OP C} (h : y.groupsY.Resolved)
    (E : Nat → Runtime ID OP) (me : ID) (authMessage : AuthMessage ID OP C)
    (spaceMessage : SpaceMembershipMessage ID OP) (previousMembers : List (ID × Access C))
    (previousAncestors : List ID) :
    (generateSpaceEvents E me y authMessage spaceMessage previousMembers previousAncestors :
      Outcome ε _).IsOk := by
  obtain ⟨nextMembers, hnext⟩ := h.isOk_members (E 0) y.groupId
  rw [generateSpaceEvents, hnext, ok_bind]
  split
  · exact isOk_ok _
  · dsimp only
    split
    · exact isOk_ok _
    · obtain ⟨event, hev⟩ := isOk_toSpaceEvent h (E 1) y.spaceId y.groupId
        spaceMessage authMessage previousMembers previousAncestors
      rw [hev]
      exact isOk_ok _

end P2Panda.Spaces.Space
