import P2Panda.Spaces.Space

/-!
# Manager

Messages are routed to the processor for members, groups or spaces. A call returns the states it has
changed; persisting them is left to the caller.
-/

namespace P2Panda.Spaces.Manager

open P2Panda.Library P2Panda.Auth P2Panda.Auth.Group
open P2Panda.Encryption P2Panda.Encryption.DataScheme

variable {ID OP C φ : Type} [LinearOrder ID] [DecidableEq OP] [Conditions C] [Placeholders ID OP]

structure Output (ID OP C : Type) where
  keyRegistry : Option (KeyRegistryState ID)
  groups : Option (AuthGroupState ID OP C)
  space : Option (SpacesState ID OP C)
  events : List (Event ID OP C)

def Output.nothing : Output ID OP C := ⟨none, none, none, []⟩

variable (platform : Platform ID) (env : Surroundings ID OP C φ) (manager : Manager ID OP C)

def getAuthMessage (message : SpaceMembershipMessage ID OP) :
    Outcome (ManagerError ID OP φ) (AuthMessage ID OP C) :=
  match manager.store.messages.val.lookup message.authMessageId with
  | none => .err (.missingAuthMessage message.id message.authMessageId)
  | some authMessage =>
    match authMessage.args with
    | .group .. => authMessage.auth
    | _ => .err (.incorrectMessageVariant message.authMessageId)

def handleSpaceMembershipMessage (spaceId : OP) (message : SpaceMembershipMessage ID OP) :
    Outcome (ManagerError ID OP φ) (Option (SpacesState ID OP C × List (Event ID OP C))) := do
  let authMessage ← manager.getAuthMessage message
  -- If this is not a "create" message we should have learned about the space before.
  if (manager.getSpaceState spaceId).isNone && !authMessage.action.isCreate then
    .err (.unexpectedMessage message.id)
  else
    (Space.handleMembershipMessage platform env manager spaceId message authMessage).mapErr .space

def process (message : SpacesMessage ID OP C) :
    Outcome (ManagerError ID OP φ) (Output ID OP C) :=
  match message.args with
  | .member member => do
    let (keyRegistry, event) ← (manager.processMember platform env member).mapErr .identityManager
    return { keyRegistry := some keyRegistry, groups := none, space := none, events := [event] }
  | .group .. => do
    let authMessage ← message.auth
    match ← (Group.process env manager authMessage).mapErr .group with
    | some (groupsY, event) =>
      return { keyRegistry := none, groups := some groupsY, space := none, events := [event] }
    | none => return .nothing
  | .spaceMembership spaceId .. => do
    let membership ← message.spaceMembership
    match ← handleSpaceMembershipMessage platform env manager spaceId membership with
    | some (spaceY, events) =>
      return { keyRegistry := none, groups := none, space := some spaceY, events := events }
    | none => return .nothing
  | .spaceUpdate .. => .panic "not implemented"
  | .application spaceId .. =>
    if (manager.getSpaceState spaceId).isNone then .err (.unexpectedMessage message.id)
    else do
      let application ← message.application
      let (spaceY, events) ←
        (Space.handleApplicationMessage platform env manager spaceId application).mapErr .space
      return { keyRegistry := none, groups := none, space := some spaceY, events := events }

omit [LinearOrder ID] [Conditions C] [Placeholders ID OP] in
def persist (output : Output ID OP C) : Manager ID OP C :=
  { manager with store := { manager.store with
      keyRegistry := output.keyRegistry.or manager.store.keyRegistry
      groups := output.groups.or manager.store.groups
      spaces := match output.space with
        | some spaceY => manager.store.spaces.insert spaceY.spaceId spaceY.toStore
        | none => manager.store.spaces } }

omit [LinearOrder ID] [Conditions C] [Placeholders ID OP] in
/-- The persisted spaces are those from before, but for the one that a call returned. -/
theorem getSpaceState_persist (output : Output ID OP C) (id : OP) :
    (manager.persist output).getSpaceState id =
      output.space.elim (manager.getSpaceState id) fun spaceY =>
        if id = spaceY.spaceId then some spaceY.toStore else manager.getSpaceState id := by
  unfold getSpaceState persist
  cases output.space with
  | none => rfl
  | some spaceY => exact HashMap.lookup_insert_ite ..

/-- The manager whose store the call leaves behind. The event of the member, or an error, is
dropped. -/
def registerMember (member : Member ID) :
    Outcome (ManagerError ID OP φ) Unit × Manager ID OP C :=
  match manager.processMember platform env member with
  | .ok (keyRegistry, _) =>
    (.ok (), { manager with store := { manager.store with keyRegistry := some keyRegistry } })
  | .err _ => (.ok (), manager)
  | .panic m => (.panic m, manager)

def createGroup (initialMembers : List (ID × Access C)) :
    Outcome (ManagerError ID OP φ)
      (AuthGroupState ID OP C × ID × SpacesMessage ID OP C × Event ID OP C) := do
  let (bytes, _) ← (env.rng.randomArray 32).mapErr .rng
  let groupId := platform.verifyingKey bytes
  let (groupsY, message, event) ←
    (Group.create env manager manager.getGroupsState groupId initialMembers).mapErr .group
  return (groupsY, groupId, message, event)

def repairSpace (E : Nat → Runtime ID OP) (env : Nat → Surroundings ID OP C φ) (spaceId : OP)
    (groups : List ID) :
    Outcome (ManagerError ID OP φ)
      (SpacesState ID OP C × List (SpacesMessage ID OP C) × List (Event ID OP C)) :=
  if (manager.getSpaceState spaceId).isNone then .err (.spaceNotFound spaceId)
  else do
    let spaceY ← (Space.state platform manager spaceId).mapErr .space
    let members ← spaceY.groupsY.members (E 0) spaceY.groupId
    if !members.any fun (id, access) =>
        id = manager.actorId && (access.partialCmp .read).any (· ≠ .lt) then
      return (spaceY, [], [])
    else (Space.repair platform manager (E 1) env spaceId groups).mapErr .space

end P2Panda.Spaces.Manager
