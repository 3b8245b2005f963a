import P2Panda.Spaces.State

/-!
# Groups of a manager

Groups live in the groups state which is shared by all spaces.
-/

namespace P2Panda.Spaces.Group

open P2Panda.Library P2Panda.Auth P2Panda.Auth.Group

variable {ID OP C φ : Type} [LinearOrder ID] [DecidableEq OP] [Conditions C]
variable (env : Surroundings ID OP C φ) (manager : Manager ID OP C)

def process (authMessage : AuthMessage ID OP C) :
    Outcome (GroupError ID OP φ) (Option (AuthGroupState ID OP C × Event ID OP C)) :=
  let groupsY := manager.getGroupsState
  -- If we already processed this auth message then return now.
  if (groupsY.operations.lookup authMessage.id).isSome then .ok none
  else do
    let previousAncestors ← groupsY.ancestors (env.auth 0) authMessage.groupId
    let groupsY ← (GroupCrdt.process (env.auth 1) groupsY authMessage).mapErr .authGroup
    let event ← toGroupsEvent (env.auth 2) groupsY authMessage previousAncestors
    return some (groupsY, event)

def processLocalControl (y : AuthGroupState ID OP C) (groupId : ID) (action : GroupAction ID C) :
    Outcome (GroupError ID OP φ)
      (AuthGroupState ID OP C × SpacesMessage ID OP C × Event ID OP C) := do
  let dependencies ← GroupCrdt.heads (env.auth 0) y groupId action
  let message ← (manager.forge env 0 (.group groupId action dependencies)).mapErr .identityManager
  let authMessage ← message.auth
  let previousAncestors ← y.ancestors (env.auth 1) authMessage.groupId
  let y ← (GroupCrdt.process (env.auth 2) y authMessage).mapErr .authGroup
  let event ← toGroupsEvent (env.auth 3) y authMessage previousAncestors
  return (y, message, event)

def create (y : AuthGroupState ID OP C) (groupId : ID) (initialMembers : List (ID × Access C)) :
    Outcome (GroupError ID OP φ)
      (AuthGroupState ID OP C × SpacesMessage ID OP C × Event ID OP C) :=
  processLocalControl env manager y groupId (.create (typedMembers (env.auth 4) y initialMembers))

def change (groupId member : ID) (action : GroupMember ID → GroupAction ID C) :
    Outcome (GroupError ID OP φ)
      (AuthGroupState ID OP C × SpacesMessage ID OP C × Event ID OP C) :=
  let y := manager.getGroupsState
  processLocalControl env manager y groupId (action (typedMember (env.auth 4) y member))

def add (groupId member : ID) (access : Access C) :=
  change env manager groupId member fun member => .add member access

def remove (groupId member : ID) :=
  change env manager groupId member fun member => .remove member

def promote (groupId member : ID) (access : Access C) :=
  change env manager groupId member fun member => .promote member access

def demote (groupId member : ID) (access : Access C) :=
  change env manager groupId member fun member => .demote member access

end P2Panda.Spaces.Group
