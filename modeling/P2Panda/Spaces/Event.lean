import P2Panda.Spaces.Encryption

/-!
# Events

Events carry the members of the affected group or space after the change.
-/

namespace P2Panda.Spaces

open P2Panda.Library Outcome P2Panda.Auth P2Panda.Auth.Group
open P2Panda.Encryption.DataScheme
open P2Panda.Core (Bytes)

structure GroupActor (ID : Type) where
  id : ID
  isGroup : Bool
  deriving DecidableEq

namespace GroupActor

variable {ID : Type}

def fromGroupMember : GroupMember ID → GroupActor ID
  | .individual id => ⟨id, false⟩
  | .group id => ⟨id, true⟩

/-- The derived order: by id, and individuals first. -/
def le [LinearOrder ID] (a b : GroupActor ID) : Prop :=
  a.id < b.id ∨ (a.id = b.id ∧ a.isGroup ≤ b.isGroup)

instance [LinearOrder ID] : DecidableRel (le : GroupActor ID → GroupActor ID → Prop) :=
  fun _ _ => inferInstanceAs (Decidable (_ ∨ _))

end GroupActor

structure GroupContext (ID C : Type) where
  author : ID
  actors : List (GroupActor ID × Access C)
  members : List (ID × Access C)
  ancestors : List ID
  effectedGroupMembers : HashMap ID (List (ID × Access C))
  effectedGroupActors : HashMap ID (List (GroupActor ID × Access C))

structure SpaceContext (ID C : Type) where
  author : ID
  groupId : ID
  members : List (ID × Access C)
  actors : List (GroupActor ID × Access C)

inductive GroupEvent (ID C : Type) where
  | created (groupId : ID) (initialMembers : List (GroupActor ID × Access C))
      (context : GroupContext ID C)
  | added (groupId : ID) (added : GroupActor ID) (access : Access C) (context : GroupContext ID C)
  | removed (groupId : ID) (removed : GroupActor ID) (context : GroupContext ID C)
  | promoted (groupId : ID) (promoted : GroupActor ID) (access : Access C)
      (context : GroupContext ID C)
  | demoted (groupId : ID) (demoted : GroupActor ID) (access : Access C)
      (context : GroupContext ID C)

inductive SpaceEvent (ID OP C : Type) where
  | created (spaceId : OP) (initialMembers : List (ID × Access C)) (context : SpaceContext ID C)
      (groupsContext : GroupContext ID C)
  | added (spaceId : OP) (added : List (ID × Access C)) (context : SpaceContext ID C)
      (groupsContext : GroupContext ID C)
  | removed (spaceId : OP) (removed : List (ID × Access C)) (context : SpaceContext ID C)
      (groupsContext : GroupContext ID C)
  | promoted (spaceId : OP) (promoted : List (ID × Access C)) (context : SpaceContext ID C)
      (groupsContext : GroupContext ID C)
  | demoted (spaceId : OP) (demoted : List (ID × Access C)) (context : SpaceContext ID C)
      (groupsContext : GroupContext ID C)
  | ejected (spaceId : OP)

inductive Event (ID OP C : Type) where
  | member (member : Member ID)
  | groups (event : GroupEvent ID C)
  | application (spaceId : OP) (data : Bytes)
  | spaces (event : SpaceEvent ID OP C)

variable {ID OP C ε : Type}

def encryptionOutputToSpaceEvents (spaceId : OP) (encryptionOutput : List GroupOutput) :
    List (Event ID OP C) :=
  encryptionOutput.filterMap fun
    | .application plaintext => some (.application spaceId plaintext)
    | .removed => none

variable [LinearOrder ID] [DecidableEq OP] [Conditions C]

def groupActors (E : Runtime ID OP) (authY : GroupCrdtInnerState ID OP C) (groupId : ID) :
    Outcome ε (List (GroupActor ID × Access C)) := do
  let members ← authY.rootMembers E groupId
  return members.map fun (member, access) => (.fromGroupMember member, access)

def forGroups {V : Type} (groups : List ID) (find : ID → Outcome ε V) :
    Outcome ε (HashMap ID V) :=
  groups.foldlM (fun m id => do
    let value ← find id
    return m.insert id value) ∅

def groupsContext (E : Runtime ID OP) (authY : GroupCrdtInnerState ID OP C)
    (authMessage : AuthMessage ID OP C) (previousAncestors : List ID) :
    Outcome ε (GroupContext ID C) := do
  let actors ← groupActors E authY authMessage.groupId
  let members ← authY.members E authMessage.groupId
  let ancestors ← authY.ancestors E authMessage.groupId
  let ancestors := ancestors.insertionSort (· ≤ ·)
  let effected := E.ids.iter (ancestors ++ previousAncestors).toFinset
  let effectedGroupMembers ← forGroups effected (authY.members E)
  let effectedGroupActors ← forGroups effected (groupActors E authY)
  return {
    author := authMessage.author
    actors := sortMembers GroupActor.le actors
    members := sortMembers (· ≤ ·) members
    ancestors := ancestors
    effectedGroupMembers := effectedGroupMembers
    effectedGroupActors := effectedGroupActors }

def toGroupsEvent (E : Runtime ID OP) (authY : GroupCrdtInnerState ID OP C)
    (authMessage : AuthMessage ID OP C) (previousAncestors : List ID) :
    Outcome ε (Event ID OP C) := do
  let groupId := authMessage.groupId
  let context ← groupsContext E authY authMessage previousAncestors
  return .groups (match authMessage.action with
    | .create _ => .created groupId context.actors context
    | .add member access => .added groupId (.fromGroupMember member) access context
    | .remove member => .removed groupId (.fromGroupMember member) context
    | .promote member access => .promoted groupId (.fromGroupMember member) access context
    | .demote member access => .demoted groupId (.fromGroupMember member) access context)

def toSpaceEvent (E : Runtime ID OP) (spaceId : OP) (groupId : ID)
    (authY : GroupCrdtInnerState ID OP C) (spaceMessage : SpaceMembershipMessage ID OP)
    (authMessage : AuthMessage ID OP C) (previousMembers : List (ID × Access C))
    (previousAncestors : List ID) : Outcome ε (SpaceEvent ID OP C) := do
  let nextMembers ← authY.members E groupId
  let nextActors ← groupActors E authY groupId
  let context : SpaceContext ID C := ⟨spaceMessage.author, groupId, nextMembers, nextActors⟩
  let groupsContext ← groupsContext E authY authMessage previousAncestors
  return match authMessage.action with
    | .create _ => .created spaceId nextMembers context groupsContext
    | .add _ _ => .added spaceId (addedMembers previousMembers nextMembers) context groupsContext
    | .remove _ =>
      .removed spaceId (removedMembers previousMembers nextMembers) context groupsContext
    | .promote _ _ =>
      .promoted spaceId (promotedMembers previousMembers nextMembers) context groupsContext
    | .demote _ _ =>
      .demoted spaceId (demotedMembers previousMembers nextMembers) context groupsContext

section IsOk

variable {authY : GroupCrdtInnerState ID OP C} (h : authY.Resolved) (E : Runtime ID OP)

include h

theorem isOk_groupActors (groupId : ID) : (groupActors E authY groupId : Outcome ε _).IsOk := by
  obtain ⟨members, hmbrs⟩ := h.isOk_rootMembers E groupId
  rw [groupActors, hmbrs]
  exact isOk_ok _

omit [DecidableEq OP] [Conditions C] h in
theorem isOk_forGroups {V : Type} {find : ID → Outcome ε V} (hfind : ∀ id, (find id).IsOk)
    (groups : List ID) : (forGroups groups find).IsOk := by
  apply isOk_foldlM
  intro m id
  obtain ⟨value, hval⟩ := hfind id
  rw [hval]
  exact isOk_ok _

theorem isOk_groupsContext (authMessage : AuthMessage ID OP C) (previousAncestors : List ID) :
    (groupsContext E authY authMessage previousAncestors : Outcome ε _).IsOk := by
  obtain ⟨actors, hactors⟩ := isOk_groupActors h E authMessage.groupId
  obtain ⟨members, hmbrs⟩ := h.isOk_members E authMessage.groupId
  obtain ⟨ancestors, hanc⟩ := h.isOk_ancestors E authMessage.groupId
  rw [groupsContext, hactors, ok_bind, hmbrs, ok_bind, hanc, ok_bind]
  dsimp only
  obtain ⟨effectedMembers, heffected⟩ := isOk_forGroups (h.isOk_members E)
    (E.ids.iter (ancestors.insertionSort (· ≤ ·) ++ previousAncestors).toFinset)
  obtain ⟨effectedActors, heffected'⟩ := isOk_forGroups (isOk_groupActors h E)
    (E.ids.iter (ancestors.insertionSort (· ≤ ·) ++ previousAncestors).toFinset)
  rw [heffected, heffected']
  exact isOk_ok _

theorem isOk_toGroupsEvent (authMessage : AuthMessage ID OP C) (previousAncestors : List ID) :
    (toGroupsEvent E authY authMessage previousAncestors : Outcome ε _).IsOk := by
  obtain ⟨context, hctx⟩ := isOk_groupsContext h E authMessage previousAncestors
  rw [toGroupsEvent, hctx]
  exact isOk_ok _

theorem isOk_toSpaceEvent (spaceId : OP) (groupId : ID)
    (spaceMessage : SpaceMembershipMessage ID OP) (authMessage : AuthMessage ID OP C)
    (previousMembers : List (ID × Access C)) (previousAncestors : List ID) :
    (toSpaceEvent E spaceId groupId authY spaceMessage authMessage previousMembers
      previousAncestors : Outcome ε _).IsOk := by
  obtain ⟨members, hmbrs⟩ := h.isOk_members E groupId
  obtain ⟨actors, hactors⟩ := isOk_groupActors h E groupId
  obtain ⟨context, hctx⟩ := isOk_groupsContext h E authMessage previousAncestors
  rw [toSpaceEvent, hmbrs, hactors, hctx]
  exact isOk_ok _

end IsOk

end P2Panda.Spaces
