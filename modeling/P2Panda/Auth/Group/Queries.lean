import P2Panda.Auth.Group.Runs

/-!
# Queries over all groups

What other crates ask for: a slice of the history, the direct members and the ancestors of a group,
and whether an author had write access in the past.
-/

namespace P2Panda.Auth.Group

open P2Panda.Library Outcome

namespace GroupCrdtInnerState

variable {ID OP C ε : Type} [DecidableEq ID] [DecidableEq OP] [Conditions C]

def toposort (E : Runtime ID OP) (y : GroupCrdtInnerState ID OP C) (groups : List ID) :
    Outcome ε (List OP) := do
  let graph ← y.filteredGraph E groups
  let sorted := E.graph.topo graph
  -- the nodes of a cycle are not among the sorted ones
  if sorted.length = graph.nodes.card then return sorted else .panic "graph has a cycle"

def ancestors (E : Runtime ID OP) (y : GroupCrdtInnerState ID OP C) (target : ID) :
    Outcome ε (List ID) := do
  let currentState ← y.currentState E
  (currentState.entries E.ids).foldlM (fun ancestors (id, _) => do
    let children ← y.groups E id
    return if target ∈ children.map Prod.fst then ancestors ++ [id] else ancestors) []

def rootMembers (E : Runtime ID OP) (y : GroupCrdtInnerState ID OP C) (groupId : ID) :
    Outcome ε (List (GroupMember ID × Access C)) := do
  let currentState ← y.currentState E
  match currentState.lookup groupId with
  | some groupY => return groupY.accessLevels E.members
  | none => return []

def groupsGlobal (E : Runtime ID OP) (y : GroupCrdtInnerState ID OP C) : List ID :=
  (y.operations.entries E.ops).filterMap fun (_, message) =>
    if message.action.isCreate then some message.groupId else none

end GroupCrdtInnerState

namespace GroupCrdt

variable {ID OP C ε : Type} [DecidableEq ID] [DecidableEq OP] [Conditions C]

def heads (E : Runtime ID OP) (y : GroupCrdtInnerState ID OP C) (groupId : ID)
    (action : GroupAction ID C) : Outcome ε (List OP) := do
  let heads ← y.heads E (action.requiredGroups ++ [groupId])
  return E.ops.iter heads

end GroupCrdt

inductive WriteError where
  | unrecognisedActor
  | insufficientAccess
  deriving DecidableEq, Repr

inductive VerifyClaimedWriteError (ID OP : Type) where
  | membersAt (error : GroupCrdtError ID OP)
  | invalidWrite (error : WriteError)
  deriving DecidableEq, Repr

variable {ID OP C : Type} [DecidableEq ID] [DecidableEq OP] [Conditions C]

def isMember (member : ID) (members : List (ID × AccessLevel)) : Bool :=
  members.any fun (id, _) => id = member

def isWriter (actor : ID) (members : List (ID × AccessLevel)) : Bool :=
  match members.find? fun (id, _) => id = actor with
  | none => false
  | some (_, level) => !(level.cmp .write).isLT

def canWrite (actor : ID) (members : List (ID × AccessLevel)) : Outcome WriteError Unit :=
  if !isMember actor members then .err .unrecognisedActor
  else if !isWriter actor members then .err .insufficientAccess
  else .ok ()

def verifyClaimedWriteAccess (E : Runtime ID OP) (y : GroupCrdtInnerState ID OP C)
    (actor groupId : ID) (heads : Finset OP) : Outcome (VerifyClaimedWriteError ID OP) Unit := do
  let members ← (GroupCrdt.membersAt E y heads groupId).mapErr .membersAt
  (canWrite actor (members.map fun (id, access) => (id, access.level))).mapErr .invalidWrite

variable {y : GroupCrdtInnerState ID OP C} {ε : Type}

namespace GroupCrdtInnerState.Resolved

/-- A slice has the operations of the passed groups and of all groups they depend on. -/
theorem mem_toposort (h : y.Resolved) {E : Runtime ID OP} {groups : List ID} {sorted : List OP}
    (hsort : y.toposort E groups = (.ok sorted : Outcome ε _)) {dependencies : Finset ID}
    (hrun : y.groupDependencies E groups = (.ok dependencies : Outcome ε _)) {x : OP} :
    x ∈ sorted ↔ ∃ o, y.Has x o ∧ o.groupId ∈ dependencies := by
  obtain ⟨graph, hgr, hacyc, -, hnds⟩ := h.filteredGraph_spec E hrun
  rw [toposort, hgr, ok_bind] at hsort
  dsimp only at hsort
  split at hsort
  · cases hsort
    rw [E.graph.mem_topo hacyc, hnds]
  · cases hsort

theorem isOk_traverseMembers (h : y.Resolved) (E : Runtime ID OP) (groupId : ID) :
    (y.traverseMembers E groupId : Outcome ε _).IsOk := by
  obtain ⟨states, hsts, _⟩ := h.currentState E
  rw [traverseMembers, hsts]
  exact isOk_ok _

theorem isOk_members (h : y.Resolved) (E : Runtime ID OP) (groupId : ID) :
    (y.members E groupId : Outcome ε _).IsOk := by
  obtain ⟨members, hmbrs⟩ := h.isOk_traverseMembers E groupId
  rw [GroupCrdtInnerState.members, hmbrs]
  exact isOk_ok _

theorem isOk_rootMembers (h : y.Resolved) (E : Runtime ID OP) (groupId : ID) :
    (y.rootMembers E groupId : Outcome ε _).IsOk := by
  obtain ⟨states, hsts, _⟩ := h.currentState E
  rw [rootMembers, hsts, ok_bind]
  split <;> exact isOk_ok _

theorem isOk_ancestors (h : y.Resolved) (E : Runtime ID OP) (target : ID) :
    (y.ancestors E target : Outcome ε _).IsOk := by
  obtain ⟨states, hsts, _⟩ := h.currentState E
  rw [ancestors, hsts]
  apply isOk_foldlM
  intro ancestors entry
  obtain ⟨members, hmbrs⟩ := h.isOk_traverseMembers E entry.1
  have hgroups : (y.groups E entry.1 : Outcome ε _).IsOk := by
    rw [GroupCrdtInnerState.groups, hmbrs]
    exact isOk_ok _
  obtain ⟨children, hchildren⟩ := hgroups
  dsimp only
  rw [hchildren]
  exact isOk_ok _

theorem isOk_membersAt (h : y.Resolved) (E : Runtime ID OP) (heads : Finset OP) (groupId : ID) :
    (GroupCrdt.membersAt E y heads groupId).IsOk := by
  obtain ⟨tips, htips, _⟩ := h.heads_spec E [groupId]
  rw [GroupCrdt.membersAt, htips, ok_bind]
  split
  · obtain ⟨inner, hinn, _, hresd⟩ := GroupCrdt.rebuildAt_spec h.history E heads
    rw [hinn]
    exact hresd.isOk_members E groupId
  · exact h.isOk_members E groupId

theorem panicsOnly_verifyClaimedWriteAccess (h : y.Resolved) (E : Runtime ID OP)
    (actor groupId : ID) (heads : Finset OP) (message : String) :
    (verifyClaimedWriteAccess E y actor groupId heads).PanicsOnly message := by
  obtain ⟨members, hmbrs⟩ := h.isOk_membersAt E heads groupId
  rw [verifyClaimedWriteAccess, hmbrs, mapErr_ok, ok_bind]
  unfold canWrite
  split
  · exact panicsOnly_err _ _
  split <;> simp

end GroupCrdtInnerState.Resolved

end P2Panda.Auth.Group
