import P2Panda.Auth.Group.AuthorityGraphs
import P2Panda.Auth.Group.Operation
import P2Panda.Auth.Group.State
import Mathlib.Data.Nat.Pairing

/-!
# The state of the group CRDT

All operations with their dependency graph, the states after each of them, and queries over the
current state.
-/

namespace P2Panda.Auth.Group

open P2Panda.Library

def maxNestedDepth : Nat := 1000

/-- What a call leaves to its environment: the order in which hash sets and maps are walked, and the
walks of the graph library. Every call may have another one. -/
structure Runtime (ID OP : Type) [DecidableEq ID] [DecidableEq OP] where
  ops : HashOrder OP
  ids : HashOrder ID
  members : HashOrder (GroupMember ID)
  graph : Traversals OP
  authority : Traversals (Node ID OP)

namespace Runtime

def memberNumber : GroupMember Nat → Nat
  | .individual id => 2 * id
  | .group id => 2 * id + 1

theorem memberNumber_injective : Function.Injective memberNumber := by
  intro a b h
  cases a <;> cases b <;> simp only [memberNumber] at h <;> first | omega | (congr 1; omega)

theorem pair_injective : Function.Injective fun x : Nat × Nat => Nat.pair x.1 x.2 := by
  intro x y h
  exact Prod.ext (Nat.pair_eq_pair.mp h).1 (Nat.pair_eq_pair.mp h).2

def reference : Runtime Nat Nat where
  ops := .increasing id Function.injective_id
  ids := .increasing id Function.injective_id
  members := .increasing memberNumber memberNumber_injective
  graph := .reference (.increasing id Function.injective_id)
  authority := .reference (.increasing _ pair_injective)

end Runtime

inductive GroupCrdtInnerError (OP : Type) where
  | statesNotFound (ids : List OP)
  deriving DecidableEq, Repr

abbrev GroupStates (ID C : Type) := HashMap ID (GroupMembersState (GroupMember ID) C)

structure GroupCrdtInnerState (ID OP C : Type) where
  operations : HashMap OP (Operation ID OP C)
  ignore : Finset OP
  mutualRemoves : Finset OP
  states : HashMap OP (GroupStates ID C)
  graph : DiGraphMap OP

namespace GroupCrdtInnerState

variable {ID OP C ε : Type} [DecidableEq ID] [DecidableEq OP] [Conditions C]

def default : GroupCrdtInnerState ID OP C := ⟨∅, ∅, ∅, ∅, .empty⟩

omit [DecidableEq ID] [Conditions C] in
def headsGlobal (y : GroupCrdtInnerState ID OP C) : Finset OP := y.graph.externals

/-- The inner loop body of `mergeStates`. -/
def mergeGroup (E : Runtime ID OP) (currentState : GroupStates ID C)
    (entry : ID × GroupMembersState (GroupMember ID) C) : GroupStates ID C :=
  currentState.andModifyOrInsert entry.1 (fun current => merge E.members entry.2 current) entry.2

/-- The outer loop body of `mergeStates`. -/
def mergeState (E : Runtime ID OP) (y : GroupCrdtInnerState ID OP C) (ids : Finset OP)
    (currentState : GroupStates ID C) (id : OP) :
    Outcome (GroupCrdtInnerError OP) (GroupStates ID C) :=
  match y.states.lookup id with
  | some groupStates => .ok ((groupStates.entries E.ids).foldl (mergeGroup E) currentState)
  | none => .err (.statesNotFound (E.ops.iter ids))

def mergeStates (E : Runtime ID OP) (y : GroupCrdtInnerState ID OP C) (ids : Finset OP) :
    Outcome (GroupCrdtInnerError OP) (GroupStates ID C) :=
  (E.ops.iter ids).foldlM (mergeState E y ids) ∅

def currentState (E : Runtime ID OP) (y : GroupCrdtInnerState ID OP C) :
    Outcome ε (GroupStates ID C) :=
  (y.mergeStates E y.headsGlobal).expectOk "states exist for processed operations"

def stateAt (E : Runtime ID OP) (y : GroupCrdtInnerState ID OP C) (dependencies : Finset OP) :
    Outcome (GroupCrdtInnerError OP) (GroupStates ID C) :=
  y.mergeStates E dependencies

/-- The access of a member below `rootAccess`: never higher than what the parent group gave. -/
def nextAccess (rootAccess : Option (Access C)) (access : Access C) : Access C :=
  match rootAccess with
  | some rootAccess => if access.le rootAccess then access else rootAccess
  | none => access

def recordMember (members : HashMap (GroupMember ID) (Access C)) (member : GroupMember ID)
    (access : Access C) : HashMap (GroupMember ID) (Access C) :=
  members.andModifyOrInsert member (fun current => if current.lt access then access else current)
    access

/-- Collect the members of a group and of its sub-groups. The first argument counts down from the
maximal nesting depth; the current states are computed once by the caller. -/
def membersInner (E : Runtime ID OP) (currentStates : GroupStates ID C) :
    Nat → ID → HashMap (GroupMember ID) (Access C) → Option (Access C) →
    HashMap (GroupMember ID) (Access C)
  | 0, _, members, _ => members
  | depth + 1, groupId, members, rootAccess =>
    match currentStates.lookup groupId with
    | none => members
    | some groupState =>
      (groupState.accessLevels E.members).foldl (fun members (member, access) =>
        let next := nextAccess rootAccess access
        let members := recordMember members member next
        match member with
        | .group id => membersInner E currentStates depth id members (some next)
        | .individual _ => members) members

def traverseMembers (E : Runtime ID OP) (y : GroupCrdtInnerState ID OP C) (groupId : ID) :
    Outcome ε (List (GroupMember ID × Access C)) := do
  let currentStates ← y.currentState E
  return (membersInner E currentStates maxNestedDepth groupId ∅ none).entries E.members

def members (E : Runtime ID OP) (y : GroupCrdtInnerState ID OP C) (groupId : ID) :
    Outcome ε (List (ID × Access C)) := do
  let members ← y.traverseMembers E groupId
  return members.filterMap fun (member, access) =>
    if member.isIndividual then some (member.id, access) else none

def groups (E : Runtime ID OP) (y : GroupCrdtInnerState ID OP C) (groupId : ID) :
    Outcome ε (List (ID × Access C)) := do
  let members ← y.traverseMembers E groupId
  return members.filterMap fun (member, access) =>
    if member.isGroup then some (member.id, access) else none

def groupDependencies (E : Runtime ID OP) (y : GroupCrdtInnerState ID OP C) (groups : List ID) :
    Outcome ε (Finset ID) :=
  groups.foldlM (fun groupDependencies groupId => do
    let nested ← y.groups E groupId
    return insert groupId groupDependencies ∪ (nested.map Prod.fst).toFinset) ∅

def filteredGraph (E : Runtime ID OP) (y : GroupCrdtInnerState ID OP C) (groups : List ID) :
    Outcome ε (DiGraphMap OP) := do
  let groupDependencies ← y.groupDependencies E groups
  return y.graph.removeNodes ((y.operations.entries E.ops).filterMap fun (id, operation) =>
    if operation.groupId ∈ groupDependencies then none else some id)

def heads (E : Runtime ID OP) (y : GroupCrdtInnerState ID OP C) (groups : List ID) :
    Outcome ε (Finset OP) := do
  let graph ← y.filteredGraph E groups
  return graph.externals

def trimmedGraph (E : Runtime ID OP) (y : GroupCrdtInnerState ID OP C) (heads : Finset OP) :
    DiGraphMap OP :=
  let predecessors := (E.ops.iter heads).foldl (fun predecessors dependency =>
    predecessors ∪ (E.graph.dfs y.graph.reversed dependency).toFinset) ∅
  y.graph.removeNodes ((E.ops.iter y.graph.nodes).filter fun n => n ∉ predecessors)

def childGroups (E : Runtime ID OP) (states : GroupStates ID C) (groupId : ID) : List ID :=
  match states.lookup groupId with
  | some groupState =>
    (groupState.accessLevels E.members).filterMap fun (member, _) => member.groupId?
  | none => []

/-- Whether `target` is reached from `start` down the nested groups. Every group is visited once, so
the fuel lasts. -/
def nests (E : Runtime ID OP) (states : GroupStates ID C) (start target : ID) : Bool :=
  search (childGroups E states) (· == target)
    (searchFuel (childGroups E states) states.keys [start] ∅) [start] ∅

def wouldCreateCycle (E : Runtime ID OP) (y : GroupCrdtInnerState ID OP C)
    (operation : Operation ID OP C) : Outcome ε Bool :=
  match operation.action with
  | .add (.group childGroupId) _ => do
    let states ← y.currentState E
    return nests E states childGroupId operation.groupId
  | _ => return false

end GroupCrdtInnerState

end P2Panda.Auth.Group
