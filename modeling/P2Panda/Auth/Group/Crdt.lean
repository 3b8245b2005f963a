import P2Panda.Auth.Group.Resolver

/-!
# Processing operations

Validating an operation against the state it builds on, adding it to the graph, and resolving the
group states.
-/

namespace P2Panda.Auth.Group

open P2Panda.Library

/-- Error types for `GroupCrdt`. A resolver error keeps its error, where the source keeps its
text. -/
inductive GroupCrdtError (ID OP : Type) where
  | inner (error : GroupCrdtInnerError OP)
  | duplicateOperation (operation : OP) (groupId : ID)
  | missingDependencies (dependency operation : OP)
  | unknownGroup (groupId : ID)
  | groupCycle (parentGroup subGroup : ID) (operation : OP)
  | stateChangeError (operation : OP) (error : GroupMembershipError (GroupMember ID))
  | managerGroupsNotAllowed (groupId : ID)
  | resolver (error : GroupCrdtInnerError OP)
  deriving DecidableEq, Repr

namespace GroupCrdt

variable {ID OP C ε : Type} [DecidableEq ID] [DecidableEq OP] [Conditions C]

def init : GroupCrdtInnerState ID OP C := .default

def rebuildAt (E : Runtime ID OP) (y : GroupCrdtInnerState ID OP C) (heads : Finset OP) :
    Outcome (GroupCrdtError ID OP) (GroupCrdtInnerState ID OP C) :=
  (StrongRemove.process E { y with graph := y.trimmedGraph E heads }).mapErr .resolver

def managerGroup? : GroupAction ID C → Option (GroupMember ID)
  | .add member access => if member.isGroup && access.isManage then some member else none
  | .promote member access => if member.isGroup && access.isManage then some member else none
  | _ => none

/-- The states and the filter that an operation is validated against: the current ones if it is
appended to them, else those rebuilt up to its dependencies. -/
def stateBefore (E : Runtime ID OP) (y : GroupCrdtInnerState ID OP C)
    (operation : Operation ID OP C) :
    Outcome (GroupCrdtError ID OP) (GroupStates ID C × Finset OP) := do
  let heads := operation.dependencies.toFinset
  if (← y.heads E operation.requiredGroups) ≠ heads then
    let inner ← rebuildAt E y heads
    return (← inner.currentState E, inner.ignore)
  else return (← y.currentState E, y.ignore)

def validate (E : Runtime ID OP) (y : GroupCrdtInnerState ID OP C)
    (operation : Operation ID OP C) : Outcome (GroupCrdtError ID OP) Unit := do
  if (y.operations.lookup operation.id).isSome then
    .err (.duplicateOperation operation.id operation.groupId)
  else
  match managerGroup? operation.action with
  | some member => .err (.managerGroupsNotAllowed member.id)
  | none =>
  if ← y.wouldCreateCycle E operation then
    match operation.action with
    | .add subGroup _ => .err (.groupCycle operation.groupId subGroup.id operation.id)
    | _ => .panic "internal error: entered unreachable code"
  else
  let (groupsY, ignore) ← stateBefore E y operation
  match ← applyAction groupsY operation.groupId operation.id operation.author operation.action
    ignore with
  | .ok _ => return ()
  | .error _ error => .err (.stateChangeError operation.id error)
  | .filtered _ => .panic "internal error: entered unreachable code"

def addOperation (y : GroupCrdtInnerState ID OP C) (operation : Operation ID OP C) :
    GroupCrdtInnerState ID OP C :=
  { y with
    graph := operation.dependencies.foldl (fun graph dependency =>
      graph.addEdge dependency operation.id) (y.graph.addNode operation.id)
    operations := y.operations.insert operation.id operation }

def attach (E : Runtime ID OP) (y : GroupCrdtInnerState ID OP C) (operation : Operation ID OP C)
    (rebuildRequired : Bool) : Outcome (GroupCrdtError ID OP) (GroupCrdtInnerState ID OP C) :=
  let y := addOperation y operation
  if rebuildRequired then
    (StrongRemove.process E y).mapErr .resolver
  else do
    let groupsY ← (y.stateAt E operation.dependencies.toFinset).mapErr .inner
    if !operation.action.isCreate && (groupsY.lookup operation.groupId).isNone then
      .err (.unknownGroup operation.groupId)
    else
      -- No need to check the result, the operation was validated before.
      let result ← applyAction groupsY operation.groupId operation.id operation.author
        operation.action y.ignore
      return { y with states := y.states.insert operation.id result.state }

def process (E : Runtime ID OP) (y : GroupCrdtInnerState ID OP C)
    (operation : Operation ID OP C) :
    Outcome (GroupCrdtError ID OP) (GroupCrdtInnerState ID OP C) :=
  match operation.dependencies.find? fun dependency => (y.operations.lookup dependency).isNone with
  | some dependency => .err (.missingDependencies dependency operation.id)
  | none => do
    let rebuildRequired ← StrongRemove.rebuildRequired E y operation
    validate E y operation
    attach E y operation rebuildRequired

def membersAt (E : Runtime ID OP) (y : GroupCrdtInnerState ID OP C) (heads : Finset OP)
    (groupId : ID) : Outcome (GroupCrdtError ID OP) (List (ID × Access C)) := do
  if (← y.heads E [groupId]) ≠ heads then
    let inner ← rebuildAt E y heads
    inner.members E groupId
  else y.members E groupId

end GroupCrdt

end P2Panda.Auth.Group
