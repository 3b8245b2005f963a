import P2Panda.Auth.Group.ApplyAction

/-!
# Strong remove group resolver

Concurrent operations are identified; those which should be invalidated are added to the operation
filter and not applied to the group state.
-/

namespace P2Panda.Auth.Group.StrongRemove

open P2Panda.Library

variable {ID OP C ε : Type} [DecidableEq ID] [DecidableEq OP] [Conditions C]

def rebuildRequired (E : Runtime ID OP) (y : GroupCrdtInnerState ID OP C)
    (operation : Operation ID OP C) : Outcome ε Bool := do
  let heads ← y.heads E operation.requiredGroups
  return decide (heads ≠ operation.dependencies.toFinset)

def isMutualRemove (E : Runtime ID OP) (operation : Operation ID OP C)
    (authorityGraphs : AuthorityGraphs ID OP) : Outcome ε (Bool × AuthorityGraphs ID OP) :=
  if operation.removedOrDemotedManager.isNone ∧ operation.addedOrPromotedManager.isNone then
    return (false, authorityGraphs)
  else
    authorityGraphs.isCycle E.graph E.authority operation.groupId operation.id

def isReadd (groupId removed : ID) (operation : Operation ID OP C) : Bool :=
  if groupId ≠ operation.groupId then false
  else
    match operation.action with
    | .add added _ => added.id == removed
    | _ => false

def isRemoved (groupId removed : ID) (operation : Operation ID OP C) : Bool :=
  if groupId ≠ operation.groupId then false else operation.author == removed

/-- Whether `retain` keeps an operation concurrent with a removal. -/
def retainOperation (operations : HashMap OP (Operation ID OP C)) (groupId removed : ID)
    (kept : Finset OP) (id : OP) : Outcome ε (Finset OP) := do
  let operation ← .expect "all operations present in map" (operations.lookup id)
  if isRemoved groupId removed operation || isReadd groupId removed operation then
    return insert id kept
  else return kept

def retainFiltered (E : Runtime ID OP) (operations : HashMap OP (Operation ID OP C))
    (groupId removed : ID) (concurrent : Finset OP) : Outcome ε (Finset OP) :=
  (E.ops.iter concurrent).foldlM (retainOperation operations groupId removed) ∅

/-- The state of the loop in `computeFilter`. -/
structure FilterState (ID OP : Type) where
  filter : Finset OP
  mutualRemoves : Finset OP
  authorityGraphs : AuthorityGraphs ID OP

/-- The loop body of `computeFilter`. -/
def filterOperation (E : Runtime ID OP) (y : GroupCrdtInnerState ID OP C) (bubble : Finset OP)
    (acc : FilterState ID OP) (operationId : OP) : Outcome ε (FilterState ID OP) := do
  let operation ← .expect "all operations present in map" (y.operations.lookup operationId)
  match operation.removedOrDemotedManager with
  -- If this is not a remove or demote operation no action is required.
  | none => return acc
  | some removed =>
    let (isMutual, authorityGraphs) ← isMutualRemove E operation acc.authorityGraphs
    let mutualRemoves := if isMutual then insert operationId acc.mutualRemoves
      else acc.mutualRemoves
    -- Extend the filter with the concurrent operations of the removed author and
    -- with the concurrent re-adds.
    let (concurrent, _) := splitBubble E.graph y.graph bubble operationId
    let kept ← retainFiltered E y.operations operation.groupId removed concurrent
    return ⟨acc.filter ∪ kept, mutualRemoves, authorityGraphs⟩

def computeFilter (E : Runtime ID OP) (y : GroupCrdtInnerState ID OP C) (bubble : Finset OP)
    (authorityGraphs : AuthorityGraphs ID OP) : Outcome ε (GroupCrdtInnerState ID OP C) := do
  let result ← (E.ops.iter bubble).foldlM (filterOperation E y bubble) ⟨∅, ∅, authorityGraphs⟩
  return { y with ignore := result.filter, mutualRemoves := result.mutualRemoves }

/-- The loop body of `buildAuthorityGraphs`. -/
def registerOperation (operations : HashMap OP (Operation ID OP C))
    (authorityGraphs : AuthorityGraphs ID OP) (id : OP) : Outcome ε (AuthorityGraphs ID OP) := do
  let operation ← .expect "all operations present in map" (operations.lookup id)
  let authorityGraphs :=
    match operation.removedOrDemotedManager with
    | some removed =>
      authorityGraphs.addRemoval operation.groupId operation.author removed id
    | none => authorityGraphs
  return match operation.addedOrPromotedManager with
    | some added =>
      authorityGraphs.addDelegation operation.groupId operation.author added id
    | none => authorityGraphs

def buildAuthorityGraphs (E : Runtime ID OP) (operations : HashMap OP (Operation ID OP C))
    (bubbleGraph : DiGraphMap OP) : Outcome ε (AuthorityGraphs ID OP) :=
  (E.ops.iter bubbleGraph.nodes).foldlM (registerOperation operations)
    (AuthorityGraphs.new bubbleGraph)

def applyOperation (E : Runtime ID OP) (y : GroupCrdtInnerState ID OP C) (operationId : OP) :
    Outcome ε (GroupCrdtInnerState ID OP C) := do
  let operation ← .expect "all processed operations exist" (y.operations.lookup operationId)
  let groupsY ← (y.stateAt E operation.dependencies.toFinset).expectOk
    "all state objects to exist"
  let groupsY ←
    if operationId ∉ y.mutualRemoves then do
      let result ← applyAction groupsY operation.groupId operation.id operation.author
        operation.action y.ignore
      pure result.state
    else
      match operation.removedOrDemotedManager with
      | none => .panic "internal error: entered unreachable code"
      | some removed => applyRemoveUnsafe groupsY operation.groupId (.individual removed)
  return { y with states := y.states.insert operation.id groupsY }

def bubbleGraph (E : Runtime ID OP) (graph : DiGraphMap OP) (bubble : Finset OP) :
    DiGraphMap OP :=
  graph.removeNodes ((E.ops.iter graph.nodes).filter fun n => n ∉ bubble)

def processBubble (E : Runtime ID OP) (y : GroupCrdtInnerState ID OP C) (bubble : Finset OP) :
    Outcome ε (GroupCrdtInnerState ID OP C) := do
  let bubbleGraph := bubbleGraph E y.graph bubble
  -- Construct mutual remove authority graph and concurrent remove filter.
  let authorityGraphs ← buildAuthorityGraphs E y.operations bubbleGraph
  let y ← computeFilter E y bubble authorityGraphs
  (E.graph.topo bubbleGraph).foldlM (applyOperation E) y

/-- The loop body of `process`, with the processed bubbles. -/
def processNext (E : Runtime ID OP) (bubbles : List (Finset OP))
    (acc : GroupCrdtInnerState ID OP C × List (Finset OP)) (operationId : OP) :
    Outcome ε (GroupCrdtInnerState ID OP C × List (Finset OP)) :=
  match bubbles.find? (operationId ∈ ·) with
  | none => do
    let y ← applyOperation E acc.1 operationId
    return (y, acc.2)
  | some bubble =>
    if bubble ∈ acc.2 then return acc
    else do
      let y ← processBubble E acc.1 bubble
      return (y, acc.2 ++ [bubble])

def process (E : Runtime ID OP) (y : GroupCrdtInnerState ID OP C) :
    Outcome (GroupCrdtInnerError OP) (GroupCrdtInnerState ID OP C) := do
  let y := { y with ignore := ∅, mutualRemoves := ∅ }
  let bubbles := concurrentBubbles E.ops E.graph y.graph
  let (y, _) ← (E.graph.topo y.graph).foldlM (processNext E bubbles) (y, [])
  return y

end P2Panda.Auth.Group.StrongRemove
