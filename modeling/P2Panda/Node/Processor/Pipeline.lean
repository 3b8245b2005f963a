import Mathlib.Data.Fin.VecNotation
import P2Panda.Library.Layers
import P2Panda.Node.Processor.Event
import P2Panda.Node.Processor.Tasks

/-!
# Event processor pipeline

Every operation is tracked as a task and travels as an event through the layers. The consumer at
their end forwards events and marks tasks as done.
-/

namespace P2Panda.Node

open P2Panda.Library P2Panda.Core P2Panda.Stream P2Panda.Stream.Ingest

variable {V L TP C D R Q : Type}

abbrev PipelineStore (V L TP C D R : Type) := Database V L TP D (EventMetadata L TP C) R

/-- What ingest, log prune, spaces and the hooks do with an event is up to them, as long as they
answer. -/
structure Processors (V L TP C D R Q : Type) where
  ingest : Q → PipelineStore V L TP C D R → Event V L TP C →
    PipelineStore V L TP C D R × Except IngestError (IngestResult V (Extensions L C))
  orderer : OrdererSetup V (Extensions L C) D
  ordererFaults : Q → OrdererQuery → Option String
  logPrune : Q → PipelineStore V L TP C D R → Event V L TP C →
    PipelineStore V L TP C D R × Except LogPruneError LogPruneResult
  spaces : Q → PipelineStore V L TP C D R → Event V L TP C →
    PipelineStore V L TP C D R × Except SpacesError (SpacesResult C)
  hook : Q → PipelineStore V L TP C D R → Event V L TP C → PipelineStore V L TP C D R

def oneToOne {S T F O : Type} (process : Q → S → T → S × Except F O) (completed : T → O → T)
    (failed : T → F → T) : Processor Q S T := fun q store event =>
  match process q store event with
  | (store, .ok result) => some (store, .ok [completed event result])
  | (store, .error error) => some (store, .error (failed event error))

namespace Processors

variable [DecidableEq D] (processors : Processors V L TP C D R Q)

def ingestLayer : Processor Q (PipelineStore V L TP C D R) (Event V L TP C) :=
  oneToOne processors.ingest (fun event result => { event with ingest := .completed result })
    fun event error => { event with ingest := .failed error }.noop

def ordered (output : Event V L TP C × OrdererResult) : Event V L TP C :=
  let event := { output.1 with orderer := .completed output.2 }
  -- A "pending" result should not affect any next processors anymore.
  if event.isPending then event.noop else event

def ordererLayer : Processor Q (PipelineStore V L TP C D R) (Event V L TP C) :=
  fun q store event =>
    (Orderer.process processors.orderer (processors.ordererFaults q) store event).map fun
    | (store, .ok outputs) => (store, .ok (outputs.map ordered))
    | (store, .error (event, error)) => (store, .error { event with orderer := .failed error }.noop)

def logPruneLayer : Processor Q (PipelineStore V L TP C D R) (Event V L TP C) :=
  oneToOne processors.logPrune (fun event result => { event with logPrune := .completed result })
    fun event error => { event with logPrune := .failed error }.noop

def spacesLayer : Processor Q (PipelineStore V L TP C D R) (Event V L TP C) :=
  oneToOne processors.spaces (fun event result => { event with spaces := .completed result })
    fun event error => { event with spaces := .failed error }.noop

def hookLayer : Processor Q (PipelineStore V L TP C D R) (Event V L TP C) :=
  fun q store event => some (processors.hook q store event, .ok [event])

def layers : Fin 5 → Processor Q (PipelineStore V L TP C D R) (Event V L TP C) :=
  ![processors.ingestLayer, processors.ordererLayer, processors.logPruneLayer,
    processors.spacesLayer, processors.hookLayer]

end Processors

structure PipelineTaskId where
  pipelineId : Hash
  eventId : Hash
  deriving DecidableEq

structure Pipeline (V L TP C D R : Type) where
  id : Hash
  /-- Events which wait for their place in the channel. -/
  sending : List (Event V L TP C)
  layers : Layers (PipelineStore V L TP C D R) (Event V L TP C) 5
  pendingDependencies : Finset Hash
  pending : Option (Event V L TP C)
  fromPipelineQueue : List (Event V L TP C)
  tasks : TaskTracker (Event V L TP C) PipelineTaskId

namespace Pipeline

def taskId (self : Pipeline V L TP C D R) (event : Event V L TP C) : PipelineTaskId :=
  ⟨self.id, event.hash⟩

def init (id : Hash) (store : PipelineStore V L TP C D R) : Pipeline V L TP C D R :=
  ⟨id, [], .init store, ∅, none, [], .new⟩

def inputEvent (operation : Operation V L C) (source : Source) (topic : TP) : Event V L TP C :=
  .new operation source operation.header.extensions.logId topic
    operation.header.extensions.pruneFlag operation.header.extensions.spacesArgs

def visit (self : Pipeline V L TP C D R) (outputEvent : Event V L TP C) :
    Finset Hash × Option (Event V L TP C) :=
  match outputEvent.orderer with
  | .completed (.readyInput dependentOperations) =>
    (dependentOperations.toFinset, some outputEvent)
  -- We've visited a dependency.
  | .completed .readyOutput => (self.pendingDependencies.erase outputEvent.hash, self.pending)
  | _ => (self.pendingDependencies, self.pending)

def consume (self : Pipeline V L TP C D R) (outputEvent : Event V L TP C) :
    Pipeline V L TP C D R :=
  let (pendingDependencies, pending) := self.visit outputEvent
  let fromPipelineQueue :=
    if outputEvent.isPending then self.fromPipelineQueue
    else self.fromPipelineQueue ++ [outputEvent]
  -- This informs any process waiting for the input event to be finished.
  match pending, decide (pendingDependencies = ∅) with
  | some parent, true =>
    { self with
      pendingDependencies := pendingDependencies
      pending := none
      fromPipelineQueue := fromPipelineQueue
      tasks := self.tasks.markAsDone (self.taskId parent) parent }
  | pending, _ =>
    { self with
      pendingDependencies := pendingDependencies
      pending := pending
      fromPipelineQueue := fromPipelineQueue
      tasks := self.tasks.markAsDone (self.taskId outputEvent) outputEvent }

inductive Move (V L TP C Q : Type) where
  /-- `process` is called: the task is registered. -/
  | track (operation : Operation V L C) (source : Source) (topic : TP)
  | send (i : Nat)
  | layer (move : Layers.Move Q 5)
  | consume

variable [DecidableEq D]

def step (processors : Processors V L TP C D R Q) (self : Pipeline V L TP C D R) :
    Move V L TP C Q → Option (Pipeline V L TP C D R)
  | .track operation source topic =>
    let event := inputEvent operation source topic
    some { self with
      sending := self.sending ++ [event]
      tasks := self.tasks.track (self.taskId event) }
  | .send i =>
    match self.sending[i]? with
    | none => none
    | some event => some { self with
        sending := self.sending.eraseIdx i
        layers := self.layers.push event }
  | .layer move =>
    (self.layers.step processors.layers move).map fun layers => { self with layers := layers }
  | .consume =>
    self.layers.pop.map fun (outputEvent, layers) =>
      { self with layers := layers }.consume outputEvent

def run (processors : Processors V L TP C D R Q) (self : Pipeline V L TP C D R)
    (moves : List (Move V L TP C Q)) : Option (Pipeline V L TP C D R) :=
  moves.foldlM (step processors) self

/-- The layers are drained, and no call of `process` waits. -/
def Idle (self : Pipeline V L TP C D R) : Prop := self.sending = [] ∧ self.layers.Drained

instance (self : Pipeline V L TP C D R) : Decidable self.Idle :=
  inferInstanceAs (Decidable (_ ∧ _))

end Pipeline

end P2Panda.Node
