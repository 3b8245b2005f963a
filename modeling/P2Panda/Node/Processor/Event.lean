import P2Panda.Spaces.Event
import P2Panda.Stream.Ingest.Operation
import P2Panda.Stream.Orderer.Processor

/-!
# Events of the pipeline

An event carries an operation through the processors, with their arguments and what became of it.
-/

namespace P2Panda.Node

open P2Panda.Core P2Panda.Stream P2Panda.Stream.Ingest
open P2Panda.Spaces (SpacesArgs SpacesMessage)

variable {V L TP C : Type}

/-- Header extensions. Version and timestamp play no part in the pipeline. -/
inductive Extensions (L C : Type) where
  | basic (logId : L) (pruneFlag : Bool)
  | space (logId : L) (args : SpacesArgs VerifyingKey Hash C)

namespace Extensions

def logId : Extensions L C → L
  | basic logId _ => logId
  | space logId _ => logId

def pruneFlag : Extensions L C → Bool
  | basic _ pruneFlag => pruneFlag
  | space _ _ => false

def spacesArgs : Extensions L C → Option (SpacesArgs VerifyingKey Hash C)
  | basic _ _ => none
  | space _ args => some args

end Extensions

abbrev Operation (V L C : Type) := Core.Operation V (Extensions L C)

/-- Source of an operation, without the metrics of the sync session. -/
inductive Source where
  | syncSession (remoteNodeId : VerifyingKey) (sessionId : UInt64)
  | externalStream (sessionId : UInt64)
  | localStore
  deriving DecidableEq

structure IngestArgs (L TP : Type) where
  logId : L
  topic : TP
  pruneFlag : Bool

inductive LogPruneArgs (L : Type) where
  | pruneEntriesUntil (author : VerifyingKey) (logId : L) (seqNum : SeqNum)
  | ignore

inductive LogPruneResult where
  | noop
  | pruned (numEntries : UInt64)

inductive LogPruneError where
  | storeError (message : String)

inductive SpacesProcessorArgs (C : Type) where
  | process (msg : SpacesMessage VerifyingKey Hash C)
  | ignore

inductive SpacesResult (C : Type) where
  | processed (events : List (Spaces.Event VerifyingKey Hash C))
  | ignored

inductive SpacesError where
  | spacesManager (message : String)
  | store (message : String)

inductive ProcessorStatus (R F : Type) where
  | pending
  | completed (result : R)
  | failed (error : F)

inductive ProcessorError where
  | ingest (error : IngestError)
  | orderer (error : OrdererError)
  | logPrune (error : LogPruneError)
  | spaces (error : SpacesError)

structure Event (V L TP C : Type) where
  operation : Operation V L C
  source : Source
  ingestArgs : IngestArgs L TP
  ingest : ProcessorStatus (IngestResult V (Extensions L C)) IngestError
  ordererArgs : OrdererArgs
  orderer : ProcessorStatus OrdererResult OrdererError
  logPruneArgs : LogPruneArgs L
  logPrune : ProcessorStatus LogPruneResult LogPruneError
  spacesArgs : SpacesProcessorArgs C
  spaces : ProcessorStatus (SpacesResult C) SpacesError

structure EventMetadata (L TP C : Type) where
  topic : TP
  logId : L
  pruneFlag : Bool
  spacesArgs : Option (SpacesArgs VerifyingKey Hash C)
  source : Source

namespace Event

def new (operation : Operation V L C) (source : Source) (logId : L) (topic : TP)
    (pruneFlag : Bool) (spacesArgs : Option (SpacesArgs VerifyingKey Hash C)) :
    Event V L TP C where
  operation := operation
  source := source
  ingestArgs := ⟨logId, topic, pruneFlag⟩
  ingest := .pending
  ordererArgs := .process ((spacesArgs.map SpacesArgs.dependencies).getD [])
  orderer := .pending
  logPruneArgs :=
    -- Do not allow pruning when spaces args are set.
    if pruneFlag && spacesArgs.isNone then
      .pruneEntriesUntil operation.header.verifyingKey logId operation.header.seqNum
    else .ignore
  logPrune := .pending
  spacesArgs :=
    match spacesArgs with
    | some args => .process ⟨operation.hash, operation.header.verifyingKey, args⟩
    | none => .ignore
  spaces := .pending

def hash (self : Event V L TP C) : Hash := self.operation.hash

def isPending (self : Event V L TP C) : Bool :=
  match self.orderer with
  | .completed .pending => true
  | _ => false

def failureReason (self : Event V L TP C) : Option ProcessorError :=
  match self.ingest, self.orderer, self.logPrune, self.spaces with
  | .failed error, _, _, _ => some (.ingest error)
  | _, .failed error, _, _ => some (.orderer error)
  | _, _, .failed error, _ => some (.logPrune error)
  | _, _, _, .failed error => some (.spaces error)
  | _, _, _, _ => none

def noop (self : Event V L TP C) : Event V L TP C :=
  { self with
    ingestArgs := { self.ingestArgs with pruneFlag := false }
    ordererArgs := .ignore
    logPruneArgs := .ignore
    spacesArgs := .ignore }

def metadata (self : Event V L TP C) : EventMetadata L TP C where
  topic := self.ingestArgs.topic
  logId := self.ingestArgs.logId
  pruneFlag := self.ingestArgs.pruneFlag
  spacesArgs :=
    match self.spacesArgs with
    | .ignore => none
    | .process msg => some msg.args
  source := self.source

def fromOperation (operation : Operation V L C) (metadata : EventMetadata L TP C) :
    Event V L TP C :=
  new operation metadata.source metadata.logId metadata.topic metadata.pruneFlag
    metadata.spacesArgs

end Event

instance : OrdererInput (Event V L TP C) V (Extensions L C) (EventMetadata L TP C) where
  hash := Event.hash
  args := Event.ordererArgs
  metadata := Event.metadata
  fromOperation := Event.fromOperation

end P2Panda.Node
