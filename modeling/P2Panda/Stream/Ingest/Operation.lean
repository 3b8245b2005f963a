import P2Panda.Core.Validation
import P2Panda.Store.Operations
import P2Panda.Stream.Ingest.Ooo

/-!
# Ingest of operations

An operation is checked for its format and its place in the log before it is stored.
-/

namespace P2Panda.Stream.Ingest

open P2Panda.Library P2Panda.Core P2Panda.Store

variable {V E L TP : Type}

inductive IngestResult (V E : Type) where
  | inserted
  | alreadyExists
  | ordered (operations : List (Operation V E))
  | outOfOrder
  | outdated

inductive IngestError where
  | invalidOperation (error : OperationError)
  | hashMismatch
  deriving DecidableEq, Repr

variable [DecidableEq L] [DecidableEq TP]

def checkLogAndInsert (checks : Bool) (store : OperationStore V L TP)
    (operation : Operation V E) (logId : L) (topic : TP) (pruneFlag : Bool) :
    Outcome IngestError (OperationStore V L TP) := do
  let latestHeader :=
    (store.getLatestEntry operation.header.verifyingKey logId).map AnyOperation.header
  (validatePrunableBacklink checks latestHeader operation.header.toAnyHeader pruneFlag).mapErr
    .invalidOperation
  let store := (store.insertOperation operation.hash operation logId).1
  return (store.associate topic operation.header.verifyingKey logId).1

def transact (store : OperationStore V L TP) (buffer : Option (OooBuffer V E L))
    (result : IngestResult V E) (changes : Outcome IngestError (OperationStore V L TP)) :
    Outcome IngestError (IngestResult V E) × OperationStore V L TP × Option (OooBuffer V E L) :=
  match changes with
  | .ok store => (.ok result, store, buffer)
  | .err error => (.err error, store, buffer)
  | .panic message => (.panic message, store, buffer)

/-- What ingest does with the answer of the buffer. -/
def ingestOoo (checks : Bool) (store : OperationStore V L TP) (logId : L) (topic : TP)
    (pruneFlag : Bool) : OooResult V E × OooBuffer V E L →
    Outcome IngestError (IngestResult V E) × OperationStore V L TP × Option (OooBuffer V E L)
  | (.inOrder operation, buffer) =>
    transact store (some buffer) .inserted
      (checkLogAndInsert checks store operation logId topic pruneFlag)
  | (.ordered operations, buffer) =>
    transact store (some buffer) (.ordered operations)
      (operations.foldlM (fun store operation =>
        checkLogAndInsert checks store operation logId topic pruneFlag) store)
  | (.outOfOrder, buffer) => (.ok .outOfOrder, store, some buffer)
  | (.outdated, buffer) => (.ok .outdated, store, some buffer)

/-- Checks formatting and log integrity of an operation before persisting it. Failures of the
database are not part of the model. -/
def ingestOperation (digest : Bytes → Hash) (checks : Bool) (store : OperationStore V L TP)
    (ooo : Option (OooBuffer V E L)) (operation : Operation V E) (logId : L) (topic : TP)
    (pruneFlag : Bool) :
    Outcome IngestError (IngestResult V E) × OperationStore V L TP × Option (OooBuffer V E L) :=
  if operation.hash ≠ operation.header.digest then (.err .hashMismatch, store, ooo)
  else
    match validateOperation digest operation with
    | .err error => (.err (.invalidOperation error), store, ooo)
    | .panic message => (.panic message, store, ooo)
    | .ok () =>
      if store.hasOperation operation.hash then (.ok .alreadyExists, store, ooo)
      else
        match ooo with
        | some buffer =>
          let latestHeader :=
            (store.getLatestEntry operation.header.verifyingKey logId).map AnyOperation.header
          ingestOoo checks store logId topic pruneFlag
            (OooBuffer.process buffer operation latestHeader logId pruneFlag)
        | none =>
          transact store none .inserted
            (checkLogAndInsert checks store operation logId topic pruneFlag)

end P2Panda.Stream.Ingest
