import P2Panda.Store.Operations
import P2Panda.Stream.Orderer.CausalOrderer

/-!
# Orderer processor

An event with unmet dependencies is remembered and forwarded as pending. One with met dependencies
is forwarded as ready, followed by the events it freed, built again from what was stored.
-/

namespace P2Panda.Stream

open P2Panda.Library P2Panda.Core P2Panda.Store List

theorem hashBytes_injective :
    Function.Injective fun hash : Hash => hash.bytes.toList.map UInt8.toNat := by
  intro hash hash' heq
  rw [map_inj_right fun _ _ => UInt8.toNat_inj.mp] at heq
  rw [Hash.mk.injEq]
  exact Vector.toList_inj.mp heq

/-- The derived order, byte by byte. -/
instance : LinearOrder Hash :=
  LinearOrder.lift' (fun hash : Hash => hash.bytes.toList.map UInt8.toNat) hashBytes_injective

inductive OrdererArgs where
  | process (dependencies : List Hash)
  | ignore
  deriving DecidableEq

inductive OrdererResult where
  | pending
  | readyInput (dependentOperations : List Hash)
  | readyOutput
  | ignored
  deriving DecidableEq

def OrdererResult.isPending : OrdererResult → Bool
  | pending => true
  | _ => false

inductive OrdererError where
  | storeInconsistency (id : Hash)
  | ordererStore (message : String)
  | operationStore (message : String)
  | processorStore (message : String)
  | transaction (message : String)
  deriving DecidableEq

/-- Operations, the tables of the orderer, the metadata of buffered events, and whatever else is
there. -/
structure Database (V L TP D M R : Type) where
  operations : OperationStore V L TP
  orderer : OrdererStore Hash D
  events : HashMap Hash M
  rest : R

inductive OrdererQuery where
  | begin
  | process
  | next
  | commit
  | getOperation (id : Hash)
  | getEvent (id : Hash)
  | setEvent

class OrdererInput (T : Type) (V E M : outParam Type) extends Digest T where
  args : T → OrdererArgs
  metadata : T → M
  fromOperation : Operation V E → M → T

structure OrdererSetup (V E D : Type) where
  digest : Hash → List Hash → D
  order : Hash → HashOrder (Hash × List Hash)
  decode : AnyHeader V → Except String (Header V E)

namespace Orderer

section MapM

variable {α β ε : Type} {f : α → Except ε β} {l : List α}

theorem mem_of_mapM {l' : List β} (h : l.mapM f = .ok l') :
    (∀ b ∈ l', ∃ a ∈ l, f a = .ok b) ∧ ∀ a ∈ l, ∃ b ∈ l', f a = .ok b := by
  induction l generalizing l' with
  | nil =>
    cases h
    exact ⟨by simp, by simp⟩
  | cons a l ih =>
    rw [mapM_cons] at h
    cases ha : f a with
    | error error =>
      rw [ha] at h
      cases h
    | ok b =>
      cases hl : l.mapM f with
      | error error =>
        rw [ha, hl] at h
        cases h
      | ok rest =>
        rw [ha, hl] at h
        cases h
        obtain ⟨hleft, hright⟩ := ih hl
        simp only [forall_mem_cons]
        refine ⟨⟨⟨a, mem_cons_self, ha⟩, fun b' hb' => ?_⟩,
          ⟨b, mem_cons_self, ha⟩, fun a' ha' => ?_⟩
        · obtain ⟨a', ha', heq⟩ := hleft b' hb'
          exact ⟨a', mem_cons_of_mem a ha', heq⟩
        · obtain ⟨b', hb', heq⟩ := hright a' ha'
          exact ⟨b', mem_cons_of_mem b hb', heq⟩

theorem exists_of_mapM_eq_error {error : ε} (h : l.mapM f = .error error) :
    ∃ a ∈ l, ∀ b, f a ≠ .ok b := by
  induction l with
  | nil => cases h
  | cons a l ih =>
    rw [mapM_cons] at h
    cases ha : f a with
    | error error => exact ⟨a, mem_cons_self, by simp [ha]⟩
    | ok b =>
      cases hl : l.mapM f with
      | error error' =>
        rw [ha, hl] at h
        cases h
        obtain ⟨a', ha', hne⟩ := ih hl
        exact ⟨a', mem_cons_of_mem a ha', hne⟩
      | ok rest =>
        rw [ha, hl] at h
        cases h

end MapM

variable {T V E L TP D M R : Type} [OrdererInput T V E M]

section Processing

def readyOutput (setup : OrdererSetup V E D) (faults : OrdererQuery → Option String)
    (db : Database V L TP D M R) (id : Hash) : Except OrdererError (T × OrdererResult) :=
  match faults (.getOperation id) with
  | some message => .error (.operationStore message)
  | none =>
    match db.operations.getOperation setup.decode id with
    | .error message => .error (.operationStore message)
    | .ok none => .error (.storeInconsistency id)
    | .ok (some operation) =>
      match faults (.getEvent id) with
      | some message => .error (.processorStore message)
      | none =>
        match db.events.lookup id with
        | none => .error (.storeInconsistency id)
        | some metadata => .ok (OrdererInput.fromOperation operation metadata, .readyOutput)

variable [DecidableEq D] {setup : OrdererSetup V E D} {faults : OrdererQuery → Option String}
  {db : Database V L TP D M R}
  {result : Database V L TP D M R × Except (T × OrdererError) (List (T × OrdererResult))}

/-- The dependencies are met: collect what was freed. Without a commit the transaction is rolled
back. -/
def forwardReady (setup : OrdererSetup V E D) (faults : OrdererQuery → Option String)
    (db : Database V L TP D M R) (input : T) (hash : Hash) (s : OrdererStore Hash D) :
    Database V L TP D M R × Except (T × OrdererError) (List (T × OrdererResult)) :=
  match faults .next with
  | some message => (db, .error (input, .ordererStore message))
  | none =>
    let (ids, s) := CausalOrderer.drain (s.readyRows.rows.length + 1) s
    let dependentOperations := ids.filter (· ≠ hash)
    match faults .commit with
    | some message => (db, .error (input, .transaction message))
    | none =>
      let db := { db with orderer := s }
      match dependentOperations.mapM (readyOutput setup faults db) with
      | .error error => (db, .error (input, error))
      -- Always forward the current input first.
      | .ok toQueue => (db, .ok ((input, .readyInput dependentOperations) :: toQueue))

def forwardPending (faults : OrdererQuery → Option String) (db : Database V L TP D M R)
    (input : T) (hash : Hash) (metadata : M) (s : OrdererStore Hash D) :
    Database V L TP D M R × Except (T × OrdererError) (List (T × OrdererResult)) :=
  match faults .setEvent with
  | some message => (db, .error (input, .processorStore message))
  | none =>
    match faults .commit with
    | some message => (db, .error (input, .transaction message))
    | none =>
      ({ db with orderer := s, events := db.events.insert hash metadata },
        .ok [(input, .pending)])

/-- Consumes an item: an error with it, or items for the queue. No result when the causal orderer
does not end. -/
def process (setup : OrdererSetup V E D) (faults : OrdererQuery → Option String)
    (db : Database V L TP D M R) (input : T) :
    Option (Database V L TP D M R × Except (T × OrdererError) (List (T × OrdererResult))) :=
  match OrdererInput.args input with
  | .ignore => some (db, .ok [(input, .ignored)])
  | .process dependencies =>
    let hash := Digest.hash input
    match faults .begin with
    | some message => some (db, .error (input, .transaction message))
    | none =>
      match faults .process with
      | some message => some (db, .error (input, .ordererStore message))
      | none =>
        (CausalOrderer.process setup.digest setup.order db.orderer hash dependencies).map fun
          | (s, true) => forwardReady setup faults db input hash s
          | (s, false) =>
            forwardPending faults db input hash (OrdererInput.metadata input) s

inductive Called (setup : OrdererSetup V E D) (faults : OrdererQuery → Option String)
    (db : Database V L TP D M R) (input : T) :
    Database V L TP D M R × Except (T × OrdererError) (List (T × OrdererResult)) → Prop
  | ignored (args : OrdererInput.args input = .ignore) :
      Called setup faults db input (db, .ok [(input, .ignored)])
  | aborted (error : OrdererError) : Called setup faults db input (db, .error (input, error))
  | pending {dependencies : List Hash} {s : OrdererStore Hash D}
      (args : OrdererInput.args input = .process dependencies)
      (process : CausalOrderer.process setup.digest setup.order db.orderer (Digest.hash input)
        dependencies = some (s, false)) :
      Called setup faults db input ({ db with
        orderer := s
        events := db.events.insert (Digest.hash input) (OrdererInput.metadata input) },
        .ok [(input, .pending)])
  | failed {dependencies : List Hash} {s : OrdererStore Hash D} {error : OrdererError}
      (args : OrdererInput.args input = .process dependencies)
      (process : CausalOrderer.process setup.digest setup.order db.orderer (Digest.hash input)
        dependencies = some (s, true)) :
      Called setup faults db input
        ({ db with orderer := (CausalOrderer.drain (s.readyRows.rows.length + 1) s).2 },
          .error (input, error))
  | released {dependencies : List Hash} {s : OrdererStore Hash D}
      {outputs : List (T × OrdererResult)}
      (args : OrdererInput.args input = .process dependencies)
      (process : CausalOrderer.process setup.digest setup.order db.orderer (Digest.hash input)
        dependencies = some (s, true))
      (load : ((CausalOrderer.drain (s.readyRows.rows.length + 1) s).1.filter
        (· ≠ Digest.hash input)).mapM (readyOutput setup faults db) = .ok outputs) :
      Called setup faults db input
        ({ db with orderer := (CausalOrderer.drain (s.readyRows.rows.length + 1) s).2 },
          .ok ((input, .readyInput ((CausalOrderer.drain (s.readyRows.rows.length + 1) s).1.filter
            (· ≠ Digest.hash input))) :: outputs))

theorem called_of_process {input : T} (h : process setup faults db input = some result) :
    Called setup faults db input result := by
  unfold process at h
  split at h
  · rename_i hargs
    cases h
    exact .ignored hargs
  rename_i hargs
  split at h
  · cases h
    exact .aborted _
  split at h
  · cases h
    exact .aborted _
  obtain ⟨⟨s, ready⟩, hproc, rfl⟩ := Option.map_eq_some_iff.mp h
  cases ready with
  | true =>
    dsimp only [forwardReady]
    split
    · exact .aborted _
    split
    · exact .aborted _
    split
    · exact .failed hargs hproc
    · rename_i hload
      exact .released hargs hproc hload
  | false =>
    dsimp only [forwardPending]
    split
    · exact .aborted _
    split
    · exact .aborted _
    exact .pending hargs hproc

/-- The input comes back with an error, or is forwarded; all other items were freed. -/
def Forwards (input : T) : Except (T × OrdererError) (List (T × OrdererResult)) → Prop
  | .ok outputs => (∃ result, result ≠ .readyOutput ∧ (input, result) ∈ outputs) ∧
      ∀ output ∈ outputs, output.1 = input ∨ output.2 = .readyOutput
  | .error (input', _) => input' = input

omit [DecidableEq D] in
theorem readyOutput_eq_ok {id : Hash} {output : T × OrdererResult}
    (h : readyOutput setup faults db id = .ok output) :
    ∃ operation metadata, operation.hash = id ∧
      output = (OrdererInput.fromOperation operation metadata, .readyOutput) := by
  unfold readyOutput at h
  repeat' split at h
  all_goals cases h
  rename_i operation hop _ _ _ metadata _
  exact ⟨operation, metadata, OperationStore.hash_of_getOperation hop, rfl⟩

theorem process_forwards {input : T} (h : process setup faults db input = some result) :
    Forwards input result.2 := by
  cases called_of_process h with
  | ignored => exact ⟨⟨.ignored, by simp, mem_singleton_self _⟩, by simp⟩
  | aborted => rfl
  | pending => exact ⟨⟨.pending, by simp, mem_singleton_self _⟩, by simp⟩
  | failed => rfl
  | released _ _ load =>
    refine ⟨⟨_, by simp, mem_cons_self⟩, ?_⟩
    rw [forall_mem_cons]
    refine ⟨Or.inl rfl, fun output hmem => Or.inr ?_⟩
    obtain ⟨id, -, houtp⟩ := (mem_of_mapM load).1 output hmem
    obtain ⟨operation, metadata, -, rfl⟩ := readyOutput_eq_ok houtp
    rfl

end Processing

end Orderer

end P2Panda.Stream
