import P2Panda.Node.Streams.Acked

/-!
# Topic streams

What comes out of the pipeline is decoded, acknowledged and forwarded. An operation is not
acknowledged when it failed or is left to the application.
-/

namespace P2Panda.Node

open P2Panda.Core P2Panda.Store P2Panda.Auth List
open P2Panda.Spaces (GroupActor GroupEvent SpaceEvent)

variable {V L TP C M δ ε : Type} [DecidableEq L]

inductive AckPolicy where
  | explicit
  | automatic
  deriving DecidableEq

structure ProcessedOperation (V L TP C M : Type) where
  event : Event V L TP C
  topic : TP
  acked : Acked TP
  message : M

/-- The events which come from processing an operation. -/
inductive StreamEvent (V L TP C M δ ε : Type) where
  | processed (operation : ProcessedOperation V L TP C M) (source : Source)
  | processingFailed (event : Event V L TP C) (error : ProcessorError) (source : Source)
  | decodeFailed (event : Event V L TP C) (error : δ)
  | ackFailed (event : Event V L TP C) (error : AckedError TP ε)
  | space (spaceId : Hash) (members : List (VerifyingKey × AccessLevel))
      (actors : List (GroupActor VerifyingKey × AccessLevel))
      (inner : SpaceEvent VerifyingKey Hash C)
  | member (id : VerifyingKey)

inductive SystemEvent (C : Type) where
  | groups (groupId : VerifyingKey) (members : List (VerifyingKey × AccessLevel))
      (actors : List (GroupActor VerifyingKey × AccessLevel)) (inner : GroupEvent VerifyingKey C)

inductive ForwardEvent (V L TP C M δ ε : Type) where
  | system (event : SystemEvent C)
  | topic (event : StreamEvent V L TP C M δ ε)

def toLevels {A : Type} (members : List (A × Access C)) : List (A × AccessLevel) :=
  members.map fun (member, access) => (member, access.level)

def toStreamEvent (event : SpaceEvent VerifyingKey Hash C) : StreamEvent V L TP C M δ ε :=
  match event with
  | .created spaceId _ context _ | .added spaceId _ context _ | .removed spaceId _ context _
  | .promoted spaceId _ context _ | .demoted spaceId _ context _ =>
    .space spaceId (toLevels context.members) (toLevels context.actors) event
  | .ejected spaceId => .space spaceId [] [] event

def toSystemEvent (event : GroupEvent VerifyingKey C) : SystemEvent C :=
  match event with
  | .created groupId _ context | .added groupId _ _ context | .removed groupId _ context
  | .promoted groupId _ _ context | .demoted groupId _ _ context =>
    .groups groupId (toLevels context.members) (toLevels context.actors) event

structure StreamSetup (V L TP C M δ : Type) where
  topic : TP
  ackPolicy : AckPolicy
  acked : Acked TP
  decode : Bytes → Except δ M
  decodeHeader : AnyHeader V → Except String (Header V (Extensions L C))

namespace StreamSetup

variable (setup : StreamSetup V L TP C M δ)

def ackAutomatically (fault : Option ε) (store : StreamStore V L TP) (event : Event V L TP C) :
    Except (AckedError TP ε) (StreamStore V L TP) :=
  if setup.ackPolicy = .automatic then setup.acked.ack fault store event.operation.header
  else .ok store

def processed (event : Event V L TP C) (message : M) : ForwardEvent V L TP C M δ ε :=
  .topic (.processed ⟨event, setup.topic, setup.acked, message⟩ event.source)

/-- The loop body over the events of a space. The database can fail at each. -/
def forwardSpaceEvent (faults : Nat → Option ε) (event : Event V L TP C)
    (state : StreamStore V L TP × List (ForwardEvent V L TP C M δ ε))
    (spaceEvent : Spaces.Event VerifyingKey Hash C × Nat) :
    StreamStore V L TP × List (ForwardEvent V L TP C M δ ε) :=
  match spaceEvent.1 with
  | .application _ data =>
    match setup.decode data with
    | .ok message =>
      -- Only ack events automatically if processing or decoding did not fail.
      match setup.ackAutomatically (faults spaceEvent.2) state.1 event with
      | .error error =>
        (state.1, state.2 ++ [.topic (.ackFailed event error), setup.processed event message])
      | .ok store => (store, state.2 ++ [setup.processed event message])
    | .error error => (state.1, state.2 ++ [.topic (.decodeFailed event error)])
  | .member member => (state.1, state.2 ++ [.topic (.member member.id)])
  | .groups groupEvent => (state.1, state.2 ++ [.system (toSystemEvent groupEvent)])
  | .spaces spaceEvent => (state.1, state.2 ++ [.topic (toStreamEvent spaceEvent)])

def processOperationOut (faults : Nat → Option ε) (store : StreamStore V L TP)
    (event : Event V L TP C) :
    StreamStore V L TP × Option (List (ForwardEvent V L TP C M δ ε)) :=
  match event.failureReason with
  | some error => (store, some [.topic (.processingFailed event error event.source)])
  | none =>
    match event.spaces with
    | .completed (.processed events) =>
      let (store, forwardEvents) :=
        events.zipIdx.foldl (setup.forwardSpaceEvent faults event) (store, [])
      (store, some forwardEvents)
    | _ =>
      -- Only forward non-spaces operations to the application-layer if they have a body.
      match event.operation.body with
      | none =>
        -- Always ack system-level events, even if no automatic policy was configured.
        match setup.acked.ack (faults 0) store event.operation.header with
        | .error error => (store, some [.topic (.ackFailed event error)])
        | .ok store => (store, none)
      | some body =>
        match setup.decode body with
        | .error error => (store, some [.topic (.decodeFailed event error)])
        | .ok message =>
          match setup.ackAutomatically (faults 0) store event with
          | .error error => (store, some [.topic (.ackFailed event error)])
          | .ok store => (store, some [setup.processed event message])

/-- `StreamSubscription::ack`: fails silently if operation is not known. -/
def ackById (fault : Option ε) (store : StreamStore V L TP) (id : Hash) : StreamStore V L TP :=
  match store.operations.getOperation setup.decodeHeader id with
  | .ok (some operation) =>
    match setup.acked.ack fault store operation.header with
    | .ok store => store
    | .error _ => store
  | _ => store

/-- A message was decoded and is acknowledged by the stream, and the database does not fail. -/
def acksMessage (fault : Option ε) (data : Bytes) : Bool :=
  setup.ackPolicy = .automatic && (setup.decode data).isOk && fault.isNone

def acksSpaceEvent (faults : Nat → Option ε) :
    Spaces.Event VerifyingKey Hash C × Nat → Bool
  | (.application _ data, i) => setup.acksMessage (faults i) data
  | _ => false

def acknowledges (faults : Nat → Option ε) (event : Event V L TP C) : Bool :=
  event.failureReason.isNone &&
    match event.spaces with
    | .completed (.processed events) => events.zipIdx.any (setup.acksSpaceEvent faults)
    | _ =>
      match event.operation.body with
      | none => (faults 0).isNone
      | some body => setup.acksMessage (faults 0) body

inductive Act (V L TP C ε : Type) where
  | out (event : Event V L TP C) (faults : Nat → Option ε)
  | ack (event : Event V L TP C) (fault : Option ε)
  | ackById (id : Hash) (fault : Option ε)
  | write (operations : OperationStore V L TP)

structure Session (V L TP : Type) where
  store : StreamStore V L TP
  acknowledged : List (Acked.Entry L)

def act (session : Session V L TP) : Act V L TP C ε → Session V L TP
  | .out event faults =>
    ⟨(setup.processOperationOut faults session.store event).1,
      if setup.acknowledges faults event then session.acknowledged ++ [.of event.operation]
      else session.acknowledged⟩
  | .ack event fault =>
    match setup.acked.ack fault session.store event.operation.header with
    | .ok store => ⟨store, session.acknowledged ++ [.of event.operation]⟩
    | .error _ => session
  | .ackById id fault =>
    ⟨setup.ackById fault session.store id,
      match session.store.operations.getOperation setup.decodeHeader id with
      | .ok (some operation) =>
        if fault.isNone then session.acknowledged ++ [.of operation] else session.acknowledged
      | _ => session.acknowledged⟩
  | .write operations => ⟨{ session.store with operations := operations }, session.acknowledged⟩

inductive Run : Session V L TP → Prop
  | init (operations : OperationStore V L TP) : Run ⟨⟨operations, ∅⟩, []⟩
  | act {session : Session V L TP} : Run session → (a : Act V L TP C ε) →
      Run (setup.act session a)

section Tracking

variable {setup} {store : StreamStore V L TP} {entries : List (Acked.Entry L)}
  {session : Session V L TP}

theorem ackAutomatically_cases (store : StreamStore V L TP) (fault : Option ε)
    (event : Event V L TP C) {data : Bytes} {message : M} (hdcd : setup.decode data = .ok message) :
    (∃ error, setup.ackAutomatically fault store event = .error error ∧
      setup.acksMessage fault data = false) ∨
    setup.ackAutomatically fault store event =
      .ok (if setup.acksMessage fault data then setup.acked.advance store event.operation.header
        else store) := by
  unfold ackAutomatically acksMessage
  rw [hdcd]
  by_cases hpolicy : setup.ackPolicy = .automatic
  · cases fault with
    | some error => exact Or.inl ⟨.store error, by simp [hpolicy, Acked.ack], by simp⟩
    | none => exact Or.inr (by simp [hpolicy, Acked.ack, Except.isOk, Except.toBool])
  · exact Or.inr (by simp [hpolicy])

theorem store_forwardSpaceEvent (setup : StreamSetup V L TP C M δ) (faults : Nat → Option ε)
    (event : Event V L TP C) (state : StreamStore V L TP × List (ForwardEvent V L TP C M δ ε))
    (spaceEvent : Spaces.Event VerifyingKey Hash C × Nat) :
    (setup.forwardSpaceEvent faults event state spaceEvent).1 =
      if setup.acksSpaceEvent faults spaceEvent then
        setup.acked.advance state.1 event.operation.header
      else state.1 := by
  obtain ⟨spaceEvent, i⟩ := spaceEvent
  unfold forwardSpaceEvent acksSpaceEvent
  cases spaceEvent with
  | application spaceId data =>
    dsimp only
    cases hdcd : setup.decode data with
    | error error => simp [acksMessage, hdcd, Except.isOk, Except.toBool]
    | ok message =>
      obtain ⟨error, hack, hnot⟩ | hack := ackAutomatically_cases state.1 (faults i) event hdcd
      · simp [hack, hnot]
      · simp [hack]
  | member member => rfl
  | groups groupEvent => rfl
  | spaces spaceEvent => rfl

theorem store_foldl_forwardSpaceEvent (faults : Nat → Option ε) (event : Event V L TP C)
    (events : List (Spaces.Event VerifyingKey Hash C × Nat))
    (state : StreamStore V L TP × List (ForwardEvent V L TP C M δ ε)) :
    (events.foldl (setup.forwardSpaceEvent faults event) state).1 =
      if events.any (setup.acksSpaceEvent faults) then
        setup.acked.advance state.1 event.operation.header
      else state.1 := by
  induction events generalizing state with
  | nil => rfl
  | cons spaceEvent events ih =>
    rw [foldl_cons, any_cons, ih, store_forwardSpaceEvent]
    cases hacks : setup.acksSpaceEvent faults spaceEvent with
    | false => rfl
    | true =>
      -- acknowledging the same operation twice changes nothing
      simp only [if_true, Bool.true_or, Acked.advance_advance, ite_self]

theorem store_processOperationOut (faults : Nat → Option ε) (store : StreamStore V L TP)
    (event : Event V L TP C) :
    (setup.processOperationOut faults store event).1 =
      if setup.acknowledges faults event then setup.acked.advance store event.operation.header
      else store := by
  unfold processOperationOut acknowledges
  cases hfail : event.failureReason with
  | some error => rfl
  | none =>
  dsimp only [Option.isNone, Bool.true_and]
  split
  · exact store_foldl_forwardSpaceEvent faults event _ _
  · cases event.operation.body with
    | none =>
      cases hfault : faults 0 with
      | some error => rfl
      | none => rfl
    | some body =>
      dsimp only
      cases hdcd : setup.decode body with
      | error error => simp [acksMessage, hdcd, Except.isOk, Except.toBool]
      | ok message =>
        obtain ⟨error, hack, hnot⟩ | hack := ackAutomatically_cases store (faults 0) event hdcd
        · simp [hack, hnot]
        · simp [hack]

theorem tracks_act (h : setup.acked.Tracks session.store session.acknowledged)
    (a : Act V L TP C ε) :
    setup.acked.Tracks (setup.act session a).store (setup.act session a).acknowledged := by
  cases a with
  | out event faults =>
    rw [act, store_processOperationOut]
    split_ifs
    · exact h.advance event.operation
    · exact h
  | ack event fault =>
    cases fault with
    | some error => exact h
    | none => exact h.advance event.operation
  | ackById id fault =>
    dsimp only [act, ackById]
    split
    · cases fault with
      | some error => exact h
      | none => exact h.advance _
    · exact h
  | write operations => exact ⟨h.reached, h.last⟩

theorem Run.tracks (h : setup.Run (ε := ε) session) :
    setup.acked.Tracks session.store session.acknowledged := by
  induction h with
  | init operations =>
    refine ⟨fun e he => (nomatch he), fun author logId height hhgt => ?_⟩
    simp [Acked.cursor, StreamStore.getCursor, Cursor.logHeight, lookupLog] at hhgt
  | act _ a ih => exact tracks_act ih a

end Tracking

variable [DecidableEq TP]

def Subscribed (session : Session V L TP) (row : OperationRow V L) : Prop :=
  row ∈ session.store.operations.operations.rows ∧
    ⟨setup.acked.topic, row.header.verifyingKey, row.logId⟩ ∈ session.store.operations.topics.rows

def Session.IsAcked (session : Session V L TP) (row : OperationRow V L) : Prop :=
  ∃ e ∈ session.acknowledged, e.hash = row.hash

/-- Every operation that was never acknowledged is replayed from the frontier, if and only if with
an operation all operations at its place or before it in its log were acknowledged. -/
theorem nacked_replayed_iff {setup : StreamSetup V L TP C M δ} {session : Session V L TP}
    (h : setup.Run (ε := ε) session) (order : LogOrder VerifyingKey L) :
    ∃ ranges, setup.acked.nackedLogRanges order session.store .frontier =
        (.ok (session.store, ranges) : Except (AckedError TP ε) _) ∧
      ((∀ row, setup.Subscribed session row → ¬session.IsAcked row →
          row ∈ Sync.logRanges order session.store.operations ranges) ↔
        ∀ row, setup.Subscribed session row → ∀ e ∈ session.acknowledged,
          e.author = row.header.verifyingKey → e.logId = row.logId →
          row.header.seqNum ≤ e.seqNum → session.IsAcked row) := by
  refine ⟨_, rfl, ?_⟩
  have hnacked {row : OperationRow V L} (hrow : setup.Subscribed session row) :=
    h.tracks.mem_nacked order hrow.1 hrow.2
  constructor
  · intro hreplayed row hrow e he hauthor hlogId hle
    by_contra hnot
    have hlt := (hnacked hrow).mp (hreplayed row hrow hnot) e he hauthor hlogId
    exact UInt32.not_lt.mpr hle hlt
  · intro hinOrder row hrow hnot
    refine (hnacked hrow).mpr fun e he hauthor hlogId => ?_
    by_contra hlt
    exact hnot (hinOrder row hrow e he hauthor hlogId (UInt32.not_lt.mp hlt))

def sampleOperation (seqNum : SeqNum) (body : Bytes) : Operation Unit Nat Unit where
  hash := ⟨Vector.replicate HASH_LEN seqNum.toUInt8⟩
  header :=
    { version := 1
      verifyingKey := ⟨Vector.replicate VERIFYING_KEY_LEN 7⟩
      signature := ⟨Vector.replicate SIGNATURE_LEN 0⟩
      payloadSize := 0
      payloadHash := none
      seqNum := seqNum
      backlink := none
      extensions := .basic 0 false
      extensionsCbor := none
      size := 100
      digest := ⟨Vector.replicate HASH_LEN seqNum.toUInt8⟩ }
  body := some body

def sampleRow (operation : Operation Unit Nat Unit) : OperationRow Unit Nat :=
  ⟨operation.hash, 0, operation.header.toAnyHeader, operation.body⟩

def sampleEvent (operation : Operation Unit Nat Unit) : Event Unit Nat Nat Unit :=
  { Event.new operation .localStore 0 3 false operation.header.extensions.spacesArgs with
    ingest := .completed .inserted
    orderer := .completed (.readyInput [])
    logPrune := .completed .noop
    spaces := .completed .ignored }

def sampleStream : StreamSetup Unit Nat Nat Unit Bytes String where
  topic := 3
  ackPolicy := .automatic
  acked := .new 3
  decode
    | [] => .error "unexpected end of file"
    | bytes => .ok bytes
  decodeHeader _ := .error "not used"

def sampleStore (first second : Bytes) : OperationStore Unit Nat Nat :=
  ⟨⟨[sampleRow (sampleOperation 0 first), sampleRow (sampleOperation 1 second)],
      show [(_ : Hash), _].Nodup by simp [sampleRow, sampleOperation]; decide⟩,
    ⟨[⟨3, (sampleOperation 0 first).header.verifyingKey, 0⟩], List.nodup_singleton _⟩⟩

def sampleSession (first second : Bytes) : Session Unit Nat Nat :=
  let session := sampleStream.act ⟨⟨sampleStore first second, ∅⟩, []⟩
    (.out (sampleEvent (sampleOperation 0 first)) fun _ => (none : Option Empty))
  sampleStream.act session
    (.out (sampleEvent (sampleOperation 1 second)) fun _ => (none : Option Empty))

theorem run_sampleSession (first second : Bytes) :
    sampleStream.Run (ε := Empty) (sampleSession first second) := by
  unfold sampleSession
  exact .act (.act (.init (sampleStore first second)) _) _

/-- The message of the second operation can not be decoded, so that it is replayed. -/
theorem nacked_replayed_second :
    sampleStream.Run (ε := Empty) (sampleSession [1] []) ∧
    ∃ ranges, sampleStream.acked.nackedLogRanges .numbered (sampleSession [1] []).store .frontier =
        (.ok ((sampleSession [1] []).store, ranges) : Except (AckedError Nat Empty) _) ∧
      sampleRow (sampleOperation 1 []) ∈
        Sync.logRanges .numbered (sampleSession [1] []).store.operations ranges := by
  have hrun := run_sampleSession [1] []
  obtain ⟨ranges, hranges, hiff⟩ := nacked_replayed_iff hrun .numbered
  have hacked : (sampleSession [1] []).acknowledged = [.of (sampleOperation 0 [1])] := by
    decide +kernel
  have hrows : (sampleSession [1] []).store.operations.operations.rows =
      [sampleRow (sampleOperation 0 [1]), sampleRow (sampleOperation 1 [])] := by
    decide +kernel
  refine ⟨hrun, ranges, hranges, hiff.mpr ?_ _ ?_ ?_⟩
  · rintro row ⟨hrow, -⟩ e he - - hle
    rw [hacked, mem_singleton] at he
    subst he
    rw [hrows, mem_cons, mem_singleton] at hrow
    obtain rfl | rfl := hrow
    · exact ⟨_, by exact mem_singleton_self _, rfl⟩
    · exact absurd hle (by decide)
  · unfold Subscribed
    decide +kernel
  · rw [Session.IsAcked]
    decide +kernel

/-- The message of the first operation can not be decoded; the second one is acknowledged, and the
first one is not replayed. -/
theorem nacked_lost_first :
    sampleStream.Run (ε := Empty) (sampleSession [] [1]) ∧
    sampleStream.Subscribed (sampleSession [] [1]) (sampleRow (sampleOperation 0 [])) ∧
    ¬(sampleSession [] [1]).IsAcked (sampleRow (sampleOperation 0 [])) ∧
    ∃ ranges, sampleStream.acked.nackedLogRanges .numbered (sampleSession [] [1]).store .frontier =
        (.ok ((sampleSession [] [1]).store, ranges) : Except (AckedError Nat Empty) _) ∧
      sampleRow (sampleOperation 0 []) ∉
        Sync.logRanges .numbered (sampleSession [] [1]).store.operations ranges := by
  refine ⟨run_sampleSession [] [1], ?_, ?_, _, rfl, ?_⟩
  · unfold Subscribed
    decide +kernel
  · unfold Session.IsAcked
    decide +kernel
  · decide +kernel

/-- Nothing in the operation is for the application. -/
def systemLevel (event : Event V L TP C) : Bool :=
  match event.spaces with
  | .completed (.processed events) => events.all fun
    | .application _ _ => false
    | _ => true
  | _ => event.operation.body.isNone

omit [DecidableEq L] [DecidableEq TP] in
theorem acknowledges_systemLevel {event : Event V L TP C} (hdone : event.failureReason = none)
    (hsys : systemLevel event) (faults : Nat → Option ε) :
    setup.acknowledges faults event ↔
      (∀ events, event.spaces ≠ .completed (.processed events)) ∧ faults 0 = none := by
  unfold systemLevel at hsys
  unfold acknowledges
  rw [hdone]
  split at hsys
  · rename_i events hspaces
    rw [hspaces]
    refine iff_of_false ?_ fun h => h.1 events rfl
    simp only [Option.isNone_none, Bool.true_and, any_eq_true, not_exists, not_and]
    rintro ⟨spaceEvent, i⟩ hmem
    have hnot := all_eq_true.mp hsys spaceEvent (fst_mem_of_mem_zipIdx hmem)
    cases spaceEvent <;> simp_all [acksSpaceEvent]
  · rename_i hspaces
    rw [Option.isNone_iff_eq_none.mp hsys]
    simpa using fun _ => hspaces

def Replays (order : LogOrder VerifyingKey L) (session : Session V L TP) (row : OperationRow V L) :
    Prop :=
  ∃ store ranges, setup.acked.nackedLogRanges order session.store .frontier =
      (.ok (store, ranges) : Except (AckedError TP Empty) _) ∧
    row ∈ Sync.logRanges order store.operations ranges

/-- The operation of a system-level event is not replayed after the event came out of the pipeline,
if and only if it was no message of a space and the database does not fail. -/
theorem systemLevel_settled_iff {event : Event V L TP C} (hdone : event.failureReason = none)
    (hsystem : systemLevel event) (faults : Nat → Option ε) (order : LogOrder VerifyingKey L) :
    (∀ session row, setup.Run (ε := ε) session → setup.Subscribed session row →
        Acked.Entry.of event.operation =
          ⟨row.hash, row.header.verifyingKey, row.logId, row.header.seqNum⟩ →
        ¬setup.Replays order (setup.act session (.out event faults)) row) ↔
      (∀ events, event.spaces ≠ .completed (.processed events)) ∧ faults 0 = none := by
  have hreplays {session : Session V L TP} {row : OperationRow V L}
      (hrun : setup.Run (ε := ε) session) (hrow : setup.Subscribed session row) :
      setup.Replays order (setup.act session (.out event faults)) row ↔
        ∀ e ∈ (setup.act session (.out event faults)).acknowledged,
          e.author = row.header.verifyingKey → e.logId = row.logId →
            e.seqNum < row.header.seqNum := by
    have hsame : (setup.act session (.out event faults)).store.operations =
        session.store.operations := by
      rw [act, store_processOperationOut]
      split_ifs <;> rfl
    rw [← (hrun.act (.out event faults)).tracks.mem_nacked order (hsame ▸ hrow.1) (hsame ▸ hrow.2)]
    constructor
    · rintro ⟨_, _, ⟨⟩, hmem⟩
      exact hmem
    · exact fun hmem => ⟨_, _, rfl, hmem⟩
  rw [← acknowledges_systemLevel setup hdone hsystem]
  constructor
  · intro hnever
    by_contra hnot
    let row : OperationRow V L := ⟨event.operation.hash, event.operation.header.extensions.logId,
      event.operation.header.toAnyHeader, event.operation.body⟩
    have hrow : setup.Subscribed ⟨⟨⟨⟨[row], nodup_singleton _⟩,
        ⟨[⟨setup.acked.topic, row.header.verifyingKey, row.logId⟩], nodup_singleton _⟩⟩, ∅⟩,
        []⟩ row := ⟨mem_singleton_self _, mem_singleton_self _⟩
    refine hnever _ row (.init _) hrow rfl ((hreplays (.init _) hrow).mpr ?_)
    rw [act, if_neg hnot]
    exact forall_mem_nil _
  · intro hacks session row hrun hrow hent hreplayed
    have hlt := (hreplays hrun hrow).mp hreplayed (.of event.operation)
    rw [act, if_pos hacks, hent] at hlt
    exact UInt32.lt_irrefl _ (hlt (by simp) rfl rfl)

/-- A pointer at the group operation `1` in the space `2`. -/
def sampleSpaceOperation : Operation Unit Nat Unit :=
  let operation := sampleOperation 0 []
  { operation with
    header := { operation.header with
      extensions := .space 0 (.spaceMembership (sampleOperation 2 []).hash
        operation.header.verifyingKey [] (sampleOperation 1 []).hash []) }
    body := none }

/-- We have been removed from the space. -/
def sampleSpaceEvent : Event Unit Nat Nat Unit :=
  { sampleEvent sampleSpaceOperation with
    spaces := .completed (.processed [.spaces (.ejected (sampleOperation 2 []).hash)]) }

def sampleSpaceStore : OperationStore Unit Nat Nat :=
  ⟨⟨[sampleRow sampleSpaceOperation], List.nodup_singleton _⟩, (sampleStore [] []).topics⟩

theorem systemLevel_settled_basic :
    let event := sampleEvent { sampleOperation 0 [] with body := none }
    ∀ session row, sampleStream.Run (ε := Empty) session → sampleStream.Subscribed session row →
      Acked.Entry.of event.operation =
        ⟨row.hash, row.header.verifyingKey, row.logId, row.header.seqNum⟩ →
      ¬sampleStream.Replays .numbered
        (sampleStream.act session (.out event fun _ => (none : Option Empty))) row :=
  (systemLevel_settled_iff sampleStream rfl rfl _ .numbered).mpr ⟨by simp [sampleEvent], rfl⟩

theorem systemLevel_replayed :
    let session : Session Unit Nat Nat := ⟨⟨sampleSpaceStore, ∅⟩, []⟩
    sampleSpaceEvent.failureReason.isNone ∧ systemLevel sampleSpaceEvent ∧
    sampleStream.Run (ε := Empty) session ∧
    sampleStream.Subscribed session (sampleRow sampleSpaceEvent.operation) ∧
    sampleStream.Replays .numbered (sampleStream.act session
        (.out sampleSpaceEvent fun _ => (none : Option Empty)))
      (sampleRow sampleSpaceEvent.operation) := by
  refine ⟨rfl, rfl, .init _, ?_, _, _, rfl, ?_⟩
  · unfold Subscribed
    decide +kernel
  · decide +kernel

end StreamSetup

end P2Panda.Node
