import P2Panda.Stream.Ingest.Buffering

/-!
# Ingest with a database that can fail

Any query can fail. The transaction is rolled back then, while the buffer stays as it is at that
point: what an arrival has released, or displaced, has left it.
-/

namespace P2Panda.Stream.Ingest

open P2Panda.Library P2Panda.Core P2Panda.Store OooBuffer ChainRing

/-- The queries of ingest. Those for writing are told apart by the hash. -/
inductive IngestQuery where
  | begin
  | hasOperation
  | getLatestEntry
  | checkLatestEntry (id : Hash)
  | insertOperation (id : Hash)
  | associate (id : Hash)
  | commit

inductive FallibleError where
  | ingest (error : IngestError)
  | storeError (message : String)
  deriving DecidableEq, Repr

namespace Fallible

variable {V E L TP : Type} [DecidableEq L] [DecidableEq TP]

def query (faults : IngestQuery → Option String) (q : IngestQuery) : Outcome FallibleError Unit :=
  match faults q with
  | some message => .err (.storeError message)
  | none => .ok ()

def checkLogAndInsert (faults : IngestQuery → Option String) (checks : Bool)
    (store : OperationStore V L TP) (operation : Operation V E) (logId : L) (topic : TP)
    (pruneFlag : Bool) : Outcome FallibleError (OperationStore V L TP) := do
  query faults (.checkLatestEntry operation.hash)
  let latestHeader :=
    (store.getLatestEntry operation.header.verifyingKey logId).map AnyOperation.header
  (validatePrunableBacklink checks latestHeader operation.header.toAnyHeader pruneFlag).mapErr
    fun error => .ingest (.invalidOperation error)
  query faults (.insertOperation operation.hash)
  let store := (store.insertOperation operation.hash operation logId).1
  query faults (.associate operation.hash)
  return (store.associate topic operation.header.verifyingKey logId).1

def write (faults : IngestQuery → Option String) (checks : Bool) (store : OperationStore V L TP)
    (operations : List (Operation V E)) (logId : L) (topic : TP) (pruneFlag : Bool) :
    Outcome FallibleError (OperationStore V L TP) := do
  let store ← operations.foldlM (fun store operation =>
    checkLogAndInsert faults checks store operation logId topic pruneFlag) store
  query faults .commit
  return store

def transact (store : OperationStore V L TP) (buffer : Option (OooBuffer V E L))
    (result : IngestResult V E) (changes : Outcome FallibleError (OperationStore V L TP)) :
    Outcome FallibleError (IngestResult V E) × OperationStore V L TP × Option (OooBuffer V E L) :=
  match changes with
  | .ok store => (.ok result, store, buffer)
  | .err error => (.err error, store, buffer)
  | .panic message => (.panic message, store, buffer)

/-- What ingest does with the answer of the buffer. -/
def ingestOoo (faults : IngestQuery → Option String) (checks : Bool)
    (store : OperationStore V L TP) (logId : L) (topic : TP) (pruneFlag : Bool) :
    OooResult V E × OooBuffer V E L →
    Outcome FallibleError (IngestResult V E) × OperationStore V L TP × Option (OooBuffer V E L)
  | (.inOrder operation, buffer) =>
    transact store (some buffer) .inserted
      (write faults checks store [operation] logId topic pruneFlag)
  | (.ordered operations, buffer) =>
    transact store (some buffer) (.ordered operations)
      (write faults checks store operations logId topic pruneFlag)
  | (.outOfOrder, buffer) => (.ok .outOfOrder, store, some buffer)
  | (.outdated, buffer) => (.ok .outdated, store, some buffer)

/-- `ingest_operation`, with the queries that fail. -/
def ingestOperation (digest : Bytes → Hash) (faults : IngestQuery → Option String) (checks : Bool)
    (store : OperationStore V L TP) (ooo : Option (OooBuffer V E L)) (operation : Operation V E)
    (logId : L) (topic : TP) (pruneFlag : Bool) :
    Outcome FallibleError (IngestResult V E) × OperationStore V L TP × Option (OooBuffer V E L) :=
  if operation.hash ≠ operation.header.digest then (.err (.ingest .hashMismatch), store, ooo)
  else
    match validateOperation digest operation with
    | .err error => (.err (.ingest (.invalidOperation error)), store, ooo)
    | .panic message => (.panic message, store, ooo)
    | .ok () =>
      match faults .begin with
      | some message => (.err (.storeError message), store, ooo)
      | none =>
        match faults .hasOperation with
        | some message => (.err (.storeError message), store, ooo)
        | none =>
          if store.hasOperation operation.hash then (.ok .alreadyExists, store, ooo)
          else
            match ooo with
            | some buffer =>
              match faults .getLatestEntry with
              | some message => (.err (.storeError message), store, some buffer)
              | none =>
                let latestHeader :=
                  (store.getLatestEntry operation.header.verifyingKey logId).map
                    AnyOperation.header
                ingestOoo faults checks store logId topic pruneFlag
                  (OooBuffer.process buffer operation latestHeader logId pruneFlag)
            | none =>
              transact store none .inserted
                (write faults checks store [operation] logId topic pruneFlag)

variable {checks : Bool} {store : OperationStore V L TP} {operation : Operation V E} {logId : L}
variable {topic : TP} {pruneFlag : Bool} {digest : Bytes → Hash} {result : IngestResult V E}

def noFaults : IngestQuery → Option String := fun _ => none

theorem checkLogAndInsert_noFaults :
    checkLogAndInsert noFaults checks store operation logId topic pruneFlag =
      (Ingest.checkLogAndInsert checks store operation logId topic pruneFlag).mapErr .ingest := by
  unfold checkLogAndInsert Ingest.checkLogAndInsert
  dsimp only
  cases validatePrunableBacklink checks ((store.getLatestEntry operation.header.verifyingKey
    logId).map AnyOperation.header) operation.header.toAnyHeader pruneFlag <;> rfl

theorem write_noFaults (operations : List (Operation V E)) :
    write noFaults checks store operations logId topic pruneFlag =
      (insertAll checks logId topic pruneFlag store operations).mapErr .ingest := by
  unfold write insertAll
  induction operations generalizing store with
  | nil => rfl
  | cons operation operations ih =>
    rw [List.foldlM_cons, List.foldlM_cons, checkLogAndInsert_noFaults]
    cases Ingest.checkLogAndInsert checks store operation logId topic pruneFlag with
    | ok next => exact ih
    | err error => rfl
    | panic message => rfl

omit [DecidableEq L] [DecidableEq TP] in
theorem transact_mapErr {buffer : Option (OooBuffer V E L)}
    (changes : Outcome IngestError (OperationStore V L TP)) :
    transact store buffer result (changes.mapErr .ingest) =
      (((Ingest.transact store buffer result changes).1.mapErr .ingest),
        (Ingest.transact store buffer result changes).2) := by
  cases changes <;> rfl

theorem ingestOperation_noFaults (ooo : Option (OooBuffer V E L)) :
    ingestOperation digest noFaults checks store ooo operation logId topic pruneFlag =
      ((Ingest.ingestOperation digest checks store ooo operation logId topic pruneFlag).1.mapErr
          .ingest,
        (Ingest.ingestOperation digest checks store ooo operation logId topic pruneFlag).2) := by
  unfold ingestOperation Ingest.ingestOperation
  split
  · rfl
  cases validateOperation digest operation with
  | err error => rfl
  | panic message => rfl
  | ok =>
    dsimp only [noFaults]
    split
    · rfl
    cases ooo with
    | none =>
      rw [← insertAll_singleton, ← transact_mapErr, ← write_noFaults]
    | some buffer =>
      dsimp only
      cases process buffer operation ((store.getLatestEntry
        operation.header.verifyingKey logId).map AnyOperation.header) logId pruneFlag with
      | mk answer buffer' =>
      cases answer with
      | inOrder operation' =>
        rw [ingestOoo_inOrder, ← transact_mapErr, ← write_noFaults]
        rfl
      | ordered operations =>
        change transact store (some buffer') (.ordered operations)
          (write noFaults checks store operations logId topic pruneFlag) = _
        rw [write_noFaults, transact_mapErr]
        rfl
      | outOfOrder => rfl
      | outdated => rfl

def Waiting (buffer : OooBuffer V E L) (operation : Operation V E) : Prop :=
  ∃ key value, buffer.buffer.lookup key = some value ∧ value.item = operation

/-- When the call fails, what was in the buffer is still there or in the store. -/
def KeepsBuffered (digest : Bytes → Hash) (faults : IngestQuery → Option String) (checks : Bool)
    (store : OperationStore V L TP) (buffer : OooBuffer V E L) (call : Call V E L TP) : Prop :=
  ∀ error store' ooo', ingestOperation digest faults checks store (some buffer) call.operation
      call.logId call.topic call.pruneFlag = (.err error, store', ooo') →
    ∀ operation, Waiting buffer operation →
      (∃ buffer', ooo' = some buffer' ∧ Waiting buffer' operation) ∨
        store'.hasOperation operation.hash = true

structure Asked (digest : Bytes → Hash) (faults : IngestQuery → Option String)
    (store : OperationStore V L TP) (call : Call V E L TP) : Prop where
  hash : call.operation.hash = call.operation.header.digest
  valid : validateOperation digest call.operation = .ok ()
  begin : faults .begin = none
  hasOperation : faults .hasOperation = none
  new : store.hasOperation call.operation.hash = false
  getLatestEntry : faults .getLatestEntry = none

def answer (store : OperationStore V L TP) (buffer : OooBuffer V E L) (call : Call V E L TP) :
    OooResult V E × OooBuffer V E L :=
  OooBuffer.process buffer call.operation
    ((store.getLatestEntry call.operation.header.verifyingKey call.logId).map AnyOperation.header)
    call.logId call.pruneFlag

/-- What is in the buffer once the arrival has its place: it displaces an item that waits for the
same operation, and the last one of a full buffer. -/
def slots (buffer : OooBuffer V E L) (call : Call V E L TP) : Contents Hash L (Operation V E) :=
  fun key =>
    if key = ⟨call.operation.header.backlink, call.logId⟩ then
      some ⟨call.operation.hash, call.operation⟩
    else if buffer.capacity ≤ buffer.buffer.len ∧
        buffer.buffer.entries.getLast?.map Prod.fst = some key then none
    else buffer.buffer.lookup key

/-- The arrival is pushed to the buffer, which is to release what comes after the backlink. -/
def Expects (store : OperationStore V L TP) (call : Call V E L TP) (backlink : Option Hash) :
    Prop :=
  call.pruneFlag = false ∧
    match (store.getLatestEntry call.operation.header.verifyingKey call.logId).map
      AnyOperation.header with
    | none => backlink = none
    | some latest => ¬call.operation.header.seqNum < latest.seqNum ∧
        latest.seqNum ≠ predecessor call.operation.header.seqNum ∧ backlink = latest.backlink

def continues (checks : Bool) (store : OperationStore V L TP) (operation : Operation V E)
    (logId : L) : Outcome OperationError Unit :=
  validatePrunableBacklink checks
    ((store.getLatestEntry operation.header.verifyingKey logId).map AnyOperation.header)
    operation.header.toAnyHeader false

/-- A query fails, or one of the operations does not continue the log which the store and the
operations before it make. -/
def Refused (faults : IngestQuery → Option String) (checks : Bool) (logId : L) (topic : TP) :
    OperationStore V L TP → List (Operation V E) → Prop
  | _, [] => faults .commit ≠ none
  | store, operation :: operations =>
    faults (.checkLatestEntry operation.hash) ≠ none ∨
      (∃ error, continues checks store operation logId = .err error) ∨
      continues checks store operation logId = .ok () ∧
        (faults (.insertOperation operation.hash) ≠ none ∨
          faults (.associate operation.hash) ≠ none ∨
          Refused faults checks logId topic (((store.insertOperation operation.hash operation
            logId).1.associate topic operation.header.verifyingKey logId).1) operations)

/-- The arrival releases a chain from the buffer, and the chain is not written. -/
structure Releases (digest : Bytes → Hash) (faults : IngestQuery → Option String) (checks : Bool)
    (store : OperationStore V L TP) (buffer : OooBuffer V E L) (call : Call V E L TP)
    (backlink : Option Hash) : Prop where
  asked : Asked digest faults store call
  expects : Expects store call backlink
  refused : ∃ values left, Pops call.logId (slots buffer call) backlink values left ∧
    values ≠ [] ∧
    Refused faults checks call.logId call.topic store (values.map ChainRingValue.item)

variable {faults : IngestQuery → Option String} {buffer buffer' : OooBuffer V E L}
variable {call : Call V E L TP} {operations : List (Operation V E)}
  {changes : Outcome FallibleError (OperationStore V L TP)}

omit [DecidableEq L] [DecidableEq TP] in
@[simp] theorem ooo_transact {ooo : Option (OooBuffer V E L)} :
    (transact store ooo result changes).2.2 = ooo := by
  cases changes <;> rfl

omit [DecidableEq L] [DecidableEq TP] in
theorem transact_eq_err {store' : OperationStore V L TP} {ooo ooo' : Option (OooBuffer V E L)}
    {error : FallibleError} (h : transact store ooo result changes = (.err error, store', ooo')) :
    changes = .err error ∧ store' = store ∧ ooo' = ooo := by
  cases changes with
  | ok => cases h
  | err error' =>
    cases h
    exact ⟨rfl, rfl, rfl⟩
  | panic => cases h

theorem ingestOperation_of_asked (checks : Bool) (buffer : OooBuffer V E L)
    (h : Asked digest faults store call) :
    ingestOperation digest faults checks store (some buffer) call.operation call.logId call.topic
      call.pruneFlag =
      ingestOoo faults checks store call.logId call.topic call.pruneFlag
        (answer store buffer call) := by
  unfold ingestOperation
  rw [if_neg (not_not.mpr h.hash), h.valid]
  rw [h.begin]
  rw [h.hasOperation]
  rw [if_neg (by rw [h.new]; exact Bool.false_ne_true), h.getLatestEntry]
  rfl

theorem ooo_of_not_asked (checks : Bool) (buffer : OooBuffer V E L)
    (h : ¬Asked digest faults store call) :
    (ingestOperation digest faults checks store (some buffer) call.operation call.logId call.topic
      call.pruneFlag).2.2 = some buffer := by
  unfold ingestOperation
  split
  · rfl
  rename_i hhash
  split
  · rfl
  · rfl
  rename_i hvld
  split
  · rfl
  rename_i hbegin
  split
  · rfl
  rename_i hhas
  split
  · rfl
  rename_i hnew
  dsimp only
  split
  · rfl
  · rename_i hlat
    exact absurd ⟨not_not.mp hhash, hvld, hbegin, hhas, Bool.not_eq_true _ ▸ hnew, hlat⟩ h

theorem write_eq_err_iff :
    (∃ error, write faults checks store operations logId topic false = .err error) ↔
      Refused faults checks logId topic store operations := by
  have hquery (q : IngestQuery) : query faults q =
      (faults q).elim (.ok ()) fun message => .err (.storeError message) := by
    unfold query
    cases faults q <;> rfl
  unfold write
  induction operations generalizing store with
  | nil =>
    rw [Refused, List.foldlM_nil, hquery]
    cases faults .commit <;> simp
  | cons operation operations ih =>
    rw [Refused, List.foldlM_cons, checkLogAndInsert]
    simp only [hquery]
    unfold continues
    cases faults (.checkLatestEntry operation.hash) with
    | some message => simp
    | none =>
      dsimp only [Option.elim_none, Outcome.ok_bind]
      cases validatePrunableBacklink checks
          ((store.getLatestEntry operation.header.verifyingKey logId).map AnyOperation.header)
          operation.header.toAnyHeader false with
      | err error => simp
      | panic message => simp
      | ok =>
        cases faults (.insertOperation operation.hash) with
        | some message => simp
        | none =>
          cases faults (.associate operation.hash) with
          | some message => simp
          | none => simpa [hquery] using ih

omit [DecidableEq TP] in
theorem slots_eq : (push buffer call.operation.hash call.operation.header.backlink call.logId
    call.operation).buffer.lookup = slots buffer call := by
  funext key
  rw [lookup_push, slots]
  by_cases hfull : buffer.capacity ≤ buffer.buffer.len
  · rw [if_pos hfull, IndexMap.lookup_pop]
    exact if_congr Iff.rfl rfl (if_congr (and_iff_right hfull).symm rfl rfl)
  · rw [if_neg hfull]
    exact if_congr Iff.rfl rfl (if_neg fun h => hfull h.1).symm

omit [DecidableEq TP] in
/-- The buffer is left as it is, or pushes and pops. -/
theorem answer_cases (store : OperationStore V L TP) (buffer : OooBuffer V E L)
    (call : Call V E L TP) :
    (∃ result, Untouched call.operation result ∧ answer store buffer call = (result, buffer)) ∨
      ∃ backlink, Expects store call backlink := by
  unfold answer OooBuffer.process Expects
  cases call.pruneFlag with
  | true => exact Or.inl ⟨_, .inOrder, rfl⟩
  | false =>
    cases (store.getLatestEntry call.operation.header.verifyingKey call.logId).map
      AnyOperation.header with
    | none => exact Or.inr ⟨none, rfl, rfl⟩
    | some latest =>
      by_cases hold : call.operation.header.seqNum < latest.seqNum
      · exact Or.inl ⟨_, .outdated, if_pos hold⟩
      by_cases hnext : latest.seqNum = predecessor call.operation.header.seqNum
      · exact Or.inl ⟨_, .inOrder, (if_neg hold).trans (if_pos hnext)⟩
      · exact Or.inr ⟨latest.backlink, rfl, hold, hnext, rfl⟩

omit [DecidableEq TP] in
theorem answer_of_expects {backlink : Option Hash} (h : Expects store call backlink) :
    answer store buffer call = pushAndPopFrom buffer call.operation backlink call.logId := by
  obtain ⟨hprune, hlatest⟩ := h
  unfold answer OooBuffer.process
  rw [hprune]
  cases hheader : (store.getLatestEntry call.operation.header.verifyingKey call.logId).map
    AnyOperation.header with
  | none =>
    rw [hheader] at hlatest
    cases hlatest
    rfl
  | some latest =>
    rw [hheader] at hlatest
    obtain ⟨hold, hnext, rfl⟩ := hlatest
    simp [hold, hnext]

omit [DecidableEq TP] in
theorem Expects.exists_answer {backlink : Option Hash} (h : Expects store call backlink)
    (buffer : OooBuffer V E L) :
    ∃ values buffer', Pops call.logId (slots buffer call) backlink values buffer'.buffer.lookup ∧
      answer store buffer call = (popped values, buffer') := by
  cases hans : answer store buffer call with
  | mk result buffer' =>
    rw [answer_of_expects h] at hans
    obtain ⟨values, hpops, rfl, -⟩ := pushAndPopFrom_cases hans
    rw [slots_eq] at hpops
    exact ⟨values, buffer', hpops, rfl⟩

theorem Releases.ingestOperation_eq {backlink : Option Hash}
    (h : Releases digest faults checks store buffer call backlink) :
    ∃ error buffer', ingestOperation digest faults checks store (some buffer) call.operation
        call.logId call.topic call.pruneFlag = (.err error, store, some buffer') ∧
      ∀ key value, buffer'.buffer.lookup key = some value ↔
        slots buffer call key = some value ∧
          ¬OnChain call.logId (slots buffer call) backlink key := by
  obtain ⟨values, left, hpops, hne, hrefused⟩ := h.refused
  obtain ⟨values', buffer', hpops', hans⟩ := h.expects.exists_answer buffer
  obtain ⟨rfl, rfl⟩ := hpops.unique hpops'
  obtain ⟨error, hwrite⟩ := write_eq_err_iff.mpr hrefused
  refine ⟨error, buffer', ?_, fun key value => hpops.left_eq_some⟩
  rw [ingestOperation_of_asked checks buffer h.asked, hans, popped,
    if_neg (by simpa using hne), ingestOoo, h.expects.1, hwrite]
  rfl

/-- No operation of the buffer is lost with an error just if, whenever the arrival releases a chain
which is not written, every operation that was in the buffer is in the store, or has a place in the
buffer which is not on the chain. -/
theorem keepsBuffered_iff (digest : Bytes → Hash) (faults : IngestQuery → Option String)
    (checks : Bool) (store : OperationStore V L TP) (buffer : OooBuffer V E L)
    (call : Call V E L TP) :
    KeepsBuffered digest faults checks store buffer call ↔
      ∀ backlink, Releases digest faults checks store buffer call backlink →
        ∀ operation, Waiting buffer operation → store.hasOperation operation.hash = true ∨
          ∃ key value, slots buffer call key = some value ∧ value.item = operation ∧
            ¬OnChain call.logId (slots buffer call) backlink key := by
  constructor
  · intro hkeeps backlink hreleases operation hwait
    obtain ⟨error, buffer', hcall, hleft⟩ := hreleases.ingestOperation_eq
    rcases hkeeps error store _ hcall operation hwait with ⟨_, ⟨⟩, key, value, hval, hitem⟩ | hstor
    · exact Or.inr ⟨key, value, ((hleft key value).mp hval).1, hitem, ((hleft key value).mp hval).2⟩
    · exact Or.inl hstor
  · intro hcovers error store' ooo' hcall operation hwait
    by_cases hasked : Asked digest faults store call
    swap
    · have hooo := ooo_of_not_asked checks buffer hasked
      rw [hcall] at hooo
      exact Or.inl ⟨buffer, hooo, hwait⟩
    rcases answer_cases store buffer call with ⟨result, huntouched, hans⟩ | ⟨backlink, hexpects⟩
    · rw [ingestOperation_of_asked checks buffer hasked, hans] at hcall
      have hooo := congrArg (fun outcome => outcome.2.2) hcall
      cases huntouched with
      | inOrder =>
        rw [ingestOoo, ooo_transact] at hooo
        exact Or.inl ⟨buffer, hooo.symm, hwait⟩
      | outdated => cases hcall
    · obtain ⟨values, buffer', hpops, hans⟩ := hexpects.exists_answer buffer
      have hcall' := hcall
      rw [ingestOperation_of_asked checks buffer hasked, hans, popped] at hcall'
      split at hcall'
      · cases hcall'
      rename_i hne
      obtain ⟨hwrite, rfl, rfl⟩ := transact_eq_err hcall'
      rw [hexpects.1] at hwrite
      have hrefused := write_eq_err_iff.mp ⟨error, hwrite⟩
      have hreleases : Releases digest faults checks store' buffer call backlink :=
        ⟨hasked, hexpects, values, _, hpops, by simpa using hne, hrefused⟩
      rcases hcovers backlink hreleases operation hwait with hstor | ⟨key, value, hval, hitem, hoff⟩
      · exact Or.inr hstor
      · exact Or.inl ⟨buffer', rfl, key, value, hpops.left_eq_some.mpr ⟨hval, hoff⟩, hitem⟩

def otherAuthor (header : Header Unit Unit) : Header Unit Unit :=
  { header with verifyingKey := ⟨Vector.replicate VERIFYING_KEY_LEN 2⟩ }

def firstCall : Call Unit Unit Nat Nat := sampleCall (sampleHeader 1 0 none) false

def secondCall : Call Unit Unit Nat Nat := sampleCall (sampleHeader 2 1 (some 1)) false

def foreignCall : Call Unit Unit Nat Nat :=
  sampleCall (otherAuthor (sampleHeader 3 2 (some 2))) false

def waitingBuffer : OooBuffer Unit Unit Nat :=
  [secondCall, foreignCall].foldl (fun buffer call =>
    ChainRing.push buffer call.operation.hash call.operation.header.backlink call.logId
      call.operation) (ChainRing.withCapacity 8)

theorem asked_firstCall :
    Asked sampleDigest noFaults (OperationStore.empty : OperationStore Unit Nat Nat) firstCall where
  hash := rfl
  valid := rfl
  begin := rfl
  hasOperation := rfl
  new := rfl
  getLatestEntry := rfl

theorem answer_firstCall :
    ∃ buffer', answer (OperationStore.empty : OperationStore Unit Nat Nat) waitingBuffer
        firstCall =
      (.ordered [firstCall.operation, secondCall.operation, foreignCall.operation], buffer') ∧
      ¬Waiting buffer' secondCall.operation := by
  let pushed := push waitingBuffer firstCall.operation.hash
    firstCall.operation.header.backlink 0 firstCall.operation
  have hpop : (popFrom pushed none 0).1 =
      [firstCall.operation, secondCall.operation, foreignCall.operation] := by
    decide +kernel
  have hleft : ∀ entry ∈ (popFrom pushed none 0).2.buffer.entries,
      entry.2.item ≠ secondCall.operation := by
    decide +kernel
  refine ⟨(popFrom pushed none 0).2, ?_, ?_⟩
  · change pushAndPopFrom waitingBuffer firstCall.operation none 0 = _
    unfold pushAndPopFrom
    dsimp only
    rw [hpop]
    rfl
  · rintro ⟨key, value, hval, hitem⟩
    exact hleft _ (IndexMap.lookup_eq_some.mp hval) hitem

theorem write_chain :
    write noFaults true (OperationStore.empty : OperationStore Unit Nat Nat)
      [firstCall.operation, secondCall.operation, foreignCall.operation] firstCall.logId
      firstCall.topic firstCall.pruneFlag =
      .err (.ingest (.invalidOperation .backlinkMissing)) := rfl

/-- The second operation is neither in the buffer nor in the store afterwards. -/
theorem not_keepsBuffered_firstCall :
    ¬KeepsBuffered sampleDigest noFaults true (OperationStore.empty : OperationStore Unit Nat Nat)
      waitingBuffer firstCall := by
  intro hkeeps
  obtain ⟨buffer', hans, hwait⟩ := answer_firstCall
  have hcall := ingestOperation_of_asked true waitingBuffer asked_firstCall
  rw [hans, ingestOoo, write_chain] at hcall
  rcases hkeeps _ _ _ hcall secondCall.operation ⟨⟨secondCall.operation.header.backlink, 0⟩,
    ⟨secondCall.operation.hash, secondCall.operation⟩, rfl, rfl⟩ with ⟨_, ⟨⟩, hwt⟩ | hstor
  · exact hwait hwt
  · cases hstor

end Fallible

end P2Panda.Stream.Ingest
