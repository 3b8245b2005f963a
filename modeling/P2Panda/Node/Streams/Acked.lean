import P2Panda.Core.Cursor
import P2Panda.Node.Processor.Event
import P2Panda.Sync.Api

/-!
# Acknowledgements

A cursor is stored for every topic. Acknowledging an operation advances it in the operation's log,
and what it has not reached is replayed.
-/

namespace P2Panda.Node

open P2Panda.Library P2Panda.Core P2Panda.Store Cursor OperationStore

variable {V L TP C ε : Type} [DecidableEq L] [DecidableEq TP]

/-- The tables of operations and topics, and `cursors_v1`. -/
structure StreamStore (V L TP : Type) where
  operations : OperationStore V L TP
  cursors : HashMap String (LogHeights VerifyingKey L)

namespace StreamStore

def getCursor (self : StreamStore V L TP) (name : String) : Option (Cursor VerifyingKey L) :=
  (self.cursors.lookup name).map fun state => ⟨name, state⟩

def setCursor (self : StreamStore V L TP) (cursor : Cursor VerifyingKey L) : StreamStore V L TP :=
  { self with cursors := self.cursors.insert cursor.name cursor.state }

end StreamStore

inductive StreamFrom (L : Type) where
  | start
  | frontier
  | cursor (cursor : Cursor VerifyingKey L)

inductive AckedError (TP ε : Type) where
  | store (error : ε)
  | invalidName (name expected : String)
  | invalidTopic (topic : TP)

structure Acked (TP : Type) where
  cursorName : String
  topic : TP

namespace Acked

def fromName (topic : TP) (name : String) : Acked TP := ⟨name, topic⟩

def new [ToString TP] (topic : TP) : Acked TP := fromName topic (toString topic)

def cursor (self : Acked TP) (store : StreamStore V L TP) : Cursor VerifyingKey L :=
  (store.getCursor self.cursorName).getD ⟨self.cursorName, ∅⟩

def replaceCursor (self : Acked TP) (store : StreamStore V L TP)
    (newCursor : Cursor VerifyingKey L) :
    Except (AckedError TP ε) (StreamStore V L TP × Cursor VerifyingKey L) :=
  -- Fail if we try to use a cursor for a different acked state.
  if newCursor.name ≠ self.cursorName then
    .error (.invalidName newCursor.name self.cursorName)
  else .ok (store.setCursor newCursor, newCursor)

/-- Ranges of un-acked ("nacked") events to re-play. A semaphore keeps this and `ack` apart. -/
def nackedLogRanges (order : LogOrder VerifyingKey L) (self : Acked TP)
    (store : StreamStore V L TP) (from_ : StreamFrom L) :
    Except (AckedError TP ε) (StreamStore V L TP × LogRanges VerifyingKey L) :=
  let localLogHeights :=
    Sync.logHeights order store.operations (store.operations.resolve self.topic)
  let replaced : Except (AckedError TP ε) (StreamStore V L TP × Cursor VerifyingKey L) :=
    match from_ with
    | .frontier => .ok (store, self.cursor store)
    | .start => self.replaceCursor store ⟨self.cursorName, ∅⟩
    | .cursor cursor => self.replaceCursor store cursor
  match replaced with
  | .error error => .error error
  | .ok (store, cursor) => .ok (store, cursor.compare order localLogHeights)

def advance (self : Acked TP) (store : StreamStore V L TP)
    (header : Header V (Extensions L C)) : StreamStore V L TP :=
  store.setCursor ((self.cursor store).advance header.verifyingKey header.extensions.logId
    header.seqNum)

def ack (fault : Option ε) (self : Acked TP) (store : StreamStore V L TP)
    (header : Header V (Extensions L C)) : Except (AckedError TP ε) (StreamStore V L TP) :=
  match fault with
  | some error => .error (.store error)
  | none => .ok (self.advance store header)

/-- An operation that was acknowledged, with its place in its log. -/
structure Entry (L : Type) where
  hash : Hash
  author : VerifyingKey
  logId : L
  seqNum : SeqNum
  deriving DecidableEq

def Entry.of (operation : Operation V L C) : Entry L :=
  ⟨operation.hash, operation.header.verifyingKey, operation.header.extensions.logId,
    operation.header.seqNum⟩

/-- Of each log, the cursor has the height of the latest acknowledged entry. -/
structure Tracks (acked : Acked TP) (store : StreamStore V L TP) (entries : List (Entry L)) :
    Prop where
  reached : ∀ e ∈ entries, ∃ height,
    (acked.cursor store).logHeight e.author e.logId = some height ∧ e.seqNum ≤ height
  last : ∀ author logId height, (acked.cursor store).logHeight author logId = some height →
    ∃ e ∈ entries, e.author = author ∧ e.logId = logId ∧ e.seqNum = height

variable {acked : Acked TP} {store : StreamStore V L TP} {entries : List (Entry L)}
  {row : OperationRow V L}

omit [DecidableEq TP]

omit [DecidableEq L] in
theorem cursor_setCursor {cursor : Cursor VerifyingKey L} (h : cursor.name = acked.cursorName) :
    acked.cursor (store.setCursor cursor) = cursor := by
  obtain ⟨name, state⟩ := cursor
  cases h
  simp [Acked.cursor, StreamStore.getCursor, StreamStore.setCursor]

omit [DecidableEq L] in
theorem name_cursor : (acked.cursor store).name = acked.cursorName := by
  unfold Acked.cursor StreamStore.getCursor
  cases store.cursors.lookup acked.cursorName <;> rfl

theorem cursor_advance (header : Header V (Extensions L C)) :
    acked.cursor (acked.advance store header) =
      (acked.cursor store).advance header.verifyingKey header.extensions.logId header.seqNum := by
  rw [Acked.advance, cursor_setCursor]
  unfold Cursor.advance
  split_ifs <;> exact name_cursor

theorem advance_advance (header : Header V (Extensions L C)) :
    acked.advance (acked.advance store header) header = acked.advance store header := by
  rw [Acked.advance, cursor_advance, Cursor.advance, if_pos]
  · simp only [Acked.advance, StreamStore.setCursor, Finmap.insert_insert]
  · rw [logHeight_advance, if_pos ⟨rfl, rfl⟩, Option.any_some, decide_eq_true_iff]
    cases (acked.cursor store).logHeight header.verifyingKey header.extensions.logId with
    | none => exact UInt32.le_refl _
    | some current =>
      rw [Option.elim_some]
      split_ifs with hbeh
      · exact hbeh
      · exact UInt32.le_refl _

theorem Tracks.advance (h : Tracks acked store entries) (operation : Operation V L C) :
    Tracks acked (acked.advance store operation.header) (entries ++ [.of operation]) where
  reached := by
    rw [cursor_advance, List.forall_mem_append, List.forall_mem_singleton]
    exact ⟨fun e he => reaches_advance.mpr (Or.inl (h.reached e he)),
      reaches_advance.mpr (Or.inr ⟨rfl, rfl, UInt32.le_refl _⟩)⟩
  last := by
    intro author logId height hhgt
    rw [cursor_advance, logHeight_advance] at hhgt
    have hold (hcur : (acked.cursor store).logHeight author logId = some height) :
        ∃ e ∈ entries ++ [.of operation], e.author = author ∧ e.logId = logId ∧
          e.seqNum = height := by
      obtain ⟨e, he, hplace⟩ := h.last author logId height hcur
      exact ⟨e, List.mem_append_left _ he, hplace⟩
    split_ifs at hhgt with hlog
    · obtain ⟨rfl, rfl⟩ := hlog
      have hnew (hseq : operation.header.seqNum = height) :
          ∃ e ∈ entries ++ [.of operation], e.author = operation.header.verifyingKey ∧
            e.logId = operation.header.extensions.logId ∧ e.seqNum = height :=
        ⟨.of operation, by simp, rfl, rfl, hseq⟩
      rw [Option.some.injEq] at hhgt
      cases hcur : (acked.cursor store).logHeight operation.header.verifyingKey
          operation.header.extensions.logId with
      | none =>
        rw [hcur] at hhgt
        exact hnew hhgt
      | some current =>
        rw [hcur, Option.elim_some] at hhgt
        split_ifs at hhgt
        · exact hold (by rw [hcur, hhgt])
        · exact hnew hhgt
    · exact hold hhgt

theorem mem_replayed_iff {order : LogOrder VerifyingKey L} {ranges : LogRanges VerifyingKey L} :
    row ∈ Sync.logRanges order store.operations ranges ↔ ∃ range,
      lookupLog ranges row.header.verifyingKey row.logId = some range ∧
        row ∈ store.operations.logEntries row.header.verifyingKey row.logId range := by
  rw [Sync.mem_logRanges]
  constructor
  · rintro ⟨author, logId, range, hlook, hent⟩
    obtain ⟨-, rfl, rfl⟩ := mem_logRows.mp (mem_logEntries.mp hent).1
    exact ⟨range, hlook, hent⟩
  · rintro ⟨range, hlook, hent⟩
    exact ⟨_, _, range, hlook, hent⟩

/-- A stored operation of the topic is replayed from the frontier just if no operation at its place
or after it in the log was acknowledged. -/
theorem Tracks.mem_nacked [DecidableEq TP] (h : Tracks acked store entries)
    (order : LogOrder VerifyingKey L) (hrow : row ∈ store.operations.operations.rows)
    (htop : ⟨acked.topic, row.header.verifyingKey, row.logId⟩ ∈ store.operations.topics.rows) :
    row ∈ Sync.logRanges order store.operations ((acked.cursor store).compare order
        (Sync.logHeights order store.operations (store.operations.resolve acked.topic))) ↔
      ∀ e ∈ entries, e.author = row.header.verifyingKey → e.logId = row.logId →
        e.seqNum < row.header.seqNum := by
  have hmem : row ∈ store.operations.logRows row.header.verifyingKey row.logId :=
    mem_logRows.mpr ⟨hrow, rfl, rfl⟩
  obtain ⟨height, hhgt, hle⟩ := exists_logHeight hmem
  have hrange : lookupLog ((acked.cursor store).compare order
      (Sync.logHeights order store.operations (store.operations.resolve acked.topic)))
      row.header.verifyingKey row.logId =
      missing (some height) ((acked.cursor store).logHeight row.header.verifyingKey row.logId) := by
    rw [Cursor.compare, lookupLog_compare, Sync.lookupLog_logHeights,
      if_pos (mem_resolve.mpr htop), hhgt]
    rfl
  rw [mem_replayed_iff, hrange]
  cases hcur : (acked.cursor store).logHeight row.header.verifyingKey row.logId with
  | none =>
    refine iff_of_true ⟨_, rfl, mem_logEntries.mpr ⟨hmem, rfl, ?_⟩⟩ ?_
    · simpa using hle
    · intro e he hauthor hlogId
      obtain ⟨current, hrchd, -⟩ := h.reached e he
      rw [hauthor, hlogId, hcur] at hrchd
      cases hrchd
  | some current =>
    have hbef : (∀ e ∈ entries, e.author = row.header.verifyingKey → e.logId = row.logId →
        e.seqNum < row.header.seqNum) ↔ current < row.header.seqNum := by
      constructor
      · intro hall
        obtain ⟨e, he, hauthor, hlogId, rfl⟩ := h.last _ _ _ hcur
        exact hall e he hauthor hlogId
      · intro hlt e he hauthor hlogId
        obtain ⟨reached, hrchd, hseq⟩ := h.reached e he
        rw [hauthor, hlogId, hcur] at hrchd
        cases hrchd
        exact UInt32.lt_of_le_of_lt hseq hlt
    rw [hbef, missing]
    split_ifs with hbeh
    · constructor
      · rintro ⟨range, hsome, hent⟩
        cases hsome
        simpa using (mem_logEntries.mp hent).2.1
      · intro hlt
        exact ⟨_, rfl, mem_logEntries.mpr ⟨hmem, by simpa using hlt, by simpa using hle⟩⟩
    · refine iff_of_false ?_ fun hlt => hbeh (UInt32.lt_of_lt_of_le hlt hle)
      rintro ⟨_, ⟨⟩, -⟩

end Acked

end P2Panda.Node
