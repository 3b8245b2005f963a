import Mathlib.Algebra.GroupWithZero.Nat
import P2Panda.Core.Logs
import P2Panda.Library.Table

/-!
# Store for operations

The rows of one table with unique hashes; nothing keeps two operations from having the same place in
a log.
-/

namespace P2Panda.Store

open P2Panda.Library P2Panda.Core List

variable {V E L TP : Type}

/-- A row of `operations_v1`. The header stands for its encoding and its columns. -/
structure OperationRow (V L : Type) where
  hash : Hash
  logId : L
  header : AnyHeader V
  body : Option Body
  deriving DecidableEq

structure TopicRow (L TP : Type) where
  topic : TP
  author : VerifyingKey
  dataId : L
  deriving DecidableEq

abbrev OperationsTable (V L : Type) := Table (OperationRow V L) Hash OperationRow.hash

abbrev TopicsTable (L TP : Type) := Table (TopicRow L TP) (TopicRow L TP) id

structure OperationStore (V L TP : Type) where
  operations : OperationsTable V L
  topics : TopicsTable L TP

/-- `AnyOperation::try_from`. -/
def OperationRow.toAnyOperation (row : OperationRow V L) : AnyOperation V :=
  ⟨row.hash, row.header, row.body⟩

namespace OperationStore

def empty : OperationStore V L TP := ⟨Table.empty, Table.empty⟩

def insertOperation (s : OperationStore V L TP) (id : Hash) (operation : Operation V E)
    (logId : L) : OperationStore V L TP × Bool :=
  let row := ⟨id, logId, operation.header.toAnyHeader, operation.body⟩
  let (operations, inserted) := s.operations.insertOrIgnore row
  (⟨operations, s.topics⟩, inserted)

def hasOperation (s : OperationStore V L TP) (id : Hash) : Bool :=
  (s.operations.find? id).isSome

def getOperation {ε : Type} (decode : AnyHeader V → Except ε (Header V E))
    (s : OperationStore V L TP) (id : Hash) : Except ε (Option (Operation V E)) :=
  match s.operations.find? id with
  | none => .ok none
  | some row =>
    match decode row.header with
    | .error error => .error error
    | .ok header => .ok (some ⟨row.hash, header, row.body⟩)

theorem hash_of_getOperation {ε : Type} {decode : AnyHeader V → Except ε (Header V E)}
    {s : OperationStore V L TP} {id : Hash} {operation : Operation V E}
    (h : s.getOperation decode id = .ok (some operation)) : operation.hash = id := by
  unfold getOperation at h
  repeat' split at h
  all_goals cases h
  rename_i hrow _ _ _
  exact (Table.find?_eq_some.mp hrow).2

theorem hasOperation_iff {s : OperationStore V L TP} {id : Hash} :
    s.hasOperation id = true ↔ id ∈ s.operations.rows.map OperationRow.hash := by
  rw [hasOperation, Option.isSome_iff_ne_none, ne_eq, Table.find?_eq_none, not_not]

variable [DecidableEq L]

def associate [DecidableEq TP] (s : OperationStore V L TP) (topic : TP) (author : VerifyingKey)
    (dataId : L) : OperationStore V L TP × Bool :=
  let (topics, inserted) := s.topics.insertOrIgnore ⟨topic, author, dataId⟩
  (⟨s.operations, topics⟩, inserted)

def resolve [DecidableEq TP] (s : OperationStore V L TP) (topic : TP) : Logs VerifyingKey L :=
  (s.topics.rows.filter fun row => row.topic = topic).foldl (fun result row =>
    HashMap.andModifyOrInsert result row.author (· ++ [row.dataId]) [row.dataId]) ∅

def logRows (s : OperationStore V L TP) (author : VerifyingKey) (logId : L) :
    List (OperationRow V L) :=
  s.operations.rows.filter fun row => row.header.verifyingKey = author ∧ row.logId = logId

/-- The latest entry in an author's log. Of several rows with the largest sequence number, the query
does not say which it returns; here it is the first inserted. -/
def getLatestEntry (s : OperationStore V L TP) (author : VerifyingKey) (logId : L) :
    Option (AnyOperation V) :=
  ((s.logRows author logId).argmax fun row => row.header.seqNum.toNat).map
    OperationRow.toAnyOperation

def logHeight (s : OperationStore V L TP) (author : VerifyingKey) (logId : L) : Option SeqNum :=
  ((s.logRows author logId).argmax fun row => row.header.seqNum.toNat).map
    fun row => row.header.seqNum

/-- The latest sequence number for some of an author's logs; no answer when none has entries. -/
def getLogHeights (s : OperationStore V L TP) (author : VerifyingKey) (logs : List L) :
    Option (HashMap L SeqNum) :=
  let heights := logs.foldl (fun heights logId =>
    (s.logHeight author logId).elim heights (heights.insert logId)) (∅ : HashMap L SeqNum)
  if heights = ∅ then none else some heights

/-- The entries of a log after a sequence number (all without one), up to and including another. -/
def rangeRows (s : OperationStore V L TP) (author : VerifyingKey) (logId : L)
    (range : LogRange) : List (OperationRow V L) :=
  (s.logRows author logId).filter fun row =>
    range.1.all (· < row.header.seqNum) ∧ range.2.all (row.header.seqNum ≤ ·)

/-- Count and total byte size of the entries of a log. A sum too large for the row type is a
decoding error. -/
def getLogSize (s : OperationStore V L TP) (checks : Bool) (author : VerifyingKey) (logId : L)
    (range : LogRange) : Outcome String (UInt32 × UInt32) :=
  let rows := s.rangeRows author logId range
  let totalHeaderBytes : Nat := (rows.map fun row => row.header.size.toNat).sum
  let totalPayloadBytes : Nat := (rows.map fun row => row.header.payloadSize.toNat).sum
  if totalHeaderBytes < UInt32.size ∧ totalPayloadBytes < UInt32.size ∧
      rows.length < UInt32.size then do
    let total ← addU32 checks (UInt32.ofNat totalHeaderBytes) (UInt32.ofNat totalPayloadBytes)
    return (UInt32.ofNat rows.length, total)
  else .err "could not decode log size"

def logEntries (s : OperationStore V L TP) (author : VerifyingKey) (logId : L)
    (range : LogRange) : List (OperationRow V L) :=
  (s.rangeRows author logId range).insertionSort fun a b =>
    a.header.seqNum.toNat ≤ b.header.seqNum.toNat

section Specification

variable {s : OperationStore V L TP} {author : VerifyingKey} {logId : L} {row : OperationRow V L}

omit [DecidableEq L] in
theorem mem_foldl_resolve (rows : List (TopicRow L TP)) (result : Logs VerifyingKey L) :
    logId ∈ ((rows.foldl (fun result row => HashMap.andModifyOrInsert result row.author
        (· ++ [row.dataId]) [row.dataId]) result).lookup author).getD [] ↔
      logId ∈ (result.lookup author).getD [] ∨
        ∃ row ∈ rows, row.author = author ∧ row.dataId = logId := by
  induction rows generalizing result with
  | nil => simp
  | cons row rows ih =>
    rw [foldl_cons, ih, HashMap.lookup_andModifyOrInsert]
    split_ifs with hauthor
    · subst hauthor
      cases result.lookup row.author with
      | none => simp [eq_comm]
      | some logs => simp [eq_comm, or_assoc]
    · simp [Ne.symm hauthor]

omit [DecidableEq L] in
theorem mem_resolve [DecidableEq TP] {topic : TP} :
    logId ∈ ((s.resolve topic).lookup author).getD [] ↔ ⟨topic, author, logId⟩ ∈ s.topics.rows := by
  unfold resolve
  rw [mem_foldl_resolve]
  constructor
  · rintro (hnone | ⟨⟨topic', author', logId'⟩, hrow, rfl, rfl⟩)
    · simp at hnone
    · obtain ⟨hrow, htop⟩ := mem_filter.mp hrow
      rw [decide_eq_true_iff] at htop
      rw [← htop]
      exact hrow
  · intro hrow
    exact Or.inr ⟨_, mem_filter.mpr ⟨hrow, by simp⟩, rfl, rfl⟩

theorem mem_logRows :
    row ∈ s.logRows author logId ↔
      row ∈ s.operations.rows ∧ row.header.verifyingKey = author ∧ row.logId = logId := by
  rw [logRows, mem_filter, decide_eq_true_eq]

theorem getLatestEntry_eq_none (h : s.getLatestEntry author logId = none) :
    s.logRows author logId = [] := by
  rw [getLatestEntry, Option.map_eq_none_iff, argmax_eq_none] at h
  exact h

theorem getLatestEntry_eq_some {operation : AnyOperation V}
    (h : s.getLatestEntry author logId = some operation) :
    ∃ row ∈ s.logRows author logId, row.toAnyOperation = operation ∧
      ∀ other ∈ s.logRows author logId,
        other.header.seqNum.toNat ≤ row.header.seqNum.toNat := by
  rw [getLatestEntry, Option.map_eq_some_iff] at h
  obtain ⟨row, hmax, hrow⟩ := h
  refine ⟨row, argmax_mem hmax, hrow, fun other hoth => ?_⟩
  exact le_of_mem_argmax (f := fun row : OperationRow V L => row.header.seqNum.toNat) hoth hmax

theorem mem_logEntries {range : LogRange} :
    row ∈ s.logEntries author logId range ↔ row ∈ s.logRows author logId ∧
      range.1.all (· < row.header.seqNum) ∧ range.2.all (row.header.seqNum ≤ ·) := by
  rw [logEntries, mem_insertionSort, rangeRows, mem_filter, decide_eq_true_eq]

theorem nodup_logEntries (range : LogRange) : (s.logEntries author logId range).Nodup := by
  have hrows : s.operations.rows.Nodup := s.operations.unique.of_map
  exact (perm_insertionSort _ _).nodup_iff.mpr ((hrows.filter _).filter _)

theorem logHeight_eq_none : s.logHeight author logId = none ↔ s.logRows author logId = [] := by
  rw [logHeight, Option.map_eq_none_iff, argmax_eq_none]

theorem logHeight_eq_some {height : SeqNum} (h : s.logHeight author logId = some height) :
    (∃ row ∈ s.logRows author logId, row.header.seqNum = height) ∧
      ∀ row ∈ s.logRows author logId, row.header.seqNum ≤ height := by
  rw [logHeight, Option.map_eq_some_iff] at h
  obtain ⟨row, hmax, rfl⟩ := h
  refine ⟨⟨row, argmax_mem hmax, rfl⟩, fun other hoth => ?_⟩
  exact le_of_mem_argmax hoth hmax

theorem exists_logHeight (h : row ∈ s.logRows author logId) :
    ∃ height, s.logHeight author logId = some height ∧ row.header.seqNum ≤ height := by
  cases hhgt : s.logHeight author logId with
  | none =>
    rw [logHeight_eq_none.mp hhgt] at h
    cases h
  | some height => exact ⟨height, rfl, (logHeight_eq_some hhgt).2 row h⟩

theorem lookup_foldl_logHeight (author : VerifyingKey) (logs : List L)
    (heights : HashMap L SeqNum) (logId : L) :
    (logs.foldl (fun heights logId =>
      (s.logHeight author logId).elim heights (heights.insert logId)) heights).lookup logId =
      if logId ∈ logs then (s.logHeight author logId).or (heights.lookup logId)
      else heights.lookup logId := by
  induction logs generalizing heights with
  | nil => rfl
  | cons log logs ih =>
    rw [foldl_cons, ih]
    by_cases heq : logId = log
    · subst heq
      rw [if_pos mem_cons_self]
      cases s.logHeight author logId with
      | none => split_ifs <;> rfl
      | some height =>
        dsimp only [Option.elim, Option.or]
        rw [Finmap.lookup_insert]
        split_ifs <;> rfl
    · have hlook : ((s.logHeight author log).elim heights (heights.insert log)).lookup logId =
          heights.lookup logId := by
        cases s.logHeight author log with
        | none => rfl
        | some height => exact Finmap.lookup_insert_of_ne heights heq
      rw [hlook]
      simp only [mem_cons, heq, false_or]

theorem lookup_getLogHeights (author : VerifyingKey) (logs : List L) (logId : L) :
    ((s.getLogHeights author logs).getD ∅).lookup logId =
      if logId ∈ logs then s.logHeight author logId else none := by
  have hhgts := lookup_foldl_logHeight (s := s) author logs ∅ logId
  rw [Finmap.lookup_empty, Option.or_none] at hhgts
  unfold getLogHeights
  dsimp only
  split
  · rename_i hemp
    rw [hemp] at hhgts
    exact hhgts
  · exact hhgts

/-- Each log is numbered from zero without a gap. -/
def Unpruned (s : OperationStore V L TP) : Prop :=
  ∀ author logId, ∃ n, ((s.logRows author logId).map fun row => row.header.seqNum.toNat).Perm
    (List.range n)

theorem Unpruned.exists_row (h : s.Unpruned) {height seqNum : SeqNum}
    (hhgt : s.logHeight author logId = some height) (hle : seqNum ≤ height) :
    ∃ row ∈ s.logRows author logId, row.header.seqNum = seqNum := by
  obtain ⟨n, hperm⟩ := h author logId
  obtain ⟨row, hrow, rfl⟩ := (logHeight_eq_some hhgt).1
  have hlast : row.header.seqNum.toNat ∈ List.range n := hperm.mem_iff.mp (mem_map_of_mem hrow)
  have hmem : seqNum.toNat ∈ List.range n := by
    rw [mem_range] at hlast ⊢
    rw [UInt32.le_iff_toNat_le] at hle
    omega
  obtain ⟨other, hoth, heq⟩ := mem_map.mp (hperm.mem_iff.mpr hmem)
  exact ⟨other, hoth, UInt32.toNat_inj.mp heq⟩

end Specification

end OperationStore

end P2Panda.Store
