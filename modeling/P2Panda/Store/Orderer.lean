import P2Panda.Library.HashMap
import P2Panda.Library.Table

/-!
# Orderer store

`orderer_ready_v1` holds the items whose dependencies are met, with their place in a queue.
`orderer_pending_v1` holds, for each unmet dependency of an item, one row for every dependency of
it.
-/

namespace P2Panda.Store

open P2Panda.Library List Table

/-- A row of `orderer_ready_v1` with primary key `id`. -/
structure ReadyRow (ID : Type) where
  id : ID
  queueIndex : Nat
  inQueue : Bool
  deriving DecidableEq, Repr

/-- A row of `orderer_pending_v1`; all columns together are unique. -/
structure PendingRow (ID D : Type) where
  id : ID
  childId : ID
  parentId : ID
  setDigest : D
  deriving DecidableEq, Repr

abbrev ReadyTable (ID : Type) := Table (ReadyRow ID) ID ReadyRow.id

abbrev PendingTable (ID D : Type) := Table (PendingRow ID D) (PendingRow ID D) fun row => row

structure OrdererStore (ID D : Type) where
  readyRows : ReadyTable ID
  pendingRows : PendingTable ID D

namespace OrdererStore

section Statements

variable {ID D : Type} [LinearOrder ID] [DecidableEq D]

def empty : OrdererStore ID D := ⟨.empty, .empty⟩

/-- `SELECT MAX(queue_index)`; decoding `NULL` gives zero. -/
def lastIndex (s : OrdererStore ID D) : Nat :=
  (s.readyRows.rows.map ReadyRow.queueIndex).foldr max 0

/-- Add an item whose dependencies are met. The new index is above every other, so only the primary
key can make this fail. -/
def markReady (s : OrdererStore ID D) (id : ID) : OrdererStore ID D × Bool :=
  let queueIndex := s.lastIndex + 1
  match s.readyRows.find? id with
  | none => (⟨(s.readyRows.insertOrIgnore ⟨id, queueIndex, true⟩).1, s.pendingRows⟩, true)
  | some row =>
    -- Do nothing when the item is still in the queue, re-queue it otherwise.
    if row.inQueue then (s, false)
    else
      let readyRows := s.readyRows.updateWhere (fun row => row.id = id)
        (fun row => ⟨row.id, queueIndex, true⟩) (fun _ => rfl)
      (⟨readyRows, s.pendingRows⟩, true)

/-- `SELECT 1 FROM orderer_ready_v1 WHERE id = ?`. -/
def isReady (s : OrdererStore ID D) (id : ID) : Bool := (s.readyRows.find? id).isSome

def insertPendingRow (acc : PendingTable ID D × Bool) (row : PendingRow ID D) :
    PendingTable ID D × Bool :=
  let result := acc.1.insertOrIgnore row
  (result.1, acc.2 || result.2)

def pendingRowsOf (s : OrdererStore ID D) (childId : ID) (parentIds : List ID) (setDigest : D) :
    List (PendingRow ID D) :=
  (parentIds.filter fun id => !s.isReady id).flatMap fun id =>
    parentIds.map fun parentId => ⟨id, childId, parentId, setDigest⟩

def markPending (digest : ID → List ID → D) (s : OrdererStore ID D) (childId : ID)
    (parentIds : List ID) : OrdererStore ID D × Bool :=
  -- Make hashing digest deterministic by sorting array first.
  let parentIds := parentIds.insertionSort (· ≤ ·)
  let setDigest := digest childId parentIds
  let result := (s.pendingRowsOf childId parentIds setDigest).foldl insertPendingRow
    (s.pendingRows, false)
  (⟨s.readyRows, result.1⟩, result.2)

/-- The parents in all rows of a dependency set, which is repeated for each unmet dependency. -/
def parentIds (s : OrdererStore ID D) (childId : ID) (setDigest : D) : List ID :=
  ((s.pendingRows.rows.filter fun row => row.childId = childId ∧ row.setDigest = setDigest).map
    PendingRow.parentId).insertionSort (· ≤ ·)

def getNextPending (s : OrdererStore ID D) (id : ID) : Option (Finset (ID × List ID)) :=
  let sets := ((s.pendingRows.rows.filter fun row => row.id = id).map fun row =>
    (row.childId, row.setDigest)).dedup
  if sets.isEmpty then none
  else some (sets.map fun set => (set.1, s.parentIds set.1 set.2)).toFinset

/-- `SELECT .. WHERE in_queue = TRUE ORDER BY queue_index ASC`. -/
def queueRows (s : OrdererStore ID D) : List (ReadyRow ID) :=
  (s.readyRows.rows.filter ReadyRow.inQueue).insertionSort fun a b => a.queueIndex ≤ b.queueIndex

def takeNextReady (s : OrdererStore ID D) : OrdererStore ID D × Option ID :=
  match s.queueRows.head? with
  | none => (s, none)
  | some row =>
    let readyRows := s.readyRows.updateWhere (fun other => other.id = row.id)
      (fun other => ⟨other.id, other.queueIndex, false⟩) (fun _ => rfl)
    (⟨readyRows, s.pendingRows⟩, some row.id)

def removePending (s : OrdererStore ID D) (id : ID) : OrdererStore ID D × Bool :=
  let pendingRows := s.pendingRows.deleteWhere fun row => row.id = id
  (⟨s.readyRows, pendingRows⟩, s.pendingRows.rows.any fun row => row.id = id)

/-- Whether as many rows of the ready table have one of the passed keys as keys were passed. -/
def ready (s : OrdererStore ID D) (dependencies : List ID) : Bool :=
  (s.readyRows.rows.filter fun row => row.id ∈ dependencies).length == dependencies.length

end Statements

/-! ## What the queries say -/

variable {ID D : Type} {row : ReadyRow ID}

def readyIds (s : OrdererStore ID D) : List ID := s.readyRows.rows.map ReadyRow.id

/-- There are rows that say that `child` waits for `id`. -/
def Waits (s : OrdererStore ID D) (id child : ID) : Prop :=
  ∃ row ∈ s.pendingRows.rows, row.id = id ∧ row.childId = child

theorem nodup_readyIds (s : OrdererStore ID D) : s.readyIds.Nodup := s.readyRows.unique

theorem queueIndex_le_lastIndex {s : OrdererStore ID D} (h : row ∈ s.readyRows.rows) :
    row.queueIndex ≤ s.lastIndex := by
  unfold lastIndex
  generalize s.readyRows.rows = rows at h
  induction rows with
  | nil => simp at h
  | cons head rows ih =>
    rcases mem_cons.mp h with rfl | h
    · exact le_max_left _ _
    · exact (ih h).trans (le_max_right _ _)

/-! ## The queue -/

def queue (s : OrdererStore ID D) : List ID := s.queueRows.map ReadyRow.id

/-- The `UNIQUE` constraint on `queue_index`. -/
def Indexed (s : OrdererStore ID D) : Prop := (s.readyRows.rows.map ReadyRow.queueIndex).Nodup

variable {s : OrdererStore ID D} {t : OrdererStore ID D}

theorem mem_queueRows : row ∈ s.queueRows ↔ row ∈ s.readyRows.rows ∧ row.inQueue = true := by
  rw [queueRows, mem_insertionSort, mem_filter]

theorem pairwise_queueRows (h : s.Indexed) :
    s.queueRows.Pairwise fun a b => a.queueIndex < b.queueIndex := by
  have hle : s.queueRows.Pairwise fun a b => a.queueIndex ≤ b.queueIndex :=
    pairwise_insertionSort _ _
  have hne : s.queueRows.Pairwise fun a b => a.queueIndex ≠ b.queueIndex := by
    have hnd : (s.queueRows.map ReadyRow.queueIndex).Nodup := by
      rw [queueRows, ((perm_insertionSort _ _).map _).nodup_iff]
      exact h.sublist (filter_sublist.map _)
    exact pairwise_map.mp hnd
  exact hle.imp₂ (fun _ _ hle hne => lt_of_le_of_ne hle hne) hne

theorem queueRows_eq {rows : List (ReadyRow ID)}
    (hrows : rows.Pairwise fun a b => a.queueIndex < b.queueIndex)
    (hperm : rows.Perm (s.readyRows.rows.filter ReadyRow.inQueue)) : s.queueRows = rows := by
  have hnd : (rows.map ReadyRow.queueIndex).Nodup := pairwise_map.mpr (hrows.imp fun h => h.ne)
  have hsort : s.queueRows.Perm rows := (perm_insertionSort _ _).trans hperm.symm
  apply hsort.eq_of_pairwise _ (pairwise_insertionSort _ _) (hrows.imp fun h => h.le)
  intro a b ha hb hab hba
  exact inj_on_of_nodup_map hnd (hsort.mem_iff.mp ha) hb (le_antisymm hab hba)

theorem queueRows_concat (h : s.Indexed) (row : ReadyRow ID)
    (hidx : row.queueIndex = s.lastIndex + 1)
    (hperm : (s.readyRows.rows.filter ReadyRow.inQueue ++ [row]).Perm
      (t.readyRows.rows.filter ReadyRow.inQueue)) : t.queueRows = s.queueRows ++ [row] := by
  apply queueRows_eq
  · rw [pairwise_append]
    refine ⟨pairwise_queueRows h, pairwise_singleton _ _, fun a ha b hb => ?_⟩
    rw [mem_singleton] at hb
    subst hb
    rw [hidx]
    exact Nat.lt_succ_of_le (queueIndex_le_lastIndex (mem_queueRows.mp ha).1)
  · exact ((perm_insertionSort _ _).append_right _).trans hperm

variable [LinearOrder ID] {k : ID} {rest : List (ReadyRow ID)}

theorem isReady_iff : s.isReady k = true ↔ k ∈ s.readyIds := by
  rw [isReady, Option.isSome_iff_ne_none, ne_eq, Table.find?_eq_none, not_not]
  rfl

theorem ready_iff {l : List ID} : s.ready l = true ↔ l.Nodup ∧ ∀ k ∈ l, k ∈ s.readyIds := by
  let found := (s.readyRows.rows.filter fun row => row.id ∈ l).map ReadyRow.id
  have hnd : found.Nodup := s.nodup_readyIds.sublist (filter_sublist.map _)
  have hmem : ∀ k, k ∈ found ↔ k ∈ l ∧ k ∈ s.readyIds := by
    intro k
    simp only [found, readyIds, mem_map, mem_filter, decide_eq_true_eq]
    constructor
    · rintro ⟨row, ⟨hrow, hl⟩, rfl⟩
      exact ⟨hl, row, hrow, rfl⟩
    · rintro ⟨hl, row, hrow, rfl⟩
      exact ⟨row, ⟨hrow, hl⟩, rfl⟩
  have hsub : found.Subperm l := hnd.subperm fun k hk => ((hmem k).mp hk).1
  have hlen : s.ready l = true ↔ found.length = l.length := by
    simp [ready, found]
  rw [hlen]
  constructor
  · intro h
    have hperm : found.Perm l := hsub.perm_of_length_le h.ge
    exact ⟨hperm.nodup_iff.mp hnd, fun k hk => ((hmem k).mp (hperm.mem_iff.mpr hk)).2⟩
  · rintro ⟨hl, hrdy⟩
    have hsub' : l.Subperm found := hl.subperm fun k hk => (hmem k).mpr ⟨hk, hrdy k hk⟩
    exact (hsub.antisymm hsub').length_eq

/-! ## Marking an item as ready -/

theorem rows_markReady_of_notMem (h : k ∉ s.readyIds) :
    (s.markReady k).1.readyRows.rows = s.readyRows.rows ++ [⟨k, s.lastIndex + 1, true⟩] := by
  unfold markReady
  rw [find?_eq_none.mpr h]
  exact rows_insertOrIgnore_of_notMem h

theorem rows_markReady_of_mem (h : k ∈ s.readyIds) :
    (s.markReady k).1 = s ∨ (∃ row ∈ s.readyRows.rows, row.id = k ∧ row.inQueue = false) ∧
      (s.markReady k).1.readyRows.rows = s.readyRows.rows.map fun row =>
        if row.id = k then ⟨row.id, s.lastIndex + 1, true⟩ else row := by
  cases hfind : s.readyRows.find? k with
  | none => exact absurd h (find?_eq_none.mp hfind)
  | some row =>
    have hrow := find?_eq_some.mp hfind
    cases hq : row.inQueue with
    | true =>
      simp [markReady, hfind, hq]
    | false =>
      right
      refine ⟨⟨row, hrow.1, hrow.2, hq⟩, ?_⟩
      simp [markReady, hfind, hq, updateWhere]

@[simp] theorem pendingRows_markReady (k : ID) :
    (s.markReady k).1.pendingRows = s.pendingRows := by
  unfold markReady
  cases s.readyRows.find? k with
  | none => rfl
  | some row =>
    dsimp only
    split <;> rfl

@[simp] theorem waits_markReady (k i c : ID) : (s.markReady k).1.Waits i c ↔ s.Waits i c := by
  simp only [Waits, pendingRows_markReady]

theorem readyIds_markReady_of_notMem (h : k ∉ s.readyIds) :
    (s.markReady k).1.readyIds = s.readyIds ++ [k] := by
  rw [readyIds, rows_markReady_of_notMem h, map_append]
  rfl

theorem readyIds_markReady_of_mem (h : k ∈ s.readyIds) :
    (s.markReady k).1.readyIds = s.readyIds := by
  rcases rows_markReady_of_mem h with heq | ⟨-, hrows⟩
  · rw [heq]
  · rw [readyIds, hrows]
    apply map_map_ite
    exact fun _ => rfl

theorem queue_markReady_of_mem (h : s.Indexed) (hk : k ∈ s.readyIds) :
    (s.markReady k).1.queue = s.queue ∨ (s.markReady k).1.queue = s.queue ++ [k] := by
  rcases rows_markReady_of_mem hk with heq | ⟨⟨row, hrow, rfl, hout⟩, hrows⟩
  · left
    rw [heq]
  · right
    obtain ⟨before, after, hspl, hupd⟩ := s.readyRows.map_update_eq hrow
    rw [queue, queueRows_concat h ⟨row.id, s.lastIndex + 1, true⟩ rfl, map_append]
    · rfl
    · rw [hrows, hupd fun row => ⟨row.id, s.lastIndex + 1, true⟩, hspl,
        filter_append, filter_append, filter_cons_of_neg (by simp [hout]),
        append_assoc]
      apply List.Perm.append_left
      exact perm_append_singleton _ _

theorem Indexed.markReady (h : s.Indexed) (k : ID) : (s.markReady k).1.Indexed := by
  have hfresh : s.lastIndex + 1 ∉ s.readyRows.rows.map ReadyRow.queueIndex := by
    rw [mem_map]
    rintro ⟨row, hrow, hidx⟩
    have hle := queueIndex_le_lastIndex hrow
    omega
  by_cases hk : k ∈ s.readyIds
  · rcases rows_markReady_of_mem hk with heq | ⟨⟨row, hrow, rfl, -⟩, hrows⟩
    · rw [heq]
      exact h
    · obtain ⟨before, after, hspl, hupd⟩ := s.readyRows.map_update_eq hrow
      unfold Indexed at h ⊢
      rw [hrows, hupd fun row => ⟨row.id, s.lastIndex + 1, true⟩]
      rw [hspl, map_append, map_cons] at h hfresh
      rw [map_append, map_cons, nodup_middle, nodup_cons]
      rw [nodup_middle, nodup_cons] at h
      refine ⟨fun hmem => hfresh ?_, h.2⟩
      rw [mem_append] at hmem ⊢
      rcases hmem with hmem | hmem
      · exact Or.inl hmem
      · exact Or.inr (mem_cons_of_mem _ hmem)
  · unfold Indexed
    rw [rows_markReady_of_notMem hk, map_append, map_singleton, ← concat_eq_append]
    exact List.Nodup.concat hfresh h

/-! ## Taking from the queue -/

theorem takeNextReady_of_nil (h : s.queueRows = []) : s.takeNextReady = (s, none) := by
  rw [takeNextReady, h]
  rfl

theorem takeNextReady_of_cons (h : s.queueRows = row :: rest) : s.takeNextReady.2 = some row.id ∧
      s.takeNextReady.1.pendingRows = s.pendingRows ∧
      s.takeNextReady.1.readyRows.rows = s.readyRows.rows.map fun other =>
        if other.id = row.id then ⟨other.id, other.queueIndex, false⟩ else other := by
  rw [takeNextReady, h]
  simp [updateWhere]

theorem takeNextReady_eq (h : s.queueRows = row :: rest) :
    s.takeNextReady = (s.takeNextReady.1, some row.id) :=
  Prod.ext rfl (takeNextReady_of_cons h).1

theorem readyIds_takeNextReady : s.takeNextReady.1.readyIds = s.readyIds := by
  cases hq : s.queueRows with
  | nil => rw [takeNextReady_of_nil hq]
  | cons row rest =>
    rw [readyIds, (takeNextReady_of_cons hq).2.2]
    apply map_map_ite
    exact fun _ => rfl

theorem Indexed.takeNextReady (h : s.Indexed) : s.takeNextReady.1.Indexed := by
  cases hq : s.queueRows with
  | nil =>
    rw [takeNextReady_of_nil hq]
    exact h
  | cons row rest =>
    rw [Indexed, (takeNextReady_of_cons hq).2.2, map_map_ite]
    · exact h
    · exact fun _ => rfl

theorem queueRows_takeNextReady (h : s.Indexed) (hq : s.queueRows = row :: rest) :
    s.takeNextReady.1.queueRows = rest := by
  have hrow := mem_queueRows.mp (hq ▸ mem_cons_self)
  have hsort := pairwise_queueRows h
  have hperm : s.queueRows.Perm (s.readyRows.rows.filter ReadyRow.inQueue) := perm_insertionSort _ _
  rw [hq] at hsort hperm
  obtain ⟨before, after, hspl, hupd⟩ := s.readyRows.map_update_eq hrow.1
  apply queueRows_eq (pairwise_cons.mp hsort).2
  rw [(takeNextReady_of_cons hq).2.2,
    hupd fun other => ⟨other.id, other.queueIndex, false⟩, filter_append]
  rw [hspl, filter_append, filter_cons_of_pos hrow.2] at hperm
  exact (hperm.trans perm_middle).cons_inv

/-! ## The pending table -/

def digestOf (digest : ID → List ID → D) (deps : ID → List ID) (child : ID) : D :=
  digest child ((deps child).insertionSort (· ≤ ·))

/-- Every row belongs to the one dependency list of its item, with a row for each other
dependency. -/
structure Tabled (digest : ID → List ID → D) (deps : ID → List ID) (s : OrdererStore ID D) :
    Prop where
  id_mem : ∀ row ∈ s.pendingRows.rows, row.id ∈ deps row.childId
  parent_mem : ∀ row ∈ s.pendingRows.rows, row.parentId ∈ deps row.childId
  setDigest : ∀ row ∈ s.pendingRows.rows, row.setDigest = digestOf digest deps row.childId
  whole : ∀ row ∈ s.pendingRows.rows, ∀ p ∈ deps row.childId,
    (⟨row.id, row.childId, p, row.setDigest⟩ : PendingRow ID D) ∈ s.pendingRows.rows

variable {digest : ID → List ID → D} {deps : ID → List ID} {i c : ID}

theorem Tabled.empty : Tabled digest deps (empty : OrdererStore ID D) := by
  constructor <;> simp [OrdererStore.empty]

theorem Tabled.mem_deps (h : Tabled digest deps s) (hw : s.Waits i c) : i ∈ deps c := by
  obtain ⟨row, hrow, rfl, rfl⟩ := hw
  exact h.id_mem row hrow

theorem Tabled.mem_rows (h : Tabled digest deps s) (hw : s.Waits i c) {p : ID} (hp : p ∈ deps c) :
    ⟨i, c, p, digestOf digest deps c⟩ ∈ s.pendingRows.rows := by
  obtain ⟨row, hrow, rfl, rfl⟩ := hw
  rw [← h.setDigest row hrow]
  exact h.whole row hrow p hp

theorem Tabled.of_pendingRows (h : Tabled digest deps s) (ht : t.pendingRows = s.pendingRows) :
    Tabled digest deps t := by
  cases t
  cases ht
  exact ⟨h.id_mem, h.parent_mem, h.setDigest, h.whole⟩

theorem Tabled.filter (h : Tabled digest deps s) {p : ID → Bool}
    (ht : t.pendingRows.rows = s.pendingRows.rows.filter fun row => p row.id) :
    Tabled digest deps t := by
  have hmem : ∀ row, row ∈ t.pendingRows.rows ↔ row ∈ s.pendingRows.rows ∧ p row.id = true := by
    intro row
    rw [ht, mem_filter]
  constructor
  · intro row hrow
    exact h.id_mem row ((hmem row).mp hrow).1
  · intro row hrow
    exact h.parent_mem row ((hmem row).mp hrow).1
  · intro row hrow
    exact h.setDigest row ((hmem row).mp hrow).1
  · intro row hrow p' hp
    rw [hmem] at hrow ⊢
    exact ⟨h.whole row hrow.1 p' hp, hrow.2⟩

variable [DecidableEq D]

theorem Tabled.mem_parentIds (h : Tabled digest deps s) (hw : s.Waits i c) {p : ID} :
    p ∈ s.parentIds c (digestOf digest deps c) ↔ p ∈ deps c := by
  simp only [parentIds, mem_insertionSort, mem_map, mem_filter, decide_eq_true_eq]
  constructor
  · rintro ⟨row, ⟨hrow, rfl, -⟩, rfl⟩
    exact h.parent_mem row hrow
  · intro hp
    exact ⟨_, ⟨h.mem_rows hw hp, rfl, rfl⟩, rfl⟩

theorem Tabled.nodup_parentIds (h : Tabled digest deps s) (hw : s.Waits i c) :
    (s.parentIds c (digestOf digest deps c)).Nodup ↔ ∀ j, s.Waits j c → j = i := by
  rw [parentIds, (perm_insertionSort _ _).nodup_iff]
  have hrows := s.pendingRows.unique
  rw [map_id'] at hrows
  rw [nodup_map_iff_inj_on (hrows.filter _)]
  simp only [mem_filter, decide_eq_true_eq]
  have hi : i ∈ deps c := h.mem_deps hw
  constructor
  · intro hinj j hj
    have hrow := hinj _ ⟨h.mem_rows hj hi, rfl, rfl⟩ _ ⟨h.mem_rows hw hi, rfl, rfl⟩ rfl
    exact congrArg PendingRow.id hrow
  · rintro hsole ⟨j, c1, p, g⟩ ⟨hrow, hc, hg⟩ ⟨j', c2, p', g'⟩ ⟨hrow', hc', hg'⟩ hp
    have hj : j = i := hsole j ⟨_, hrow, rfl, hc⟩
    have hj' : j' = i := hsole j' ⟨_, hrow', rfl, hc'⟩
    dsimp only at hc hc' hg hg' hp
    rw [hj, hj', hc, hc', hg, hg', hp]

/-- Counting finds the dependencies met when all are ready and the item waited for a single one. -/
theorem Tabled.ready_parentIds (h : Tabled digest deps s) (hw : s.Waits i c) :
    t.ready (s.parentIds c (digestOf digest deps c)) = true ↔
      (∀ j, s.Waits j c → j = i) ∧ ∀ d ∈ deps c, d ∈ t.readyIds := by
  rw [ready_iff, h.nodup_parentIds hw]
  simp only [h.mem_parentIds hw]

theorem getNextPending_eq_none : s.getNextPending i = none ↔ ∀ c, ¬s.Waits i c := by
  simp only [getNextPending, List.isEmpty_iff, ite_eq_left_iff, reduceCtorEq, imp_false, not_not,
    List.dedup_eq_nil, List.map_eq_nil_iff, List.filter_eq_nil_iff, decide_eq_true_eq]
  constructor
  · rintro hnone c ⟨row, hrow, hid, -⟩
    exact hnone row hrow hid
  · intro hnone row hrow hid
    exact hnone row.childId ⟨row, hrow, hid, rfl⟩

theorem Tabled.mem_getNextPending (h : Tabled digest deps s) {dependents : Finset (ID × List ID)}
    (hnext : s.getNextPending i = some dependents) {l : List ID} :
    (c, l) ∈ dependents ↔ s.Waits i c ∧ l = s.parentIds c (digestOf digest deps c) := by
  simp only [getNextPending] at hnext
  split at hnext
  · cases hnext
  cases hnext
  simp only [mem_toFinset, mem_map, mem_dedup, mem_filter, decide_eq_true_eq, Prod.mk.injEq]
  constructor
  · rintro ⟨-, ⟨row, ⟨hrow, hid⟩, rfl⟩, rfl, rfl⟩
    rw [h.setDigest row hrow]
    exact ⟨⟨row, hrow, hid, rfl⟩, rfl⟩
  · rintro ⟨⟨row, hrow, hid, rfl⟩, rfl⟩
    exact ⟨_, ⟨row, ⟨hrow, hid⟩, rfl⟩, rfl, by rw [h.setDigest row hrow]⟩

/-! ## Marking an item as pending -/

theorem mem_foldl_insertPendingRow {l : List (PendingRow ID D)}
    {acc : PendingTable ID D × Bool} {row : PendingRow ID D} :
    row ∈ (l.foldl insertPendingRow acc).1.rows ↔ row ∈ acc.1.rows ∨ row ∈ l := by
  induction l generalizing acc with
  | nil => simp
  | cons head l ih =>
    rw [foldl_cons, ih, mem_cons, ← or_assoc, insertPendingRow, mem_rows_insertOrIgnore, map_id']
    apply or_congr_left
    rw [or_and_left, and_iff_left_iff_imp]
    rintro (h | rfl)
    · exact Or.inl h
    · exact em _

theorem mem_markPending {child : ID} {row : PendingRow ID D} :
    row ∈ (s.markPending digest child (deps child)).1.pendingRows.rows ↔
      row ∈ s.pendingRows.rows ∨ row.childId = child ∧ row.id ∈ deps child ∧
        row.id ∉ s.readyIds ∧ row.parentId ∈ deps child ∧
        row.setDigest = digestOf digest deps child := by
  simp only [markPending, mem_foldl_insertPendingRow]
  apply or_congr_right
  simp only [pendingRowsOf, mem_flatMap, mem_filter, mem_insertionSort, Bool.not_eq_true', mem_map]
  constructor
  · rintro ⟨id, ⟨hid, hrdy⟩, p, hp, rfl⟩
    rw [← Bool.not_eq_true, isReady_iff] at hrdy
    exact ⟨rfl, hid, hrdy, hp, rfl⟩
  · obtain ⟨id, childId, p, g⟩ := row
    rintro ⟨hc, hid, hrdy, hp, hg⟩
    dsimp only at hc hid hrdy hp hg
    subst hc hg
    rw [← isReady_iff, Bool.not_eq_true] at hrdy
    exact ⟨id, ⟨hid, hrdy⟩, p, hp, rfl⟩

theorem Tabled.markPending (h : Tabled digest deps s) (child : ID) :
    Tabled digest deps (s.markPending digest child (deps child)).1 := by
  constructor
  · intro row hrow
    rcases mem_markPending.mp hrow with hrow | ⟨rfl, hid, -⟩
    · exact h.id_mem row hrow
    · exact hid
  · intro row hrow
    rcases mem_markPending.mp hrow with hrow | ⟨rfl, -, -, hp, -⟩
    · exact h.parent_mem row hrow
    · exact hp
  · intro row hrow
    rcases mem_markPending.mp hrow with hrow | ⟨rfl, -, -, -, hg⟩
    · exact h.setDigest row hrow
    · exact hg
  · intro row hrow p hp
    rw [mem_markPending] at hrow ⊢
    rcases hrow with hrow | ⟨rfl, hid, hrdy, -, hg⟩
    · exact Or.inl (h.whole row hrow p hp)
    · exact Or.inr ⟨rfl, hid, hrdy, hp, hg⟩

theorem waits_markPending {child : ID} :
    (s.markPending digest child (deps child)).1.Waits i c ↔
      s.Waits i c ∨ c = child ∧ i ∈ deps child ∧ i ∉ s.readyIds := by
  constructor
  · rintro ⟨row, hrow, rfl, rfl⟩
    rcases mem_markPending.mp hrow with hrow | ⟨hc, hid, hrdy, -⟩
    · exact Or.inl ⟨row, hrow, rfl, rfl⟩
    · exact Or.inr ⟨hc, hid, hrdy⟩
  · rintro (⟨row, hrow, hid, hc⟩ | ⟨rfl, hid, hrdy⟩)
    · exact ⟨row, mem_markPending.mpr (Or.inl hrow), hid, hc⟩
    · exact ⟨⟨i, c, i, digestOf digest deps c⟩,
        mem_markPending.mpr (Or.inr ⟨rfl, hid, hrdy, hid, rfl⟩), rfl, rfl⟩

end OrdererStore

end P2Panda.Store
