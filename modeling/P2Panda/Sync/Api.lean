import P2Panda.Library.SlidingWindow
import P2Panda.Store.Operations

/-!
# Queries for sync and deduplication of messages
-/

namespace P2Panda.Sync

open P2Panda.Library P2Panda.Core P2Panda.Store HashMap OperationStore List

variable {V L TP T : Type}

structure DeduplicationBuffer (T : Type) where
  buffer : List T
  set : Finset T
  capacity : Nat

namespace DeduplicationBuffer

def new (capacity : Nat) : DeduplicationBuffer T := ⟨[], ∅, capacity⟩

theorem nodup_rtake_concat {c : Nat} (hc : 1 ≤ c) {accepted : List T}
    (h : (accepted.rtake c).Nodup) {item : T} (hnew : item ∉ accepted.rtake c) :
    ((accepted ++ [item]).rtake c).Nodup := by
  rw [rtake_concat hc, ← concat_eq_append]
  split_ifs
  · exact (h.sublist (tail_sublist _)).concat fun hmem => hnew (mem_of_mem_tail hmem)
  · exact h.concat hnew

variable [DecidableEq T] {d : DeduplicationBuffer T}

/-- Insert an item, at the expense of the oldest one if the capacity has been reached. A deque
without room for a single item grows. -/
def insert (d : DeduplicationBuffer T) (item : T) : DeduplicationBuffer T × Bool :=
  if item ∈ d.set then (d, false)
  else
    let d :=
      if d.buffer.length + 1 > d.capacity then
        match d.buffer with
        | [] => d
        | evicted :: buffer => ⟨buffer, d.set.erase evicted, d.capacity⟩
      else d
    (⟨d.buffer ++ [item], Insert.insert item d.set, max d.capacity (d.buffer.length + 1)⟩, true)

theorem insert_of_notMem {item : T} (h : item ∉ d.set) : (d.insert item).2 = true := by
  rw [insert, if_neg h]

theorem insert_of_duplicate {item : T} (h : ¬(d.insert item).2) : (d.insert item).1 = d := by
  by_cases hmem : item ∈ d.set
  · rw [insert, if_pos hmem]
  · exact absurd (insert_of_notMem hmem) h

theorem mem_of_mem_insert {item other : T} (h : other ∈ (d.insert item).1.set) :
    other = item ∨ other ∈ d.set := by
  unfold insert at h
  split at h
  · exact Or.inr h
  · rw [Finset.mem_insert] at h
    rcases h with h | h
    · exact Or.inl h
    · right
      split at h
      · split at h
        · exact h
        · exact Finset.mem_of_mem_erase h
      · exact h

/-- The buffer after some items, and those it has accepted. -/
def insertAll (capacity : Nat) (items : List T) : DeduplicationBuffer T × List T :=
  items.foldl (fun (d, accepted) item =>
    match d.insert item with
    | (d, true) => (d, accepted ++ [item])
    | (d, false) => (d, accepted)) (new capacity, [])

/-- A buffer with these items. -/
def holding (c : Nat) (items : List T) : DeduplicationBuffer T := ⟨items, items.toFinset, c⟩

theorem insert_holding {c : Nat} (hc : 1 ≤ c) {accepted : List T} (h : (accepted.rtake c).Nodup)
    (item : T) : (holding c (accepted.rtake c)).insert item =
      if item ∈ accepted.rtake c then (holding c (accepted.rtake c), false)
      else (holding c ((accepted ++ [item]).rtake c), true) := by
  have hlen := length_rtake c accepted
  have hset : ∀ rest : List T, Insert.insert item rest.toFinset = (rest ++ [item]).toFinset := by
    intro rest
    rw [toFinset_append, Finset.union_comm]
    rfl
  rw [rtake_concat hc]
  dsimp only [insert, holding]
  simp only [mem_toFinset]
  by_cases hmem : item ∈ accepted.rtake c
  · rw [if_pos hmem, if_pos hmem]
  · by_cases hfull : c ≤ accepted.length
    · obtain ⟨evicted, rest, hrtake⟩ := exists_cons_of_length_pos (l := accepted.rtake c) (by omega)
      rw [hrtake, nodup_cons, ← mem_toFinset] at h
      rw [hrtake, length_cons] at hlen
      have hold : (evicted :: rest).length + 1 > c := by
        rw [length_cons]
        omega
      simp only [hrtake, if_pos hfull, if_pos hold, toFinset_cons, Finset.erase_insert h.1,
        tail_cons, hset]
      rw [Nat.max_eq_left (by omega)]
    · have hroom : ¬(accepted.rtake c).length + 1 > c := by omega
      simp only [if_neg hfull, if_neg hroom, hset]
      rw [Nat.max_eq_left (by omega)]

theorem insertAll_eq {c : Nat} (hc : 1 ≤ c) (items : List T) :
    ((insertAll c items).2.rtake c).Nodup ∧
      (insertAll c items).1 = holding c ((insertAll c items).2.rtake c) := by
  induction items using List.reverseRecOn with
  | nil =>
    have hnone : (insertAll c ([] : List T)).2.rtake c = [] := rtake_nil c
    rw [hnone]
    exact ⟨nodup_nil, rfl⟩
  | append_singleton items item ih =>
    obtain ⟨hnd, hbuf⟩ := ih
    have hins := insert_holding hc hnd item
    rw [← hbuf] at hins
    have hcat : insertAll c (items ++ [item]) = match (insertAll c items).1.insert item with
        | (d, true) => (d, (insertAll c items).2 ++ [item])
        | (d, false) => (d, (insertAll c items).2) := by
      rw [insertAll, foldl_append]
      rfl
    rw [hcat, hins]
    by_cases hmem : item ∈ (insertAll c items).2.rtake c
    · rw [if_pos hmem]
      exact ⟨hnd, hbuf⟩
    · rw [if_neg hmem]
      exact ⟨nodup_rtake_concat hc hnd hmem, rfl⟩

/-- The buffer has its last accepted items, and rejects an item just if it is one of them. -/
theorem insert_eq_false_iff {c : Nat} (hc : 1 ≤ c) (items : List T) :
    (insertAll c items).1.buffer.Nodup ∧
      (insertAll c items).1.set = (insertAll c items).1.buffer.toFinset ∧
      (insertAll c items).1.buffer.length ≤ c ∧ ∀ item,
        ((insertAll c items).1.insert item).2 = false ↔ item ∈ (insertAll c items).2.rtake c := by
  obtain ⟨hnd, hbuf⟩ := insertAll_eq hc items
  rw [hbuf]
  refine ⟨hnd, rfl, (length_rtake _ _).trans_le (Nat.min_le_right _ _), fun item => ?_⟩
  rw [insert_holding hc hnd]
  split_ifs with hmem
  · exact iff_of_true rfl hmem
  · exact iff_of_false nofun hmem

theorem insert_eq_false_iff_two :
    (insertAll 2 [1, 3, 3, 4]).2.rtake 2 = [3, 4] ∧
      ((insertAll 2 [1, 3, 3, 4]).1.insert 3).2 = false :=
  ⟨by decide, ((insert_eq_false_iff (by decide) [1, 3, 3, 4]).2.2.2 3).2 (by decide)⟩

end DeduplicationBuffer

variable [DecidableEq L]

def logHeights (order : LogOrder VerifyingKey L) (store : OperationStore V L TP)
    (logs : Logs VerifyingKey L) : LogHeights VerifyingKey L :=
  (HashMap.entries order.author logs).foldl (fun result entry =>
    (store.getLogHeights entry.1 entry.2).elim result (result.insert entry.1)) ∅

def logRanges (order : LogOrder VerifyingKey L) (store : OperationStore V L TP)
    (ranges : LogRanges VerifyingKey L) : List (OperationRow V L) :=
  (HashMap.entries order.author ranges).flatMap fun author =>
    (HashMap.entries order.log author.2).flatMap fun log =>
      store.logEntries author.1 log.1 log.2

section Specification

variable {order : LogOrder VerifyingKey L} {store : OperationStore V L TP}

theorem lookupLog_logHeights (logs : Logs VerifyingKey L) (author : VerifyingKey) (logId : L) :
    lookupLog (logHeights order store logs) author logId =
      if logId ∈ (logs.lookup author).getD [] then store.logHeight author logId else none := by
  unfold lookupLog logHeights
  rw [lookup_foldl_entries
    (g := fun author logs heights => (store.getLogHeights author logs).elim heights some)]
  · cases logs.lookup author with
    | none => rfl
    | some logs =>
      rw [Option.getD_some, ← lookup_getLogHeights]
      dsimp only [Option.elim]
      cases store.getLogHeights author logs <;> rfl
  · intro heights author logs author'
    cases store.getLogHeights author logs with
    | none =>
      dsimp only [Option.elim]
      split_ifs with hkey
      · rw [hkey]
      · rfl
    | some new => exact lookup_insert_ite heights author author' new

theorem mem_logRanges {ranges : LogRanges VerifyingKey L} {row : OperationRow V L} :
    row ∈ logRanges order store ranges ↔ ∃ author logId range,
      lookupLog ranges author logId = some range ∧
        row ∈ store.logEntries author logId range := by
  unfold logRanges lookupLog
  constructor
  · intro hmem
    obtain ⟨⟨author, logs⟩, hlogs, hmem⟩ := mem_flatMap.mp hmem
    obtain ⟨⟨logId, range⟩, hrange, hrow⟩ := mem_flatMap.mp hmem
    rw [mem_entries] at hlogs hrange
    exact ⟨author, logId, range, by rw [hlogs]; exact hrange, hrow⟩
  · rintro ⟨author, logId, range, hlook, hrow⟩
    obtain ⟨logs, hlogs, hrange⟩ := Option.bind_eq_some_iff.mp hlook
    exact mem_flatMap.mpr ⟨(author, logs), mem_entries.mpr hlogs,
      mem_flatMap.mpr ⟨(logId, range), mem_entries.mpr hrange, hrow⟩⟩

theorem nodup_flatMap_entries {K α β : Type} [DecidableEq K] (o : HashOrder K) (m : HashMap K α)
    (f : K × α → List β) (key : β → K) (hnd : ∀ e, (f e).Nodup)
    (hkey : ∀ e, ∀ b ∈ f e, key b = e.1) : ((HashMap.entries o m).flatMap f).Nodup := by
  rw [nodup_flatMap]
  refine ⟨fun e _ => hnd e, ?_⟩
  have hkeys : (entries o m).Pairwise fun a b => a.1 ≠ b.1 :=
    pairwise_map.mp (nodup_fst_entries o m)
  apply hkeys.imp
  intro a b hne x ha hb
  exact hne ((hkey a x ha).symm.trans (hkey b x hb))

theorem nodup_logRanges (ranges : LogRanges VerifyingKey L) :
    (logRanges order store ranges).Nodup := by
  have hents : ∀ {author logId range} {row : OperationRow V L},
      row ∈ store.logEntries author logId range →
        row.header.verifyingKey = author ∧ row.logId = logId := by
    intro author logId range row hrow
    exact (mem_logRows.mp (mem_logEntries.mp hrow).1).2
  apply nodup_flatMap_entries _ _ _ fun row => row.header.verifyingKey
  · intro author
    apply nodup_flatMap_entries _ _ _ OperationRow.logId
    · intro log
      exact nodup_logEntries log.2
    · intro log row hrow
      exact (hents hrow).2
  · intro author row hrow
    obtain ⟨log, -, hrow⟩ := mem_flatMap.mp hrow
    exact (hents hrow).1

end Specification

end P2Panda.Sync
