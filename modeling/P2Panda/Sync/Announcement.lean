import P2Panda.Sync.Progress

/-!
# What a session announces

The announced bytes are the sum over the operations to be sent, as a machine word. With zero bytes,
the session takes it that there is nothing to send.
-/

namespace P2Panda.Sync

open P2Panda.Library P2Panda.Core P2Panda.Store List

variable {V E L TP ε : Type}

def totalBytes (rows : List (OperationRow V L)) : Nat :=
  (rows.map fun row => row.header.size.toNat + row.header.payloadSize.toNat).sum

theorem totalBytes_append (rows rows' : List (OperationRow V L)) :
    totalBytes (rows ++ rows') = totalBytes rows + totalBytes rows' := by
  rw [totalBytes, map_append, sum_append]
  rfl

theorem totalBytes_pos {rows : List (OperationRow V L)} (h : rows ≠ [])
    (hsize : ∀ row ∈ rows, 0 < row.header.size.toNat) : 0 < totalBytes rows := by
  obtain ⟨row, rows, rfl⟩ := exists_cons_of_ne_nil h
  have hrow := hsize row mem_cons_self
  rw [totalBytes, map_cons, sum_cons]
  omega

theorem foldlM_bytes {α σ : Type} {step : UInt32 × UInt32 → α → Outcome σ (UInt32 × UInt32)}
    (rows : α → List (OperationRow V L))
    (hstep : ∀ total a total', step total a = .ok total' →
      total'.2 = total.2 + UInt32.ofNat (totalBytes (rows a)))
    {list : List α} {total total' : UInt32 × UInt32} (h : list.foldlM step total = .ok total') :
    total'.2 = total.2 + UInt32.ofNat (totalBytes (list.flatMap rows)) := by
  induction list generalizing total with
  | nil =>
    cases h
    exact (UInt32.add_zero _).symm
  | cons a list ih =>
    obtain ⟨next, hnext, hrest⟩ := Outcome.bind_eq_ok.mp h
    rw [ih hrest, hstep total a next hnext, flatMap_cons, totalBytes_append, UInt32.ofNat_add,
      UInt32.add_assoc]

variable [DecidableEq L]

theorem logEntries_perm (store : OperationStore V L TP) (author : VerifyingKey) (logId : L)
    (range : LogRange) :
    (store.logEntries author logId range).Perm (store.rangeRows author logId range) :=
  perm_insertionSort (fun a b : OperationRow V L => a.header.seqNum.toNat ≤ b.header.seqNum.toNat) _

theorem getLogSize_eq_ok {store : OperationStore V L TP} {checks : Bool} {author : VerifyingKey}
    {logId : L} {range : LogRange} {size : UInt32 × UInt32}
    (h : store.getLogSize checks author logId range = .ok size) :
    size.2 = UInt32.ofNat (totalBytes (store.logEntries author logId range)) := by
  have hperm := logEntries_perm store author logId range
  unfold OperationStore.getLogSize at h
  dsimp only at h
  split at h
  · obtain ⟨total, htotal, hsize⟩ := Outcome.bind_eq_ok.mp h
    cases hsize
    rw [← overflowing_eq_ok htotal, totalBytes, (hperm.map _).sum_eq, sum_map_add,
      UInt32.ofNat_add]
  · cases h

namespace Peer

variable {p : Peer V E L TP ε} {size : UInt32 × UInt32} {remoteNeeds : LogRanges VerifyingKey L}

theorem outboundSize_bytes (h : p.outboundSize remoteNeeds = .ok size) :
    size.2 = UInt32.ofNat (totalBytes (logRanges p.order p.store remoteNeeds)) := by
  have htotal := foldlM_bytes (fun author : VerifyingKey × HashMap L LogRange =>
    (HashMap.entries p.order.log author.2).flatMap fun log =>
      p.store.logEntries author.1 log.1 log.2) ?_ h
  · rw [htotal]
    exact UInt32.zero_add _
  · intro total author total' hinn
    refine foldlM_bytes (fun log : L × LogRange =>
      p.store.logEntries author.1 log.1 log.2) ?_ hinn
    intro total log total' hlog
    obtain ⟨inner, hinn, hsum⟩ := Outcome.bind_eq_ok.mp hlog
    obtain ⟨operations, -, hsum⟩ := Outcome.bind_eq_ok.mp hsum
    obtain ⟨bytes, hbytes, hsum⟩ := Outcome.bind_eq_ok.mp hsum
    cases hsum
    rw [← getLogSize_eq_ok (Outcome.mapErr_eq_ok.mp hinn)]
    exact (overflowing_eq_ok hbytes).symm

theorem outbound_eq_nil {remote : LogHeights VerifyingKey L}
    (hsize : p.outboundSize (p.needs remote) = .ok size) (hzero : ¬size.2 > 0)
    (hpos : ∀ row ∈ p.outbound remote, 0 < row.header.size.toNat)
    (hbound : totalBytes (p.outbound remote) < UInt32.size) : p.outbound remote = [] := by
  by_contra hne
  have htotal := totalBytes_pos hne hpos
  apply hzero
  rw [outboundSize_bytes hsize]
  change UInt32.ofNat (totalBytes (p.outbound remote)) > 0
  rw [gt_iff_lt, UInt32.lt_iff_toNat_lt, UInt32.toNat_ofNat_of_lt' hbound]
  exact htotal

end Peer

end P2Panda.Sync
