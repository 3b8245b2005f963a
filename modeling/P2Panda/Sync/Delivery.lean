import P2Panda.Sync.Progress

/-!
# Operations that a session hands on

A session hands on each operation that it can read, unless its hash is in the deduplication buffer,
that is of an operation received or stored before.
-/

namespace P2Panda.Sync

open P2Panda.Core P2Panda.Store List DeduplicationBuffer OperationStore

variable {V E L TP ε : Type}

def LogSyncEvent.operation? : LogSyncEvent V E → Option (Operation V E)
  | metricsExchanged _ => none
  | operationReceived operation _ => some operation

def Session.operations (s : Session V E L ε) : List (Operation V E) :=
  s.events.filterMap LogSyncEvent.operation?

namespace Peer

def readOperation (p : Peer V E L TP ε) : Item L → Option (Operation V E)
  | .ok (.operation header body) =>
    match p.decode header with
    | .ok header => some ⟨header.digest, header, body⟩
    | .error _ => none
  | _ => none

def readOperations (p : Peer V E L TP ε) (items : List (Item L)) : List (Operation V E) :=
  items.filterMap p.readOperation

variable {p : Peer V E L TP ε} {s s' : Session V E L ε} {items : List (Item L)} {item : Item L}

theorem readOperations_append_none (h : p.readOperation item = none) :
    p.readOperations (items ++ [item]) = p.readOperations items := by
  rw [readOperations, filterMap_append, filterMap_cons_none h, filterMap_nil, append_nil]
  rfl

theorem readOperations_append_some {operation : Operation V E}
    (h : p.readOperation item = some operation) :
    p.readOperations (items ++ [item]) = p.readOperations items ++ [operation] := by
  rw [readOperations, filterMap_append, filterMap_cons_some h]
  rfl

/-- What the deduplication buffer and the events have to do with the items received. -/
structure Delivered (p : Peer V E L TP ε) (s : Session V E L ε) (items : List (Item L)) :
    Prop where
  dedup : ∀ hash ∈ s.dedup.set, hash ∈ (p.readOperations items).map Operation.hash ∨
    p.store.hasOperation hash = true
  operations : ((p.readOperations items).map Operation.hash).Nodup →
    (∀ operation ∈ p.readOperations items, p.store.hasOperation operation.hash = false) →
    s.operations = p.readOperations items

variable [DecidableEq L] {messages : List (LogSyncMessage L)}

omit [DecidableEq L] in
theorem operations_metricsExchanged (s : Session V E L ε) (remoteNeeds : LogRanges VerifyingKey L)
    (outboundOperations outboundBytes inboundOperations inboundBytes : UInt32)
    (syncDoneReceived : Bool) :
    (metricsExchanged s remoteNeeds outboundOperations outboundBytes inboundOperations
      inboundBytes syncDoneReceived).operations = s.operations := by
  rw [Session.operations, metricsExchanged, filterMap_append]
  exact append_nil _

/-- Receiving hands on the operation, unless it is a duplicate. -/
theorem receive_cases (h : p.receive s item = some (.ok s')) :
    (p.readOperation item = none ∧ s'.dedup = s.dedup ∧ s'.operations = s.operations) ∨
      ∃ operation, p.readOperation item = some operation ∧
        s'.dedup = (s.dedup.insert operation.hash).1 ∧
        s'.operations = if (s.dedup.insert operation.hash).2 then s.operations ++ [operation]
          else s.operations := by
  obtain ⟨state, received, sent, dedup, events⟩ := s
  unfold Peer.receive at h
  cases state with
  | receiveHave localHeights =>
    dsimp only at h
    split at h
    · cases h
    · cases h
      exact Or.inl ⟨rfl, rfl, rfl⟩
    · cases h
  | receivePreSyncOrDone remoteNeeds outboundOperations outboundBytes =>
    dsimp only at h
    split at h
    · cases h
    · cases h
      exact Or.inl ⟨rfl, rfl, operations_metricsExchanged _ _ _ _ _ _ _⟩
    · cases h
      exact Or.inl ⟨rfl, rfl, operations_metricsExchanged _ _ _ _ _ _ _⟩
    · cases h
  | exchange operations metrics =>
    dsimp only at h
    split at h
    · cases h
    · split at h
      · cases h
      · split at h
        · cases h
        · rename_i header hdcd
          right
          refine ⟨⟨header.digest, header, _⟩, by rw [readOperation, hdcd], ?_⟩
          split at h
          · rename_i hfresh
            cases h
            rw [if_pos hfresh]
            exact ⟨rfl, filterMap_append⟩
          · rename_i hdup
            cases h
            rw [if_neg hdup, insert_of_duplicate hdup]
            exact ⟨rfl, rfl⟩
      · cases h
        exact Or.inl ⟨rfl, rfl, rfl⟩
      · cases h
  | _ => cases h

omit [DecidableEq L] in
theorem Delivered.of_eq (h : p.Delivered s items) (hdedup : s'.dedup = s.dedup)
    (hevs : s'.events = s.events) : p.Delivered s' items := by
  constructor
  · rw [hdedup]
    exact h.dedup
  · rw [Session.operations, hevs]
    exact h.operations

theorem mem_rows_of_mem_outbound {remote : LogHeights VerifyingKey L} {row : OperationRow V L}
    (h : row ∈ p.outbound remote) : row ∈ p.store.operations.rows := by
  obtain ⟨author, logId, range, -, hent⟩ := mem_logRanges.mp h
  exact (mem_logRows.mp (mem_logEntries.mp hent).1).1

theorem Delivered.send (h : p.Delivered s items) (hprog : p.Progress s items messages)
    {message : Option (LogSyncMessage L)} (hsend : p.send s = some (.ok (s', message))) :
    p.Delivered s' items := by
  obtain ⟨hevs, hdedup | ⟨row, operations, metrics, hst, hdedup⟩⟩ := send_cases hsend
  · exact h.of_eq hdedup hevs
  · have hstor : p.store.hasOperation row.hash = true := by
      unfold Progress at hprog
      rw [hst] at hprog
      obtain ⟨remote, size, rows, -, hrows, -⟩ := hprog
      have hmem : row ∈ p.outbound remote := by
        rw [hrows]
        exact mem_append_right _ mem_cons_self
      exact hasOperation_iff.mpr (mem_map_of_mem (mem_rows_of_mem_outbound hmem))
    constructor
    · intro hash hhash
      rw [hdedup] at hhash
      rcases mem_of_mem_insert hhash with rfl | hhash
      · exact Or.inr hstor
      · exact h.dedup hash hhash
    · rw [Session.operations, hevs]
      exact h.operations

theorem Delivered.receive (h : p.Delivered s items) (hrcv : p.receive s item = some (.ok s')) :
    p.Delivered s' (items ++ [item]) := by
  rcases receive_cases hrcv with ⟨hread, hdedup, hops⟩ | ⟨operation, hread, hdedup, hops⟩
  · constructor
    · rw [readOperations_append_none hread, hdedup]
      exact h.dedup
    · rw [readOperations_append_none hread, hops]
      exact h.operations
  · constructor
    · intro hash hhash
      rw [readOperations_append_some hread, map_append, mem_append]
      rw [hdedup] at hhash
      rcases mem_of_mem_insert hhash with rfl | hhash
      · exact Or.inl (Or.inr (mem_singleton.mpr rfl))
      · exact (h.dedup hash hhash).imp_left Or.inl
    · rw [readOperations_append_some hread, map_append]
      intro hnd hstor
      have hnew : operation.hash ∉ s.dedup.set := by
        intro hmem
        rcases h.dedup _ hmem with hhash | hhash
        · rw [nodup_append] at hnd
          exact hnd.2.2 _ hhash _ (mem_singleton.mpr rfl) rfl
        · rw [hstor operation (by simp)] at hhash
          cases hhash
      rw [hops, insert_of_notMem hnew, if_pos rfl,
        h.operations hnd.of_append_left fun operation hmem =>
          hstor operation (mem_append_left _ hmem)]

theorem delivered_of_trace {ended : Bool} (h : Trace p s items messages ended)
    (hactv : ∀ error, s.state ≠ .failed error) : p.Delivered s items := by
  induction h with
  | init => exact ⟨fun _ hhash => (Finset.notMem_empty _ hhash).elim, fun _ _ => rfl⟩
  | quiet trace step ih =>
    cases step with
    | advance hsend =>
      have hdlv := ih (running_of_send hsend).ne_failed
      exact hdlv.send (progress_of_trace trace) hsend
    | sendError => exact absurd rfl (hactv _)
    | finish state => exact (ih (by simp [state])).of_eq rfl rfl
  | sends trace step ih =>
    cases step with
    | send hsend =>
      have hdlv := ih (running_of_send hsend).ne_failed
      exact hdlv.send (progress_of_trace trace) hsend
  | receives trace step ih =>
    cases step with
    | receive hrcv => exact (ih (running_of_receive hrcv).ne_failed).receive hrcv
    | receiveError => exact absurd rfl (hactv _)
  | ends trace step ih =>
    cases step with
    | closed => exact absurd rfl (hactv _)
    | finishEnded state => exact (ih (by simp [state])).of_eq rfl rfl
  | interrupts trace step ih =>
    cases step with
    | interrupted => exact absurd rfl (hactv _)

end Peer

end P2Panda.Sync
