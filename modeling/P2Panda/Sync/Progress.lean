import P2Panda.Sync.LogSync

/-!
# How far a session has got

What a session has sent follows a script fixed by its own logs and the heights of the remote; what
it has received without failing has the form of such a script.
-/

namespace P2Panda.Sync

open P2Panda.Core P2Panda.Store Peer List

variable {V E L TP ε : Type} [DecidableEq L]

namespace Peer

variable (p : Peer V E L TP ε)

def needs (remote : LogHeights VerifyingKey L) : LogRanges VerifyingKey L :=
  compare p.order p.localHeights remote

def outbound (remote : LogHeights VerifyingKey L) : List (OperationRow V L) :=
  logRanges p.order p.store (p.needs remote)

def opening (size : UInt32 × UInt32) : LogSyncMessage L :=
  if size.2 > 0 then .preSync size.1 size.2 else .done

def Readable (header : Bytes) : Prop := ∃ h, p.decode header = .ok h

/-- The operations are received and the remote has not finished yet. -/
def Receiving (remote : LogHeights VerifyingKey L) (items : List (Item L)) : Prop :=
  ∃ (size : UInt32 × UInt32) (raws : List (Bytes × Option Bytes)),
    items = .ok (.haveHeights remote) :: .ok (.preSync size.1 size.2) ::
      raws.map (fun raw => .ok (.operation raw.1 raw.2)) ∧
    ∀ raw ∈ raws, p.Readable raw.1

/-- What has been received with the heights of the remote. -/
def Received (remote : LogHeights VerifyingKey L) (items : List (Item L)) : Bool → Prop
  | false => p.Receiving remote items
  | true => items = [.ok (.haveHeights remote), .ok .done] ∨
      ∃ before, p.Receiving remote before ∧ items = before ++ [.ok .done]

/-- What has been sent when `rows` are through and `rest` is to come. -/
def Sent (size : UInt32 × UInt32) (rows rest : List (OperationRow V L))
    (messages : List (LogSyncMessage L)) (done : Bool) : Prop :=
  messages = .haveHeights p.localHeights :: opening size ::
      (rows.map p.operationMessage ++ if done ∧ size.2 > 0 then [.done] else []) ∧
    (done = true → size.2 > 0 → rest = []) ∧ (¬size.2 > 0 → done = true ∧ rows = [])

def Progress (s : Session V E L ε) (items : List (Item L)) (messages : List (LogSyncMessage L)) :
    Prop :=
  match s.state with
  | .start => items = [] ∧ messages = [] ∧ s.syncDoneReceived = false ∧ s.syncDoneSent = false
  | .sendHave => items = [] ∧ messages = [] ∧ s.syncDoneReceived = false ∧ s.syncDoneSent = false
  | .receiveHave localHeights =>
    items = [] ∧ messages = [.haveHeights p.localHeights] ∧ localHeights = p.localHeights ∧
      s.syncDoneReceived = false ∧ s.syncDoneSent = false
  | .sendPreSync remoteNeeds => ∃ remote, items = [.ok (.haveHeights remote)] ∧
      remoteNeeds = p.needs remote ∧ messages = [.haveHeights p.localHeights] ∧
      s.syncDoneReceived = false ∧ s.syncDoneSent = false
  | .receivePreSyncOrDone remoteNeeds outboundOperations outboundBytes =>
    ∃ remote, items = [.ok (.haveHeights remote)] ∧ remoteNeeds = p.needs remote ∧
      p.outboundSize remoteNeeds = .ok (outboundOperations, outboundBytes) ∧
      p.Sent (outboundOperations, outboundBytes) [] (p.outbound remote) messages
        s.syncDoneSent ∧
      s.syncDoneReceived = false
  | .sync remoteNeeds _ => ∃ remote size, p.Received remote items s.syncDoneReceived ∧
      remoteNeeds = p.needs remote ∧ p.outboundSize remoteNeeds = .ok size ∧
      p.Sent size [] (p.outbound remote) messages s.syncDoneSent
  | .exchange operations _ => ∃ remote size rows, p.Received remote items s.syncDoneReceived ∧
      p.outbound remote = rows ++ operations ∧ p.outboundSize (p.needs remote) = .ok size ∧
      p.Sent size rows operations messages s.syncDoneSent
  | .finish _ => ∃ remote size rows operations, p.Received remote items s.syncDoneReceived ∧
      p.outbound remote = rows ++ operations ∧ p.outboundSize (p.needs remote) = .ok size ∧
      p.Sent size rows operations messages true ∧ s.syncDoneSent = true
  | .failed _ => True

variable {p} {s s' : Session V E L ε} {items : List (Item L)} {item : Item L}
variable {messages : List (LogSyncMessage L)} {size : UInt32 × UInt32} {row : OperationRow V L}
  {operations : List (OperationRow V L)} {metrics : LogSyncMetrics}
  {rows rest : List (OperationRow V L)}

theorem send_sendPreSync {remoteNeeds : LogRanges VerifyingKey L}
    (hst : s.state = .sendPreSync remoteNeeds) (hsize : p.outboundSize remoteNeeds = .ok size) :
    p.send s = some (.ok (⟨.receivePreSyncOrDone remoteNeeds size.1 size.2, s.syncDoneReceived,
      if size.2 > 0 then s.syncDoneSent else true, s.dedup, s.events⟩, some (opening size))) := by
  unfold send opening
  rw [hst]
  dsimp only
  rw [hsize]
  dsimp only
  split
  · rfl
  · rfl

theorem outboundSize_of_send {remoteNeeds : LogRanges VerifyingKey L}
    {message : Option (LogSyncMessage L)} (hst : s.state = .sendPreSync remoteNeeds)
    (h : p.send s = some (.ok (s', message))) :
    ∃ size, p.outboundSize remoteNeeds = .ok size ∧
      (⟨.receivePreSyncOrDone remoteNeeds size.1 size.2, s.syncDoneReceived,
        if size.2 > 0 then s.syncDoneSent else true, s.dedup, s.events⟩, some (opening size)) =
        (s', message) := by
  cases hsize : p.outboundSize remoteNeeds with
  | ok size =>
    rw [send_sendPreSync hst hsize] at h
    exact ⟨size, rfl, Except.ok.inj (Option.some.inj h)⟩
  | err error =>
    unfold send at h
    rw [hst] at h
    dsimp only at h
    rw [hsize] at h
    cases h
  | panic message =>
    unfold send at h
    rw [hst] at h
    dsimp only at h
    rw [hsize] at h
    cases h

theorem send_exchange_cons (hst : s.state = .exchange (row :: operations) metrics)
    (hsent : s.syncDoneSent = false) :
    p.send s = some (.ok (⟨.exchange operations
        { metrics with
          sentBytes := metrics.sentBytes + rawSize (p.encode row.header) row.body
          sentOperations := metrics.sentOperations + 1 },
      s.syncDoneReceived, false, (s.dedup.insert row.hash).1, s.events⟩,
      some (p.operationMessage row))) := by
  unfold send
  rw [hst, hsent]
  rfl

theorem send_exchange_nil (hst : s.state = .exchange [] metrics) (hsent : s.syncDoneSent = false) :
    p.send s = some (.ok (⟨.exchange [] metrics, s.syncDoneReceived, true, s.dedup, s.events⟩,
      some .done)) := by
  unfold send
  rw [hst, hsent]
  rfl

theorem sent_opening (size : UInt32 × UInt32) (rest : List (OperationRow V L)) :
    p.Sent size [] rest [.haveHeights p.localHeights, opening size]
      (if size.2 > 0 then false else true) := by
  by_cases hpos : size.2 > 0
  · rw [if_pos hpos]
    exact ⟨by simp, nofun, fun hzero => absurd hpos hzero⟩
  · rw [if_neg hpos]
    exact ⟨by simp [hpos], fun _ h => absurd h hpos, fun _ => ⟨rfl, rfl⟩⟩

theorem Sent.pos (h : p.Sent size rows rest messages false) : size.2 > 0 := by
  by_contra hnot
  cases (h.2.2 hnot).1

theorem Sent.finish {rows : List (OperationRow V L)} (h : p.Sent size rows [] messages false) :
    p.Sent size rows [] (messages ++ [.done]) true := by
  refine ⟨?_, fun _ _ => rfl, fun hnot => absurd h.pos hnot⟩
  rw [h.1, if_neg (by simp), if_pos ⟨rfl, h.pos⟩, append_nil]
  rfl

theorem Sent.next (h : p.Sent size rows (row :: rest) messages false) :
    p.Sent size (rows ++ [row]) rest (messages ++ [p.operationMessage row]) false := by
  refine ⟨?_, fun hdone => (by cases hdone), fun hnot => absurd h.pos hnot⟩
  rw [h.1, if_neg (by simp), map_append, append_nil, append_nil]
  rfl

theorem Progress.send (h : p.Progress s items messages) {message : Option (LogSyncMessage L)}
    (hsend : p.send s = some (.ok (s', message))) :
    p.Progress s' items (messages ++ message.toList) := by
  obtain ⟨state, received, sent, dedup, events⟩ := s
  cases state with
  | start =>
    cases hsend
    rw [Option.toList_none, append_nil]
    exact h
  | sendHave =>
    cases hsend
    obtain ⟨rfl, rfl, hrecv, hsent⟩ := h
    exact ⟨rfl, rfl, rfl, hrecv, hsent⟩
  | receiveHave => cases hsend
  | sendPreSync remoteNeeds =>
    obtain ⟨remote, rfl, rfl, rfl, hrecv, hsent⟩ := h
    subst hsent
    obtain ⟨size, hsize, hopens⟩ := outboundSize_of_send rfl hsend
    cases hopens
    exact ⟨remote, rfl, rfl, hsize, sent_opening size _, hrecv⟩
  | receivePreSyncOrDone => cases hsend
  | sync remoteNeeds metrics =>
    cases hsend
    obtain ⟨remote, size, hrecv, rfl, hsize, hsent⟩ := h
    rw [Option.toList_none, append_nil]
    exact ⟨remote, size, [], hrecv, rfl, hsize, hsent⟩
  | exchange operations metrics =>
    obtain ⟨remote, size, rows, hrecv, hrows, hsize, hsent⟩ := h
    cases sent with
    | true => cases hsend
    | false =>
      cases operations with
      | nil =>
        cases hsend
        exact ⟨remote, size, rows, hrecv, hrows, hsize, hsent.finish⟩
      | cons row operations =>
        cases hsend
        refine ⟨remote, size, rows ++ [row], hrecv, ?_, hsize, hsent.next⟩
        rw [hrows, append_assoc]
        rfl
  | finish => cases hsend
  | failed => cases hsend

omit [DecidableEq L] in
theorem Receiving.append {remote : LogHeights VerifyingKey L} {header : Bytes}
    (h : p.Receiving remote items) (hhdr : p.Readable header) (body : Option Bytes) :
    p.Receiving remote (items ++ [.ok (.operation header body)]) := by
  obtain ⟨size, raws, rfl, hraws⟩ := h
  refine ⟨size, raws ++ [(header, body)], ?_, forall_mem_append.mpr
    ⟨hraws, forall_mem_singleton.mpr hhdr⟩⟩
  rw [map_append]
  rfl

theorem Progress.receive (h : p.Progress s items messages)
    (hrcv : p.receive s item = some (.ok s')) :
    p.Progress s' (items ++ [item]) messages := by
  obtain ⟨state, received, sent, dedup, events⟩ := s
  cases state with
  | start => cases hrcv
  | sendHave => cases hrcv
  | receiveHave localHeights =>
    obtain ⟨rfl, rfl, rfl, hrecv, hsent⟩ := h
    unfold receive at hrcv
    dsimp only at hrcv
    split at hrcv
    · cases hrcv
    · cases hrcv
      exact ⟨_, rfl, rfl, rfl, hrecv, hsent⟩
    · cases hrcv
  | sendPreSync => cases hrcv
  | receivePreSyncOrDone remoteNeeds outboundOperations outboundBytes =>
    obtain ⟨remote, rfl, rfl, hsize, hsent, hrecv⟩ := h
    subst hrecv
    unfold receive at hrcv
    dsimp only at hrcv
    split at hrcv
    · cases hrcv
    · rename_i totalOperations totalBytes
      cases hrcv
      exact ⟨remote, _, ⟨(totalOperations, totalBytes), [], rfl, by simp⟩, rfl, hsize, hsent⟩
    · cases hrcv
      exact ⟨remote, _, Or.inl rfl, rfl, hsize, hsent⟩
    · cases hrcv
  | sync => cases hrcv
  | exchange operations metrics =>
    obtain ⟨remote, size, rows, hrecv, hrows, hsize, hsent⟩ := h
    cases received with
    | true => cases hrcv
    | false =>
      unfold receive at hrcv
      dsimp only at hrcv
      rw [if_neg Bool.false_ne_true] at hrcv
      split at hrcv
      · cases hrcv
      · split at hrcv
        · cases hrcv
        · rename_i header hdcd
          have hreceived' := Receiving.append hrecv ⟨header, hdcd⟩
          split at hrcv
          · cases hrcv
            exact ⟨remote, size, rows, hreceived' _, hrows, hsize, hsent⟩
          · cases hrcv
            exact ⟨remote, size, rows, hreceived' _, hrows, hsize, hsent⟩
      · cases hrcv
        exact ⟨remote, size, rows, Or.inr ⟨items, hrecv, rfl⟩, hrows, hsize, hsent⟩
      · cases hrcv
  | finish => cases hrcv
  | failed => cases hrcv

theorem Progress.finish (h : p.Progress s items messages)
    (hst : s.state = .exchange operations metrics) (hsent : s.syncDoneSent = true) :
    p.Progress (s.goto (.finish metrics)) items messages := by
  unfold Progress at h
  rw [hst, hsent] at h
  obtain ⟨remote, size, rows, hrecv, hrows, hsize, hdone⟩ := h
  exact ⟨remote, size, rows, operations, hrecv, hrows, hsize, hdone, hsent⟩

theorem progress_of_trace {ended : Bool} (h : Trace p s items messages ended) :
    p.Progress s items messages := by
  induction h with
  | init => exact ⟨rfl, rfl, rfl, rfl⟩
  | quiet trace step ih =>
    cases step with
    | advance hsend =>
      have hnext := ih.send hsend
      rwa [Option.toList_none, append_nil] at hnext
    | sendError => trivial
    | finish state sent => exact ih.finish state sent
  | sends trace step ih =>
    cases step with
    | send hsend => exact ih.send hsend
  | receives trace step ih =>
    cases step with
    | receive hrcv => exact ih.receive hrcv
    | receiveError => trivial
  | ends trace step ih =>
    cases step with
    | closed => trivial
    | finishEnded state sent => exact ih.finish state sent
  | interrupts trace step ih =>
    cases step with
    | interrupted => trivial

end Peer

end P2Panda.Sync
