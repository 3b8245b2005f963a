import P2Panda.Sync.Progress
import P2Panda.Sync.Termination

/-!
# When a session succeeds

A session that succeeds has sent its "done" message. It has also received the one of the remote,
unless the stream ended during the exchange: this only disables the branch that receives.
-/

namespace P2Panda.Sync

open P2Panda.Library P2Panda.Core P2Panda.Store List Peer

variable {V E L TP ε : Type} [DecidableEq L]

/-- The items of a message stream, and whether it ends after them. -/
structure Inbound (L : Type) where
  items : List (Item L)
  ended : Bool

/-- A run on a message stream, with the items taken so far. -/
def Run (p : Peer V E L TP ε) (inbound : Inbound L) (s : Session V E L ε)
    (items : List (Item L)) (messages : List (LogSyncMessage L)) : Prop :=
  ∃ ended, Trace p s items messages ended ∧ items <+: inbound.items ∧
    (ended = true → inbound.ended = true ∧ items = inbound.items)

/-- A complete handshake and readable operations, without a "done" message. -/
def Truncated (p : Peer V E L TP ε) (items : List (Item L)) : Prop :=
  ∃ remote, p.Receiving remote items ∧ (p.outboundSize (p.needs remote)).IsOk

namespace Peer

variable {p : Peer V E L TP ε} {s s' : Session V E L ε} {items : List (Item L)}
variable {messages : List (LogSyncMessage L)} {metrics : LogSyncMetrics} {size : UInt32 × UInt32}
  {remote : LogHeights VerifyingKey L} {operations : List (OperationRow V L)} {inbound : Inbound L}

theorem done_mem_of_sent {rows rest : List (OperationRow V L)}
    (h : p.Sent size rows rest messages true) : .done ∈ messages := by
  rw [h.1]
  by_cases hpos : size.2 > 0
  · rw [if_pos ⟨rfl, hpos⟩]
    simp
  · rw [opening, if_neg hpos]
    simp

omit [DecidableEq L] in
theorem done_mem_of_received (h : p.Received remote items true) : .ok .done ∈ items := by
  rcases h with rfl | ⟨before, -, rfl⟩
  · simp
  · simp

omit [DecidableEq L] in
theorem done_notMem_of_receiving (h : p.Receiving remote items) : .ok .done ∉ items := by
  obtain ⟨size, raws, rfl, -⟩ := h
  simp

/-- A session that succeeds without the "done" message of the remote has seen the end of the
stream. -/
theorem ended_of_finish {ended : Bool} (h : Trace p s items messages ended)
    (hfin : s.state = .finish metrics) (hrecv : s.syncDoneReceived = false) :
    ended = true := by
  cases h with
  | init => cases hfin
  | quiet trace step =>
    cases step with
    | advance hsend => exact absurd hfin (state_ne_finish_of_send hsend)
    | sendError => cases hfin
    | finish _ _ received =>
      rw [Session.goto, received] at hrecv
      cases hrecv
  | sends trace step =>
    cases step with
    | send hsend => exact absurd hfin (state_ne_finish_of_send hsend)
  | receives trace step =>
    cases step with
    | receive hrcv => exact absurd hfin (state_ne_finish_of_receive hrcv)
    | receiveError => cases hfin
  | ends => rfl
  | interrupts trace step =>
    cases step with
    | interrupted => cases hfin

theorem exists_trace_receive (h : Trace p s items messages false)
    (hst : s.state = .exchange operations metrics) (hrecv : s.syncDoneReceived = false)
    {raws : List (Bytes × Option Bytes)} (hraws : ∀ raw ∈ raws, p.Readable raw.1) :
    ∃ s' metrics', Trace p s'
        (items ++ raws.map fun raw => .ok (.operation raw.1 raw.2)) messages false ∧
      s'.state = .exchange operations metrics' ∧ s'.syncDoneReceived = false := by
  induction raws generalizing s items metrics with
  | nil =>
    rw [map_nil, append_nil]
    exact ⟨s, metrics, h, hst, hrecv⟩
  | cons raw raws ih =>
    rw [forall_mem_cons] at hraws
    obtain ⟨header, hdcd⟩ := hraws.1
    obtain ⟨s1, metrics1, hrcv, hstate1, hreceived1⟩ : ∃ s1 metrics1,
        p.receive s (.ok (.operation raw.1 raw.2)) = some (.ok s1) ∧
        s1.state = .exchange operations metrics1 ∧ s1.syncDoneReceived = false := by
      unfold receive
      rw [hst, hrecv]
      dsimp only
      rw [if_neg Bool.false_ne_true, hdcd]
      dsimp only
      split
      · exact ⟨_, _, rfl, rfl, rfl⟩
      · exact ⟨_, _, rfl, rfl, hrecv⟩
    rw [map_cons, append_cons]
    exact ih (h.receives (.receive hrcv)) hstate1 hreceived1 hraws.2

theorem exists_trace_send {ended : Bool} (h : Trace p s items messages ended)
    (hst : s.state = .exchange operations metrics) (hrecv : s.syncDoneReceived = false) :
    ∃ s' messages' operations' metrics', Trace p s' items messages' ended ∧
      s'.state = .exchange operations' metrics' ∧ s'.syncDoneReceived = false ∧
      s'.syncDoneSent = true := by
  cases hsent : s.syncDoneSent with
  | true => exact ⟨s, messages, operations, metrics, h, hst, hrecv, hsent⟩
  | false =>
    induction operations generalizing s messages metrics with
    | nil =>
      have hsend := send_exchange_nil (p := p) hst hsent
      exact ⟨_, _, [], metrics, h.sends (.send hsend), rfl, hrecv, rfl⟩
    | cons row operations ih =>
      have hsend := send_exchange_cons (p := p) hst hsent
      exact ih (h.sends (.send hsend)) rfl hrecv rfl

theorem exists_trace_exchange (hsize : p.outboundSize (p.needs remote) = .ok size)
    (inbound : UInt32 × UInt32) :
    ∃ s messages operations metrics, Trace p s
        [.ok (.haveHeights remote), .ok (.preSync inbound.1 inbound.2)] messages false ∧
      s.state = .exchange operations metrics ∧ s.syncDoneReceived = false := by
  have hinit : Trace p (Session.new p.bufferCapacity) [] [] false := .init
  have hhave := (hinit.quiet (.advance rfl)).sends (.send rfl)
  have hrmt : Trace p _ [.ok (.haveHeights remote)] [.haveHeights p.localHeights] false :=
    hhave.receives (.receive rfl)
  have hans := hrmt.sends (.send (send_sendPreSync rfl hsize))
  have hannd : Trace p _
      ([.ok (.haveHeights remote)] ++ [.ok (.preSync inbound.1 inbound.2)]) _ false :=
    hans.receives (.receive rfl)
  exact ⟨_, _, _, _, hannd.quiet (.advance rfl), rfl, rfl⟩

theorem exists_run_of_truncated (hended : inbound.ended = true) (h : Truncated p inbound.items) :
    ∃ s messages metrics, Run p inbound s inbound.items messages ∧ s.state = .finish metrics := by
  obtain ⟨remote, hreceiving, size, hsize⟩ := h
  obtain ⟨total, raws, hitems, hraws⟩ := hreceiving
  obtain ⟨s1, messages1, operations1, metrics1, htrace1, hstate1, hreceived1⟩ :=
    exists_trace_exchange hsize total
  obtain ⟨s2, metrics2, htrace2, hstate2, hreceived2⟩ :=
    exists_trace_receive htrace1 hstate1 hreceived1 hraws
  obtain ⟨s3, messages3, operations3, metrics3, htrace3, hstate3, hreceived3, hsent3⟩ :=
    exists_trace_send htrace2 hstate2 hreceived2
  change Trace p s3 (.ok (.haveHeights remote) :: .ok (.preSync total.1 total.2) ::
    raws.map fun raw => .ok (.operation raw.1 raw.2)) messages3 false at htrace3
  rw [← hitems] at htrace3
  exact ⟨_, messages3, metrics3, ⟨true, htrace3.ends (.finishEnded hstate3 hsent3 hreceived3),
    prefix_refl _, fun _ => ⟨hended, rfl⟩⟩, rfl⟩

theorem done_of_finish (hnot : ¬(inbound.ended = true ∧ Truncated p inbound.items))
    (hrun : Run p inbound s items messages) (hfin : s.state = .finish metrics) :
    .done ∈ messages ∧ .ok .done ∈ items := by
  obtain ⟨ended, htr, -, hended⟩ := hrun
  have hprog := progress_of_trace htr
  unfold Progress at hprog
  rw [hfin] at hprog
  obtain ⟨remote, size, rows, operations, hrecv, -, hsize, hsent, -⟩ := hprog
  refine ⟨done_mem_of_sent hsent, ?_⟩
  cases hdone : s.syncDoneReceived with
  | true =>
    rw [hdone] at hrecv
    exact done_mem_of_received hrecv
  | false =>
    rw [hdone] at hrecv
    obtain ⟨hinbound, hitems⟩ := hended (ended_of_finish htr hfin hdone)
    rw [hitems] at hrecv
    exact absurd ⟨hinbound, remote, hrecv, size, hsize⟩ hnot

/-- What a session has left of its stream is what it has not received. -/
def Reached (p : Peer V E L TP ε) (inbound : Inbound L) (c : Config V E L ε) : Prop :=
  ∃ items messages, Run p inbound c.1 items messages ∧ items ++ c.2 = inbound.items

theorem Reached.next {c c' : Config V E L ε} {label : Label L} (h : Reached p inbound c)
    (hnext : Next p inbound.ended c label c') :
    Reached p inbound c' := by
  obtain ⟨items, messages, ⟨ended, htr, -, hended⟩, hrest⟩ := h
  cases hnext with
  | quiet step =>
    exact ⟨items, messages, ⟨ended, htr.quiet step, ⟨_, hrest⟩, hended⟩, hrest⟩
  | sends step =>
    exact ⟨items, _, ⟨ended, htr.sends step, ⟨_, hrest⟩, hended⟩, hrest⟩
  | receives step =>
    rename_i rest item
    have hopen : ended = false := by
      by_contra hcl
      rw [Bool.not_eq_false] at hcl
      rw [(hended hcl).2, append_right_eq_self] at hrest
      cases hrest
    subst hopen
    have hrest' : (items ++ [item]) ++ rest = inbound.items := by
      rw [append_assoc]
      exact hrest
    exact ⟨_, messages, ⟨false, htr.receives step, ⟨_, hrest'⟩, nofun⟩, hrest'⟩
  | ends step closes =>
    have hitems : items = inbound.items := by
      rwa [append_nil] at hrest
    exact ⟨items, messages, ⟨true, htr.ends step, ⟨_, hrest⟩, fun _ => ⟨closes, hitems⟩⟩, hrest⟩
  | interrupts step =>
    exact ⟨items, messages, ⟨ended, htr.interrupts step, ⟨_, hrest⟩, hended⟩, hrest⟩

end Peer

/-- A session succeeds only with a completed exchange, and fails on a stream that ends before the
"done" message of the remote. -/
structure Completing (p : Peer V E L TP ε) (inbound : Inbound L) : Prop where
  done : ∀ s items messages metrics, Run p inbound s items messages →
    s.state = .finish metrics → .done ∈ messages ∧ .ok .done ∈ items
  error : inbound.ended = true → .ok .done ∉ inbound.items →
    Inevitable (fun c c' => ∃ label, Next p inbound.ended c label c')
      (fun c c' => ∃ label, label ≠ .interrupts ∧ Next p inbound.ended c label c')
      (fun c => ∃ error, c.1.state = .failed error)
      (Session.new p.bufferCapacity, inbound.items)

/-- Success is a completed exchange, unless the stream ends after a complete handshake and readable
operations. -/
theorem completing_iff (p : Peer V E L TP ε) (inbound : Inbound L) :
    Completing p inbound ↔ ¬(inbound.ended = true ∧ Truncated p inbound.items) := by
  constructor
  · rintro hcompleting ⟨hended, htrunc⟩
    obtain ⟨s, messages, metrics, hrun, hfin⟩ := exists_run_of_truncated hended htrunc
    obtain ⟨remote, hreceiving, -⟩ := htrunc
    exact done_notMem_of_receiving hreceiving (hcompleting.done _ _ _ _ hrun hfin).2
  · intro hnot
    refine ⟨fun _ _ _ _ hrun hfin => done_of_finish hnot hrun hfin, fun hended hdone => ?_⟩
    apply Inevitable.of_wellFounded (InvImage.wf rank wellFounded_lt) (Reached p inbound)
    · rintro c c' hrchd ⟨label, hnext⟩
      exact ⟨hrchd.next hnext, rank_next hnext⟩
    · rintro ⟨s, rest⟩ ⟨items, messages, hrun, hrest⟩
      rcases running_or_returned s with hrunning | ⟨metrics, hfin⟩ | hfail
      · obtain ⟨label, c', hlabel, hnext⟩ := exists_next hrunning
        rw [hended]
        exact Or.inr ⟨c', label, hlabel, hnext⟩
      · -- a success has seen the "done" message, which the stream does not have
        apply absurd _ hdone
        rw [← hrest]
        exact mem_append_left _ (done_of_finish hnot hrun hfin).2
      · exact Or.inl hfail
    · exact ⟨[], [], ⟨false, .init, nil_prefix, nofun⟩, rfl⟩

def emptyPeer : Peer Unit Unit Nat Unit Unit where
  store := .empty
  logs := ∅
  checks := true
  bufferCapacity := 8
  order := .numbered
  encode _ := []
  decode _ := .error ()

def lostConnection : Inbound Nat where
  items := [.ok (.haveHeights ∅), .ok (.preSync 1 100)]
  ended := true

/-- The session succeeds, without the operation and without a "done" message. -/
theorem finish_lostConnection : ∃ s messages metrics,
    Run emptyPeer lostConnection s lostConnection.items messages ∧ s.state = .finish metrics ∧
      .ok .done ∉ lostConnection.items := by
  have hemp : emptyPeer.needs ∅ = ∅ := by
    rfl
  have htrunc : Truncated emptyPeer lostConnection.items := by
    exact ⟨∅, ⟨(1, 100), [], rfl, by simp⟩, (0, 0), rfl⟩
  obtain ⟨s, messages, metrics, hrun, hfin⟩ := exists_run_of_truncated rfl htrunc
  exact ⟨s, messages, metrics, hrun, hfin, by simp [lostConnection]⟩

end P2Panda.Sync
