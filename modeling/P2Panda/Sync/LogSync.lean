import P2Panda.Sync.Api

/-!
# Sync protocol over append-only logs

A session tells the remote how far its logs have got, learns the same, and announces how much it
will send. Then both send what the other is missing, in any order, until each has sent and received
a "done" message.
-/

namespace P2Panda.Sync

open P2Panda.Library P2Panda.Core P2Panda.Store

variable {V E L TP ε : Type}

inductive LogSyncMessage (L : Type) where
  | haveHeights (heights : LogHeights VerifyingKey L)
  | preSync (totalOperations totalBytes : UInt32)
  | operation (header : Bytes) (body : Option Bytes)
  | done

/-- `LogSyncMessage::fmt`. -/
def LogSyncMessage.name : LogSyncMessage L → String
  | haveHeights _ => "have"
  | preSync _ _ => "pre_sync"
  | operation _ _ => "operation"
  | done => "done"

structure LogSyncMetrics where
  outboundOperations : UInt32
  outboundBytes : UInt32
  inboundOperations : UInt32
  inboundBytes : UInt32
  sentOperations : UInt32
  sentBytes : UInt32
  receivedOperations : UInt32
  receivedBytes : UInt32
  deriving DecidableEq, Repr

inductive LogSyncEvent (V E : Type) where
  | metricsExchanged (metrics : LogSyncMetrics)
  | operationReceived (operation : Operation V E) (metrics : LogSyncMetrics)

/-- `ε` are the errors of decoding a header. A session which panics ends like one that fails. -/
inductive LogSyncError (ε : Type) where
  | decodeHeader (error : ε)
  | logStore (message : String)
  | operationStore (message : String)
  | broadcastSend
  | messageSink (message : String)
  | messageStream (message : String)
  | unexpectedStreamClosure
  | unexpectedMessage (message : String)
  | panicked (message : String)

/-- Life-cycle states. The loop of the `Sync` state is a state of its own, with the operations still
to be sent. -/
inductive State (V L ε : Type) where
  | start
  | sendHave
  | receiveHave (localHeights : LogHeights VerifyingKey L)
  | sendPreSync (remoteNeeds : LogRanges VerifyingKey L)
  | receivePreSyncOrDone (remoteNeeds : LogRanges VerifyingKey L)
      (outboundOperations outboundBytes : UInt32)
  | sync (remoteNeeds : LogRanges VerifyingKey L) (metrics : LogSyncMetrics)
  | exchange (operations : List (OperationRow V L)) (metrics : LogSyncMetrics)
  | finish (metrics : LogSyncMetrics)
  | failed (error : LogSyncError ε)

/-- The variables of `run`, and the events it has emitted. -/
structure Session (V E L ε : Type) where
  state : State V L ε
  syncDoneReceived : Bool
  syncDoneSent : Bool
  dedup : DeduplicationBuffer Hash
  events : List (LogSyncEvent V E)

/-- What a session is started with, how headers are written and read, and whether sums are checked
for overflow. -/
structure Peer (V E L TP ε : Type) where
  checks : Bool
  store : OperationStore V L TP
  logs : Logs VerifyingKey L
  bufferCapacity : Nat
  order : LogOrder VerifyingKey L
  encode : AnyHeader V → Bytes
  decode : Bytes → Except ε (Header V E)

abbrev Item (L : Type) := Except String (LogSyncMessage L)

def Session.new (bufferCapacity : Nat) : Session V E L ε :=
  ⟨.start, false, false, .new bufferCapacity, []⟩

def Session.fail (s : Session V E L ε) (error : LogSyncError ε) : Session V E L ε :=
  ⟨.failed error, s.syncDoneReceived, s.syncDoneSent, s.dedup, s.events⟩

def Session.goto (s : Session V E L ε) (state : State V L ε) : Session V E L ε :=
  ⟨state, s.syncDoneReceived, s.syncDoneSent, s.dedup, s.events⟩

def Session.Running (s : Session V E L ε) : Prop :=
  match s.state with
  | .finish _ => False
  | .failed _ => False
  | _ => True

namespace Peer

variable [DecidableEq L] (p : Peer V E L TP ε)

def localHeights : LogHeights VerifyingKey L := logHeights p.order p.store p.logs

def outboundSize (remoteNeeds : LogRanges VerifyingKey L) :
    Outcome (LogSyncError ε) (UInt32 × UInt32) :=
  (HashMap.entries p.order.author remoteNeeds).foldlM (fun outbound author =>
    (HashMap.entries p.order.log author.2).foldlM (fun outbound log => do
      let inner ← (p.store.getLogSize p.checks author.1 log.1 log.2).mapErr .operationStore
      let outboundOperations ← addU32 p.checks outbound.1 inner.1
      let outboundBytes ← addU32 p.checks outbound.2 inner.2
      return (outboundOperations, outboundBytes)) outbound) (0, 0)

def operationMessage (row : OperationRow V L) : LogSyncMessage L :=
  .operation (p.encode row.header) row.body

def rawSize (header : Bytes) (body : Option Bytes) : UInt32 :=
  UInt32.ofNat (header.length + (body.map List.length).getD 0)

/-- What a session does without waiting for the remote, and the message that is sent, if any. -/
def send (s : Session V E L ε) :
    Option (Except (LogSyncError ε) (Session V E L ε × Option (LogSyncMessage L))) :=
  match s.state with
  | .start => some (.ok (s.goto .sendHave, none))
  | .sendHave =>
    some (.ok (s.goto (.receiveHave p.localHeights), some (.haveHeights p.localHeights)))
  | .sendPreSync remoteNeeds =>
    match p.outboundSize remoteNeeds with
    | .err error => some (.error error)
    | .panic message => some (.error (.panicked message))
    | .ok (outboundOperations, outboundBytes) =>
      let state := .receivePreSyncOrDone remoteNeeds outboundOperations outboundBytes
      if outboundBytes > 0 then
        some (.ok (s.goto state, some (.preSync outboundOperations outboundBytes)))
      else some (.ok (⟨state, s.syncDoneReceived, true, s.dedup, s.events⟩, some .done))
  | .sync remoteNeeds metrics =>
    some (.ok (s.goto (.exchange (logRanges p.order p.store remoteNeeds) metrics), none))
  | .exchange operations metrics =>
    if s.syncDoneSent then none
    else
      match operations with
      | [] => some (.ok (⟨s.state, s.syncDoneReceived, true, s.dedup, s.events⟩, some .done))
      | row :: operations =>
        let metrics := { metrics with
          sentBytes := metrics.sentBytes + rawSize (p.encode row.header) row.body
          sentOperations := metrics.sentOperations + 1 }
        some (.ok (⟨.exchange operations metrics, s.syncDoneReceived, s.syncDoneSent,
          (s.dedup.insert row.hash).1, s.events⟩, some (p.operationMessage row)))
  | _ => none

/-- The end of the `ReceivePreSyncOrDone` state. -/
def metricsExchanged (s : Session V E L ε) (remoteNeeds : LogRanges VerifyingKey L)
    (outboundOperations outboundBytes inboundOperations inboundBytes : UInt32)
    (syncDoneReceived : Bool) : Session V E L ε :=
  let metrics := ⟨outboundOperations, outboundBytes, inboundOperations, inboundBytes, 0, 0, 0, 0⟩
  ⟨.sync remoteNeeds metrics, syncDoneReceived, s.syncDoneSent, s.dedup,
    s.events ++ [.metricsExchanged metrics]⟩

/-- What a session does with an item of the stream, where it waits for one. -/
def receive (s : Session V E L ε) (item : Item L) :
    Option (Except (LogSyncError ε) (Session V E L ε)) :=
  match s.state with
  | .receiveHave localHeights =>
    match item with
    | .error error => some (.error (.messageStream error))
    | .ok (.haveHeights remote) =>
      some (.ok (s.goto (.sendPreSync (compare p.order localHeights remote))))
    | .ok message => some (.error (.unexpectedMessage message.name))
  | .receivePreSyncOrDone remoteNeeds outboundOperations outboundBytes =>
    match item with
    | .error error => some (.error (.messageStream error))
    | .ok (.preSync totalOperations totalBytes) =>
      some (.ok (metricsExchanged s remoteNeeds outboundOperations outboundBytes
        totalOperations totalBytes s.syncDoneReceived))
    | .ok .done =>
      some (.ok (metricsExchanged s remoteNeeds outboundOperations outboundBytes 0 0 true))
    | .ok message => some (.error (.unexpectedMessage message.name))
  | .exchange operations metrics =>
    if s.syncDoneReceived then none
    else
      match item with
      | .error error => some (.error (.messageStream error))
      | .ok (.operation header body) =>
        let metrics := { metrics with
          receivedBytes := metrics.receivedBytes + rawSize header body
          receivedOperations := metrics.receivedOperations + 1 }
        match p.decode header with
        | .error error => some (.error (.decodeHeader error))
        | .ok header =>
          if (s.dedup.insert header.digest).2 then
            some (.ok ⟨.exchange operations metrics, s.syncDoneReceived, s.syncDoneSent,
              (s.dedup.insert header.digest).1,
              s.events ++ [.operationReceived ⟨header.digest, header, body⟩ metrics]⟩)
          else some (.ok (s.goto (.exchange operations metrics)))
      | .ok .done => some (.ok ⟨s.state, true, s.syncDoneSent, s.dedup, s.events⟩)
      | .ok message => some (.error (.unexpectedMessage message.name))
  | _ => none

/-- What a session does with the end of the stream, where it waits for an item. In the loop, this
only disables the branch that receives. -/
def closed (s : Session V E L ε) : Option (LogSyncError ε) :=
  match s.state with
  | .receiveHave _ => some .unexpectedStreamClosure
  | .receivePreSyncOrDone _ _ _ => some .unexpectedStreamClosure
  | _ => none

end Peer

section Specification

variable {s s' : Session V E L ε}

theorem running_or_returned (s : Session V E L ε) :
    s.Running ∨ (∃ metrics, s.state = .finish metrics) ∨ ∃ error, s.state = .failed error := by
  unfold Session.Running
  generalize s.state = state
  cases state with
  | finish metrics => exact Or.inr (Or.inl ⟨metrics, rfl⟩)
  | failed error => exact Or.inr (Or.inr ⟨error, rfl⟩)
  | _ => exact Or.inl trivial

theorem Session.Running.ne_failed (h : s.Running) (error : LogSyncError ε) :
    s.state ≠ .failed error := by
  intro hst
  rw [Session.Running, hst] at h
  exact h

theorem running_of_closed {error : LogSyncError ε} (h : Peer.closed s = some error) :
    s.Running := by
  grind [Peer.closed, Session.Running]

variable [DecidableEq L] {p : Peer V E L TP ε} {metrics : LogSyncMetrics}
  {message : Option (LogSyncMessage L)}

theorem running_of_send {result : Except (LogSyncError ε)
    (Session V E L ε × Option (LogSyncMessage L))} (h : p.send s = some result) : s.Running := by
  grind [Peer.send, Session.Running]

theorem running_of_receive {item : Item L} {result : Except (LogSyncError ε) (Session V E L ε)}
    (h : p.receive s item = some result) : s.Running := by
  grind [Peer.receive, Session.Running]

theorem state_ne_finish_of_send (h : p.send s = some (.ok (s', message))) :
    s'.state ≠ .finish metrics := by
  grind [Peer.send, Session.goto]

theorem state_ne_finish_of_receive {item : Item L} (h : p.receive s item = some (.ok s')) :
    s'.state ≠ .finish metrics := by
  grind [Peer.receive, Session.goto, Peer.metricsExchanged]

theorem send_cases (h : p.send s = some (.ok (s', message))) :
    s'.events = s.events ∧ (s'.dedup = s.dedup ∨ ∃ row operations metrics,
      s.state = .exchange (row :: operations) metrics ∧
        s'.dedup = (s.dedup.insert row.hash).1) := by
  grind [Peer.send, Session.goto]

end Specification

inductive Label (L : Type) where
  | quiet
  | sends (message : LogSyncMessage L)
  | receives (item : Item L)
  | ends
  | interrupts

/-- The steps of `run`. Any enabled branch of the loop may be taken; the loop is left when none
is. -/
inductive Step [DecidableEq L] (p : Peer V E L TP ε) :
    Session V E L ε → Label L → Session V E L ε → Prop
  | advance {s s' : Session V E L ε} (h : p.send s = some (.ok (s', none))) : Step p s .quiet s'
  | send {s s' : Session V E L ε} {message : LogSyncMessage L}
      (h : p.send s = some (.ok (s', some message))) : Step p s (.sends message) s'
  | sendError {s : Session V E L ε} {error : LogSyncError ε} (h : p.send s = some (.error error)) :
      Step p s .quiet (s.fail error)
  | receive {s s' : Session V E L ε} {item : Item L} (h : p.receive s item = some (.ok s')) :
      Step p s (.receives item) s'
  | receiveError {s : Session V E L ε} {item : Item L} {error : LogSyncError ε}
      (h : p.receive s item = some (.error error)) : Step p s (.receives item) (s.fail error)
  | closed {s : Session V E L ε} {error : LogSyncError ε} (h : Peer.closed s = some error) :
      Step p s .ends (s.fail error)
  | finish {s : Session V E L ε} {operations : List (OperationRow V L)} {metrics : LogSyncMetrics}
      (state : s.state = .exchange operations metrics) (sent : s.syncDoneSent = true)
      (received : s.syncDoneReceived = true) : Step p s .quiet (s.goto (.finish metrics))
  | finishEnded {s : Session V E L ε} {operations : List (OperationRow V L)}
      {metrics : LogSyncMetrics} (state : s.state = .exchange operations metrics)
      (sent : s.syncDoneSent = true) (received : s.syncDoneReceived = false) :
      Step p s .ends (s.goto (.finish metrics))
  | interrupted {s : Session V E L ε} (error : LogSyncError ε) (running : s.Running) :
      Step p s .interrupts (s.fail error)

/-- A session, what it has received and sent, and whether it has seen the end of the stream. -/
inductive Trace [DecidableEq L] (p : Peer V E L TP ε) :
    Session V E L ε → List (Item L) → List (LogSyncMessage L) → Bool → Prop
  | init : Trace p (Session.new p.bufferCapacity) [] [] false
  | quiet {s s' : Session V E L ε} {received : List (Item L)} {sent : List (LogSyncMessage L)}
      {ended : Bool} (trace : Trace p s received sent ended) (step : Step p s .quiet s') :
      Trace p s' received sent ended
  | sends {s s' : Session V E L ε} {received : List (Item L)} {sent : List (LogSyncMessage L)}
      {ended : Bool} {message : LogSyncMessage L} (trace : Trace p s received sent ended)
      (step : Step p s (.sends message) s') : Trace p s' received (sent ++ [message]) ended
  | receives {s s' : Session V E L ε} {received : List (Item L)} {sent : List (LogSyncMessage L)}
      {item : Item L} (trace : Trace p s received sent false)
      (step : Step p s (.receives item) s') : Trace p s' (received ++ [item]) sent false
  | ends {s s' : Session V E L ε} {received : List (Item L)} {sent : List (LogSyncMessage L)}
      {ended : Bool} (trace : Trace p s received sent ended) (step : Step p s .ends s') :
      Trace p s' received sent true
  | interrupts {s s' : Session V E L ε} {received : List (Item L)}
      {sent : List (LogSyncMessage L)} {ended : Bool} (trace : Trace p s received sent ended)
      (step : Step p s .interrupts s') : Trace p s' received sent ended

end P2Panda.Sync
