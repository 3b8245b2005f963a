import P2Panda.Net.ConnectionAuthoriser
import P2Panda.Net.Gossip.Manager
import P2Panda.Library.Runs

/-!
# Topic manager

The sync sessions of a topic. It initiates and accepts sessions, and tries again when one failed.
-/

namespace P2Panda.Net.Sync

open P2Panda.Library Outcome HashMap

abbrev SyncSessionId := Nat

/-- Topics to session ids, and session ids to a channel sender, of which there is only whether there
is one. -/
structure SessionTopicMap (TP : Type) where
  sessionTxMap : Finset SyncSessionId
  sessionTopicMap : HashMap SyncSessionId TP
  topicSessionMap : HashMap TP (Finset SyncSessionId)

namespace SessionTopicMap

variable {TP : Type} [DecidableEq TP]

def empty : SessionTopicMap TP := ⟨∅, ∅, ∅⟩

def insertWithTopic (self : SessionTopicMap TP) (sessionId : SyncSessionId) (topic : TP) :
    SessionTopicMap TP where
  sessionTopicMap := self.sessionTopicMap.insert sessionId topic
  topicSessionMap := self.topicSessionMap.andModifyOrInsert topic (insert sessionId) {sessionId}
  sessionTxMap := insert sessionId self.sessionTxMap

def drop (self : SessionTopicMap TP) (sessionId : SyncSessionId) : SessionTopicMap TP :=
  match self.sessionTopicMap.lookup sessionId with
  | none => self
  | some topic =>
    { sessionTopicMap := self.sessionTopicMap.erase sessionId
      topicSessionMap := self.topicSessionMap.andModify topic (·.erase sessionId)
      sessionTxMap := self.sessionTxMap.erase sessionId }

def topic (self : SessionTopicMap TP) (sessionId : SyncSessionId) : Option TP :=
  self.sessionTopicMap.lookup sessionId

def sessions (self : SessionTopicMap TP) (topic : TP) : Finset SyncSessionId :=
  (self.topicSessionMap.lookup topic).getD ∅

/-- Sessions are listed under the topic they are recorded with. -/
def Inverse (self : SessionTopicMap TP) : Prop :=
  ∀ topic sessionId, sessionId ∈ self.sessions topic ↔
    self.topic sessionId = some topic ∧ sessionId ∈ self.sessionTxMap

variable {self : SessionTopicMap TP}

theorem sessions_insertWithTopic (self : SessionTopicMap TP) (sessionId : SyncSessionId)
    (topic other : TP) : (self.insertWithTopic sessionId topic).sessions other =
      if other = topic then insert sessionId (self.sessions topic) else self.sessions other := by
  rw [sessions, insertWithTopic, lookup_andModifyOrInsert]
  split_ifs
  · rw [sessions]
    cases self.topicSessionMap.lookup topic with
    | none => rfl
    | some sessions => rfl
  · rfl

theorem inverse_insertWithTopic (h : self.Inverse) (sessionId : SyncSessionId) (topic : TP) :
    (self.insertWithTopic sessionId topic).Inverse ↔
      ∀ other ≠ topic, sessionId ∉ self.sessions other := by
  have htop : ∀ id, (self.insertWithTopic sessionId topic).topic id =
      if id = sessionId then some topic else self.topic id := fun id => lookup_insert_ite _ _ _ _
  constructor
  · intro hinverse other hoth hmem
    have hlisted := (hinverse other sessionId).mp (by rwa [sessions_insertWithTopic, if_neg hoth])
    rw [htop, if_pos rfl] at hlisted
    exact hoth (Option.some.inj hlisted.1).symm
  · intro hnew other id
    rw [sessions_insertWithTopic]
    change _ ↔ _ ∧ id ∈ insert sessionId self.sessionTxMap
    have hlisted := h other id
    grind

theorem sessions_drop {sessionId : SyncSessionId} {topic : TP}
    (h : self.sessionTopicMap.lookup sessionId = some topic) (other : TP) :
    (self.drop sessionId).sessions other =
      if other = topic then (self.sessions topic).erase sessionId else self.sessions other := by
  rw [sessions, drop, h, lookup_andModify]
  split_ifs
  · rw [sessions]
    cases self.topicSessionMap.lookup topic with
    | none => rfl
    | some sessions => rfl
  · rfl

theorem inverse_drop (h : self.Inverse) (sessionId : SyncSessionId) :
    (self.drop sessionId).Inverse := by
  cases htopic : self.sessionTopicMap.lookup sessionId with
  | none =>
    rw [drop, htopic]
    exact h
  | some topic =>
    intro other id
    rw [sessions_drop htopic, SessionTopicMap.topic, drop, htopic, lookup_erase_ite]
    have hlisted := h other id
    rw [SessionTopicMap.topic] at hlisted
    -- another session is listed as before, and the dropped one only under its topic
    grind

inductive Call (TP : Type) where
  | insertWithTopic (sessionId : SyncSessionId) (topic : TP)
  | drop (sessionId : SyncSessionId)

def call (self : SessionTopicMap TP) : Call TP → SessionTopicMap TP
  | .insertWithTopic sessionId topic => self.insertWithTopic sessionId topic
  | .drop sessionId => self.drop sessionId

/-- The call inserts no session listed under another topic. -/
def Unlisted (self : SessionTopicMap TP) : Call TP → Prop
  | .insertWithTopic sessionId topic => ∀ other ≠ topic, sessionId ∉ self.sessions other
  | .drop _ => True

theorem inverse_iff_unlisted (calls : List (Call TP)) :
    (∀ done, done <+: calls → (done.foldl call (empty : SessionTopicMap TP)).Inverse) ↔
      ∀ done next, done ++ [next] <+: calls →
        (done.foldl call (empty : SessionTopicMap TP)).Unlisted next := by
  apply Runs.goal_iff_forall
  · intro topic id
    exact iff_of_false (Finset.notMem_empty id) fun h => Finset.notMem_empty id h.2
  · intro done next _ h
    cases next with
    | insertWithTopic sessionId topic => exact inverse_insertWithTopic h sessionId topic
    | drop sessionId => exact iff_of_true (inverse_drop h sessionId) trivial

theorem not_inverse_other_topic :
    ¬([.insertWithTopic 1 0, .insertWithTopic 1 1].foldl call
      (empty : SessionTopicMap Nat)).Inverse := by
  intro h
  have hrec := ((h 0 1).mp (by decide)).1
  exact absurd hrec (by decide)

end SessionTopicMap

inductive ToTopicManager (TP T : Type) where
  | initiate (nodeId : NodeId) (topic : TP) (liveMode : Bool)
  | accept (nodeId : NodeId) (topic : TP) (liveMode : Bool)
  | retry (nodeId : NodeId) (liveMode : Bool)
  | publish (data : T)
  | closeAll (reply : ReplyPort)
  | close (nodeId : NodeId)

structure TopicManagerState (TP : Type) where
  topic : TP
  sessionTopicMap : SessionTopicMap TP
  nodeSessionMap : HashMap NodeId (Finset SyncSessionId)
  activeSyncSet : Finset NodeId
  actorSessionIdMap : HashMap ActorId SyncSessionId
  nextSessionId : SyncSessionId

inductive TopicManagerError where
  | spawn (message : String)
  deriving DecidableEq

structure Session (TP : Type) where
  topic : TP
  remote : NodeId
  liveMode : Bool
  role : ConnectionRole

variable {TP T : Type} [DecidableEq TP] {actorId : ActorId} {fault : Option String}

namespace TopicManagerState

/-- `pre_start`. -/
def new (topic : TP) : TopicManagerState TP := ⟨topic, .empty, ∅, ∅, ∅, 0⟩

def currentSessions (self : TopicManagerState TP) (nodeId : NodeId) : Finset SyncSessionId :=
  (self.nodeSessionMap.lookup nodeId).getD ∅

def newSession (self : TopicManagerState TP) (actorId : ActorId) (nodeId : NodeId) (topic : TP) :
    TopicManagerState TP :=
  let sessionId := self.nextSessionId
  { self with
    nextSessionId := self.nextSessionId + 1
    sessionTopicMap := self.sessionTopicMap.insertWithTopic sessionId topic
    nodeSessionMap := self.nodeSessionMap.andModifyOrInsert nodeId (insert sessionId) {sessionId}
    actorSessionIdMap := self.actorSessionIdMap.insert actorId sessionId }

def dropSession (self : TopicManagerState TP) (order : HashOrder NodeId) (id : SyncSessionId) :
    TopicManagerState TP :=
  { self with
    sessionTopicMap := self.sessionTopicMap.drop id
    nodeSessionMap := (order.iter self.nodeSessionMap.keys).foldl
      (fun sessions nodeId => sessions.andModify nodeId (·.erase id)) self.nodeSessionMap }

end TopicManagerState

namespace TopicManager

def spawnSession (state : TopicManagerState TP) (actorId : ActorId) (fault : Option String)
    (session : Session TP) :
    Outcome TopicManagerError (TopicManagerState TP × Option (Session TP)) :=
  match fault with
  | some message => .err (.spawn message)
  | none => .ok (state.newSession actorId session.remote session.topic, some session)

def sendToSessions (state : TopicManagerState TP) (sessionIds : Finset SyncSessionId) :
    Outcome TopicManagerError Unit :=
  if sessionIds ⊆ state.sessionTopicMap.sessionTxMap then .ok ()
  else .panic "session handle exists"

def expectTopics (state : TopicManagerState TP) (sessionIds : Finset SyncSessionId) :
    Outcome TopicManagerError Unit :=
  if ∀ id ∈ sessionIds, (state.sessionTopicMap.topic id).isSome then .ok ()
  else .panic "topic to exist"

/-- The next state, and the session that was spawned, with the actor `actorId` if it can be. -/
def handle (state : TopicManagerState TP) (actorId : ActorId) (fault : Option String) :
    ToTopicManager TP T →
      Outcome TopicManagerError (TopicManagerState TP × Option (Session TP))
  | .initiate nodeId topic liveMode =>
    let state := { state with activeSyncSet := insert nodeId state.activeSyncSet }
    spawnSession state actorId fault ⟨topic, nodeId, liveMode, .initiator⟩
  | .retry nodeId liveMode =>
    -- If this node was removed from the active sync set we skip retrying.
    if nodeId ∉ state.activeSyncSet then .ok (state, none)
    -- If there's another session running then we don't need to re-initiate sync.
    else if state.currentSessions nodeId ≠ ∅ then .ok (state, none)
    else spawnSession state actorId fault ⟨state.topic, nodeId, liveMode, .initiator⟩
  | .accept nodeId topic liveMode =>
    spawnSession state actorId fault ⟨topic, nodeId, liveMode, .acceptor⟩
  | .publish _ => do
    sendToSessions state (state.sessionTopicMap.sessions state.topic)
    return (state, none)
  | .closeAll _ => do
    sendToSessions state (state.sessionTopicMap.sessions state.topic)
    return ({ state with activeSyncSet := ∅ }, none)
  | .close nodeId => do
    let state := { state with activeSyncSet := state.activeSyncSet.erase nodeId }
    let sessionIds :=
      state.sessionTopicMap.sessions state.topic ∩ state.currentSessions nodeId
    expectTopics state sessionIds
    sendToSessions state
      (sessionIds.filter fun id => state.sessionTopicMap.topic id = some state.topic)
    return (state, none)

/-- `handle_supervisor_evt` for a session that ended. The result is the node to try again. -/
def handleSessionEnded (state : TopicManagerState TP) (order : HashOrder NodeId)
    (actorId : ActorId) (failed : Bool) : TopicManagerState TP × Option NodeId :=
  match state.actorSessionIdMap.lookup actorId with
  | none => (state, none)
  | some sessionId =>
    let remoteNodeId := (order.iter state.nodeSessionMap.keys).find? fun nodeId =>
      decide (sessionId ∈ state.currentSessions nodeId)
    let state :=
      { state with actorSessionIdMap := state.actorSessionIdMap.erase actorId }.dropSession
        order sessionId
    if failed then
      match remoteNodeId with
      | none => (state, none)
      | some nodeId =>
        -- If this node was removed from the active sync set we skip retrying.
        (state, if nodeId ∈ state.activeSyncSet then some nodeId else none)
    else (state, none)

variable {state state' : TopicManagerState TP} {message : ToTopicManager TP T}

theorem spawnSession_eq_ok {session : Session TP} {session' : Option (Session TP)}
    (h : spawnSession state actorId fault session = .ok (state', session')) :
    fault = none ∧ state' = state.newSession actorId session.remote session.topic ∧
      session' = some session := by
  unfold spawnSession at h
  split at h <;> cases h
  exact ⟨rfl, rfl, rfl⟩

theorem handle_eq_ok {session : Option (Session TP)}
    (h : handle state actorId fault message = .ok (state', session)) :
    ∃ active, state' = session.elim { state with activeSyncSet := active } fun session =>
      { state with activeSyncSet := active }.newSession actorId session.remote session.topic := by
  cases message with
  | initiate | accept =>
    obtain ⟨-, rfl, rfl⟩ := spawnSession_eq_ok h
    exact ⟨_, rfl⟩
  | retry nodeId liveMode =>
    rw [handle] at h
    split at h
    · cases h
      exact ⟨_, rfl⟩
    · split at h
      · cases h
        exact ⟨_, rfl⟩
      · obtain ⟨-, rfl, rfl⟩ := spawnSession_eq_ok h
        exact ⟨_, rfl⟩
  | publish | closeAll =>
    obtain ⟨-, -, h⟩ := bind_eq_ok.mp h
    cases h
    exact ⟨_, rfl⟩
  | close nodeId =>
    obtain ⟨-, -, h⟩ := bind_eq_ok.mp h
    obtain ⟨-, -, h⟩ := bind_eq_ok.mp h
    cases h
    exact ⟨_, rfl⟩

/-- An outgoing session is spawned, if it can be, for a message which asks for one, and for a retry
with an active node without a session. -/
theorem initiator_iff {nodeId : NodeId} {topic : TP} :
    (∃ state' session, handle state actorId fault message = .ok (state', some session) ∧
      session.role = .initiator ∧ session.remote = nodeId ∧ session.topic = topic) ↔
      fault = none ∧
        ((∃ liveMode, message = .initiate nodeId topic liveMode) ∨
          ∃ liveMode, message = .retry nodeId liveMode ∧ state.topic = topic ∧
            nodeId ∈ state.activeSyncSet ∧ state.currentSessions nodeId = ∅) := by
  constructor
  · rintro ⟨state', session, h, hrole, rfl, rfl⟩
    cases message with
    | initiate nodeId' topic' liveMode =>
      obtain ⟨rfl, -, ⟨⟩⟩ := spawnSession_eq_ok h
      exact ⟨rfl, .inl ⟨liveMode, rfl⟩⟩
    | retry nodeId' liveMode =>
      rw [handle] at h
      split at h
      case isTrue => cases h
      case isFalse hactv =>
        split at h
        case isTrue => cases h
        case isFalse hrunning =>
          obtain ⟨rfl, -, ⟨⟩⟩ := spawnSession_eq_ok h
          rw [not_not] at hactv hrunning
          exact ⟨rfl, .inr ⟨liveMode, rfl, rfl, hactv, hrunning⟩⟩
    | accept nodeId' topic' liveMode =>
      obtain ⟨-, -, ⟨⟩⟩ := spawnSession_eq_ok h
      cases hrole
    | publish _ | closeAll _ =>
      obtain ⟨-, -, h⟩ := bind_eq_ok.mp h
      cases h
    | close nodeId' =>
      obtain ⟨-, -, h⟩ := bind_eq_ok.mp h
      obtain ⟨-, -, h⟩ := bind_eq_ok.mp h
      cases h
  · rintro ⟨rfl, ⟨liveMode, rfl⟩ | ⟨liveMode, rfl, rfl, hactv, hemp⟩⟩
    · exact ⟨_, _, rfl, rfl, rfl, rfl⟩
    · rw [handle, if_neg (not_not.mpr hactv), if_neg (not_not.mpr hemp)]
      exact ⟨_, _, rfl, rfl, rfl, rfl⟩

end TopicManager

end P2Panda.Net.Sync
