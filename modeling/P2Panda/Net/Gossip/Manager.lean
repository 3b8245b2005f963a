import P2Panda.Core.Operation
import P2Panda.Library.HashMap
import P2Panda.Library.RefCounts

/-!
# Gossip manager

One gossip session for each topic; what is received is forwarded. When the handler returns an error,
the actor terminates with every session.
-/

namespace P2Panda.Net

open P2Panda.Library Outcome P2Panda.Core

abbrev NodeId := VerifyingKey

abbrev ActorId := Nat

abbrev ChannelId := Nat

abbrev ReplyPort := Nat

/-- What is not read of a received message is left out: the node it came from, its scope and the
session. -/
inductive ToGossipManager (TP : Type) where
  | registerProtocol
  | subscribe (topic : TP) (nodes : List NodeId) (reply : ReplyPort)
  | unsubscribe (topic : TP)
  | joinNodes (topic : TP) (nodes : List NodeId)
  | joined (topic : TP) (nodes : List NodeId) (sessionId : ActorId)
  | neighborUp (nodeId : NodeId) (sessionId : ActorId)
  | neighborDown (nodeId : NodeId) (sessionId : ActorId)
  | receivedMessage (bytes : Bytes) (topic : TP)
  | events
  | shutdown

def ToGossipManager.isRemote {TP : Type} : ToGossipManager TP → Bool
  | joined _ _ _ | neighborUp _ _ | neighborDown _ _ | receivedMessage _ _ => true
  | _ => false

inductive GossipEvent (TP : Type) where
  | joined (topic : TP) (nodes : Finset NodeId)
  | left (topic : TP)
  | neighbourUp (topic : TP) (node : NodeId)
  | neighbourDown (topic : TP) (node : NodeId)

/-- Actor references and channels. Of the two senders of a topic, the manager only uses the one out
of the overlay. -/
structure Sessions (TP : Type) where
  sessionsByActorId : HashMap ActorId TP
  sessionsByTopic : HashMap TP ActorId
  gossipSenders : HashMap TP ChannelId
  gossipJoinedSenders : Finset ActorId

structure GossipManagerState (TP : Type) where
  gossip : Option Unit
  sessions : Sessions TP
  neighbours : HashMap TP (Finset NodeId)
  events : List (GossipEvent TP)

inductive GossipManagerError where
  | endpoint (message : String)
  | gossip (message : String)
  | spawn (message : String)
  | addressBook (message : String)
  | send (bytes : Bytes)
  deriving DecidableEq

inductive GossipQuery (TP : Type) where
  | accept
  | subscribe (topic : TP) (nodes : List NodeId)
  | spawn
  | addTopic (topic : TP)
  | removeTopic (topic : TP)

/-- What the actor shares with the rest of the program: the number of receivers of each broadcast
channel, the actors, and the replies. -/
structure Runtime where
  channels : RefCounts
  nextActorId : ActorId
  replies : HashMap ReplyPort ChannelId

/-- `broadcast::Sender::send`: fails without receivers, else returns their number. -/
def Runtime.send (self : Runtime) (channel : ChannelId) (bytes : Bytes) :
    Outcome GossipManagerError Nat :=
  if self.channels.get channel = 0 then .err (.send bytes) else .ok (self.channels.get channel)

variable {TP : Type} [DecidableEq TP]

namespace GossipManagerState

/-- `pre_start`. -/
def new : GossipManagerState TP := ⟨some (), ⟨∅, ∅, ∅, ∅⟩, ∅, []⟩

def dropTopicState (self : GossipManagerState TP) (actorId : ActorId) (topic : TP) :
    GossipManagerState TP :=
  { self with
    sessions :=
      { sessionsByActorId := self.sessions.sessionsByActorId.erase actorId
        sessionsByTopic := self.sessions.sessionsByTopic.erase topic
        gossipSenders := self.sessions.gossipSenders.erase topic
        gossipJoinedSenders := self.sessions.gossipJoinedSenders.erase actorId }
    neighbours := self.neighbours.erase topic }

def addSession (self : GossipManagerState TP) (actorId : ActorId) (topic : TP)
    (fromGossipTx : ChannelId) : GossipManagerState TP :=
  { self with
    sessions :=
      { sessionsByActorId := self.sessions.sessionsByActorId.insert actorId topic
        sessionsByTopic := self.sessions.sessionsByTopic.insert topic actorId
        gossipSenders := self.sessions.gossipSenders.insert topic fromGossipTx
        gossipJoinedSenders := insert actorId self.sessions.gossipJoinedSenders } }

def sendEvent (self : GossipManagerState TP) (event : GossipEvent TP) : GossipManagerState TP :=
  { self with events := self.events ++ [event] }

def changeNeighbours (self : GossipManagerState TP) (sessionId : ActorId)
    (change : Finset NodeId → Finset NodeId) (event : TP → GossipEvent TP) :
    GossipManagerState TP :=
  match self.sessions.sessionsByActorId.lookup sessionId with
  | none => self
  | some topic =>
    match self.neighbours.lookup topic with
    | none => self
    | some neighbors =>
      { self.sendEvent (event topic) with
        neighbours := self.neighbours.insert topic (change neighbors) }

end GossipManagerState

namespace GossipManager

def attempt (fault : Option String) (error : String → GossipManagerError) :
    Outcome GossipManagerError Unit :=
  match fault with
  | some message => .err (error message)
  | none => .ok ()

def handle (faults : GossipQuery TP → Option String) (state : GossipManagerState TP)
    (runtime : Runtime) : ToGossipManager TP →
      Outcome GossipManagerError (GossipManagerState TP × Runtime)
  | .registerProtocol => do
    let _ ← Outcome.expect "gossip was initialised when actor started" state.gossip
    attempt (faults .accept) .endpoint
    return (state, runtime)
  | .subscribe topic nodes reply => do
    -- The receiver that comes with the channel is dropped at the end of the handler.
    let fromGossipTx := runtime.channels.next
    let actorId := runtime.nextActorId
    let _ ← Outcome.expect "gossip was initialised when actor started" state.gossip
    attempt (faults (.subscribe topic nodes)) .gossip
    attempt (faults .spawn) .spawn
    attempt (faults (.addTopic topic)) .addressBook
    return (state.addSession actorId topic fromGossipTx,
      { channels := runtime.channels.create 0
        nextActorId := actorId + 1
        replies := runtime.replies.insert reply fromGossipTx })
  | .unsubscribe topic => do
    let state := match state.sessions.sessionsByTopic.lookup topic with
      | some actorId => state.dropTopicState actorId topic
      | none => state
    attempt (faults (.removeTopic topic)) .addressBook
    return (state.sendEvent (.left topic), runtime)
  -- The session is told to join the nodes.
  | .joinNodes _ _ => return (state, runtime)
  | .receivedMessage bytes topic =>
    match state.sessions.gossipSenders.lookup topic with
    | some fromGossipTx => do
      let _numberOfSubscribers ← runtime.send fromGossipTx bytes
      return (state, runtime)
    | none => return (state, runtime)
  | .joined topic nodes sessionId =>
    -- Inform the gossip sender actor that the overlay has been joined.
    let sessions :=
      { state.sessions with
        gossipJoinedSenders := state.sessions.gossipJoinedSenders.erase sessionId }
    let neighbours := state.neighbours.insert topic nodes.toFinset
    return ({ state with sessions, neighbours }.sendEvent (.joined topic nodes.toFinset), runtime)
  | .neighborUp nodeId sessionId =>
    return (state.changeNeighbours sessionId (insert nodeId) (.neighbourUp · nodeId), runtime)
  | .neighborDown nodeId sessionId =>
    return (state.changeNeighbours sessionId (·.erase nodeId) (.neighbourDown · nodeId), runtime)
  | .events => return (state, runtime)
  | .shutdown => return ({ state with gossip := none }, runtime)

/-- `handle_supervisor_evt` for a session that failed. -/
def handleActorFailed (state : GossipManagerState TP) (actorId : ActorId) :
    GossipManagerState TP :=
  match state.sessions.sessionsByActorId.lookup actorId with
  | some topic => state.dropTopicState actorId topic
  | none => state

/-- Only a subscription changes something outside: there is a new channel, which is the reply. -/
theorem runtime_of_handle {faults : GossipQuery TP → Option String}
    {state state' : GossipManagerState TP} {runtime runtime' : Runtime}
    {message : ToGossipManager TP}
    (h : handle faults state runtime message = .ok (state', runtime')) :
    runtime' = runtime ∨ ∃ reply, runtime'.channels = runtime.channels.create 0 ∧
      runtime'.replies = runtime.replies.insert reply runtime.channels.next := by
  cases message with
  | registerProtocol =>
    obtain ⟨-, -, h⟩ := bind_eq_ok.mp h
    obtain ⟨-, -, h⟩ := bind_eq_ok.mp h
    cases h
    exact .inl rfl
  | subscribe topic nodes reply =>
    obtain ⟨-, -, h⟩ := bind_eq_ok.mp h
    obtain ⟨-, -, h⟩ := bind_eq_ok.mp h
    obtain ⟨-, -, h⟩ := bind_eq_ok.mp h
    obtain ⟨-, -, h⟩ := bind_eq_ok.mp h
    cases h
    exact .inr ⟨reply, rfl, rfl⟩
  | unsubscribe topic =>
    obtain ⟨-, -, h⟩ := bind_eq_ok.mp h
    cases h
    exact .inl rfl
  | receivedMessage bytes topic =>
    rw [handle] at h
    split at h
    · obtain ⟨-, -, h⟩ := bind_eq_ok.mp h
      cases h
      exact .inl rfl
    · cases h
      exact .inl rfl
  | joinNodes _ _ | joined _ _ _ | neighborUp _ _ | neighborDown _ _ | events | shutdown =>
    cases h
    exact .inl rfl

/-- A remote event is handled, unless it is a message for a channel without receivers. -/
theorem handle_eq_ok_iff (faults : GossipQuery TP → Option String) (state : GossipManagerState TP)
    (runtime : Runtime) {event : ToGossipManager TP} (hrmt : event.isRemote) :
    (∃ next, handle faults state runtime event = .ok next) ↔
      ∀ bytes topic channel, event = .receivedMessage bytes topic →
        state.sessions.gossipSenders.lookup topic = some channel →
          runtime.channels.get channel ≠ 0 := by
  cases event with
  | registerProtocol | subscribe _ _ _ | unsubscribe _ | joinNodes _ _ | events | shutdown =>
    cases hrmt
  | joined _ _ _ | neighborUp _ _ | neighborDown _ _ =>
    exact ⟨fun _ _ _ _ heq => (nomatch heq), fun _ => ⟨_, rfl⟩⟩
  | receivedMessage bytes topic =>
    rw [handle]
    cases hlook : state.sessions.gossipSenders.lookup topic with
    | none =>
      refine ⟨fun _ bytes' topic' channel heq hchan => ?_, fun _ => ⟨_, rfl⟩⟩
      cases heq
      rw [hlook] at hchan
      cases hchan
    | some channel =>
      constructor
      · rintro ⟨next, hnext⟩ bytes' topic' channel' heq hchan hget
        cases heq
        rw [hlook] at hchan
        cases hchan
        dsimp only [Runtime.send] at hnext
        rw [if_pos hget] at hnext
        cases hnext
      · intro h
        have hget := h bytes topic channel rfl hlook
        dsimp only [Runtime.send]
        rw [if_neg hget]
        exact ⟨_, rfl⟩

end GossipManager

end P2Panda.Net
