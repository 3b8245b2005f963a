import P2Panda.Library.Runs
import P2Panda.Net.Sync.TopicManager

/-!
# Sync manager

The actor between the API, the gossip overlays and the topic managers. It asks the connection
authoriser before it initiates a session.
-/

namespace P2Panda.Net.Sync

open P2Panda.Library

inductive ToSyncManager (TP : Type) where
  | create (topic : TP) (liveMode : Bool)
  | subscribe (topic : TP)
  | close (topic : TP)
  | initiateSync (topic : TP) (nodeId : NodeId)
  | accept (nodeId : NodeId) (topic : TP)
  | endSync (topic : TP) (nodeId : NodeId)
  | registerProtocol

/-- Where the manager waits in a handler. Nothing else is handled until it goes on. -/
inductive Suspended (TP : Type) where
  | initiating (topic : TP) (nodeId : NodeId)
  | closing (topic : TP) (actorId : ActorId) (reply : ReplyPort)
  | forever

structure SyncManagerState (TP : Type) where
  gossipHandles : Finset TP
  topicManagerMap : HashMap TP (ActorId × Bool)
  actorTopicMap : HashMap ActorId TP
  syncReceivers : Finset TP
  suspended : Option (Suspended TP)

inductive SyncManagerError where
  | endpoint (message : String)
  | gossip (message : String)
  | spawn (message : String)
  | messaging

inductive SyncQuery where
  | accept
  | membership
  | spawn

/-- A topic manager with its messages, and when they were sent. -/
structure TopicManagerActor (TP T : Type) where
  state : TopicManagerState TP
  inbox : List (Nat × ToTopicManager TP T)
  draining : Bool

structure SyncSystem (TP T : Type) where
  authoriser : ConnectionAuthoriser TP
  events : List (ConnectionAuthoriserEvent TP)
  manager : Option (SyncManagerState TP)
  inbox : List (ToSyncManager TP)
  topicManagers : HashMap ActorId (TopicManagerActor TP T)
  ended : List (ActorId × Bool)
  timers : List (ActorId × NodeId)
  nextActorId : ActorId
  nextReply : ReplyPort
  clock : Nat
  sessions : List (Nat × Session TP)

variable {TP T : Type} [DecidableEq TP]

def SyncManagerState.dropTopicState (self : SyncManagerState TP) (topic : TP) :
    SyncManagerState TP :=
  { self with
    topicManagerMap := self.topicManagerMap.erase topic
    syncReceivers := self.syncReceivers.erase topic
    gossipHandles := self.gossipHandles.erase topic }

namespace SyncSystem

def new : SyncSystem TP T where
  authoriser := .new
  events := []
  manager := some ⟨∅, ∅, ∅, ∅, none⟩
  inbox := [.registerProtocol]
  topicManagers := ∅
  ended := []
  timers := []
  nextActorId := 0
  nextReply := 0
  clock := 0
  sessions := []

def attempt (fault : Option String) (error : String → SyncManagerError) :
    Outcome SyncManagerError Unit :=
  match fault with
  | some message => .err (error message)
  | none => .ok ()

omit [DecidableEq TP] in
def sendMessage (self : SyncSystem TP T) (actorId : ActorId) (message : ToTopicManager TP T) :
    Outcome SyncManagerError (SyncSystem TP T) :=
  match self.topicManagers.lookup actorId with
  | none => .err .messaging
  | some actor =>
    if actor.draining then .err .messaging
    else .ok { self with
      topicManagers := self.topicManagers.insert actorId
        { actor with inbox := actor.inbox ++ [(self.clock, message)] } }

def sendToTopic (self : SyncSystem TP T) (manager : SyncManagerState TP) (topic : TP)
    (message : Bool → ToTopicManager TP T) : Outcome SyncManagerError (SyncSystem TP T) :=
  match manager.topicManagerMap.lookup topic with
  | some (actorId, liveMode) => self.sendMessage actorId (message liveMode)
  | none => .ok self

/-- The end of `close`: drop the topic manager and all state of the topic. -/
def finishClose (self : SyncSystem TP T) (manager : SyncManagerState TP) (topic : TP) :
    Outcome SyncManagerError (SyncSystem TP T) :=
  match manager.topicManagerMap.lookup topic with
  | none => .ok { self with manager := some (manager.dropTopicState topic) }
  | some (actorId, _) =>
    -- Finish processing all messages in the manager's queue and then kill it.
    match self.topicManagers.lookup actorId with
    | none => .err .messaging
    | some actor => .ok { self with
        topicManagers := self.topicManagers.insert actorId { actor with draining := true }
        manager := some ({ manager with
          actorTopicMap := manager.actorTopicMap.erase actorId }.dropTopicState topic) }

def handleMessage (self : SyncSystem TP T) (manager : SyncManagerState TP)
    (faults : SyncQuery → Option String) :
    ToSyncManager TP → Outcome SyncManagerError (SyncSystem TP T)
  | .registerProtocol => do
    attempt (faults .accept) .endpoint
    return self
  | .create topic liveMode =>
    match manager.topicManagerMap.lookup topic with
    | some _ => return self
    | none => do
      attempt (faults .membership) .gossip
      attempt (faults .spawn) .spawn
      return { self with
        nextActorId := self.nextActorId + 1
        topicManagers := self.topicManagers.insert self.nextActorId ⟨.new topic, [], false⟩
        manager := some { manager with
          gossipHandles := insert topic manager.gossipHandles
          syncReceivers := insert topic manager.syncReceivers
          topicManagerMap := manager.topicManagerMap.insert topic (self.nextActorId, liveMode)
          actorTopicMap := manager.actorTopicMap.insert self.nextActorId topic } }
  -- The receiver is handed out and replaced by one like it.
  | .subscribe _ => return self
  | .close topic =>
    match manager.topicManagerMap.lookup topic with
    | none => self.finishClose manager topic
    | some (actorId, _) => do
      let self ← self.sendMessage actorId (.closeAll self.nextReply)
      return { self with
        nextReply := self.nextReply + 1
        manager := some { manager with
          suspended := some (.closing topic actorId self.nextReply) } }
  | .initiateSync topic nodeId =>
    if self.authoriser.canConnectOnTopic nodeId topic then
      return { self with
        events := self.events ++ [.topicAllowed topic nodeId]
        manager := some { manager with suspended := some (.initiating topic nodeId) } }
    else
      return { self with events := self.events ++ [.topicBlocked topic nodeId] }
  | .accept nodeId topic => self.sendToTopic manager topic (.accept nodeId topic)
  | .endSync topic nodeId => self.sendToTopic manager topic fun _ => .close nodeId

def isWaiting (self : SyncSystem TP T) (actorId : ActorId) (reply : ReplyPort) : Bool :=
  match self.topicManagers.lookup actorId with
  | none => false
  | some actor => actor.inbox.any fun
    | (_, .closeAll reply') => reply' == reply
    | _ => false

def resume (self : SyncSystem TP T) (manager : SyncManagerState TP) :
    Suspended TP → Option (Outcome SyncManagerError (SyncSystem TP T))
  | .initiating topic nodeId => some do
    let self ← self.sendToTopic manager topic (.initiate nodeId topic)
    return { self with manager := some { manager with suspended := none } }
  | .closing topic actorId reply =>
    if self.isWaiting actorId reply then none
    else some (self.finishClose { manager with suspended := none } topic)
  | .forever => none

/-- `handle_supervisor_evt` for a topic manager that ended. -/
def handleEnded (self : SyncSystem TP T) (manager : SyncManagerState TP) (actorId : ActorId)
    (failed : Bool) : SyncSystem TP T :=
  match manager.actorTopicMap.lookup actorId with
  | none => self
  | some topic =>
    let manager := { manager with actorTopicMap := manager.actorTopicMap.erase actorId }
    if failed then
      { self with
        inbox := self.inbox ++ [.close topic]
        manager := some { manager with suspended := some .forever } }
    else { self with manager := some (manager.dropTopicState topic) }

def settle (self : SyncSystem TP T) :
    Outcome SyncManagerError (SyncSystem TP T) → SyncSystem TP T
  | .ok next => next
  | _ => { self with manager := none }

def stepManager (self : SyncSystem TP T) (faults : SyncQuery → Option String) :
    Option (SyncSystem TP T) :=
  match self.manager with
  | none => none
  | some manager =>
    match manager.suspended with
    | some suspended => (self.resume manager suspended).map self.settle
    | none =>
      match self.inbox with
      | [] => none
      | message :: inbox =>
        let self := { self with inbox := inbox }
        some (self.settle (self.handleMessage manager faults message))

def stepEnded (self : SyncSystem TP T) : Option (SyncSystem TP T) :=
  match self.manager, self.ended with
  | some manager, (actorId, failed) :: ended =>
    match manager.suspended with
    | some _ => none
    | none => some ({ self with ended := ended }.handleEnded manager actorId failed)
  | _, _ => none

/-- A topic manager handles its next message. An error or a panic terminates it. -/
def stepTopicManager (self : SyncSystem TP T) (actorId : ActorId) (fault : Option String) :
    Option (SyncSystem TP T) :=
  match self.topicManagers.lookup actorId with
  | none => none
  | some actor =>
    match actor.inbox with
    | [] =>
      if actor.draining then some { self with
        topicManagers := self.topicManagers.erase actorId
        ended := self.ended ++ [(actorId, false)] }
      else none
    | (sentAt, message) :: inbox =>
      match TopicManager.handle actor.state self.nextActorId fault message with
      | .ok (state, session) => some { self with
          nextActorId := self.nextActorId + 1
          topicManagers := self.topicManagers.insert actorId { actor with state, inbox }
          sessions := self.sessions ++ session.toList.map (sentAt, ·) }
      | _ => some { self with
          topicManagers := self.topicManagers.erase actorId
          ended := self.ended ++ [(actorId, true)] }

def stepSessionEnded (self : SyncSystem TP T) (actorId sessionActorId : ActorId) (failed : Bool)
    (order : HashOrder NodeId) : Option (SyncSystem TP T) :=
  match self.topicManagers.lookup actorId with
  | none => none
  | some actor =>
    let (state, retry) := TopicManager.handleSessionEnded actor.state order sessionActorId failed
    some { self with
      topicManagers := self.topicManagers.insert actorId { actor with state }
      timers := self.timers ++ retry.toList.map (actorId, ·) }

def castMessage (self : SyncSystem TP T) (actorId : ActorId) (message : ToTopicManager TP T) :
    SyncSystem TP T :=
  match self.sendMessage actorId message with
  | .ok next => next
  | _ => self

inductive Act (TP T : Type) where
  | authorise (change : ConnectionAuthoriser.Change TP)
  | send (message : ToSyncManager TP)
  | publish (actorId : ActorId) (data : T)
  | manager (faults : SyncQuery → Option String)
  | ended
  | topicManager (actorId : ActorId) (fault : Option String)
  | sessionEnded (actorId sessionActorId : ActorId) (failed : Bool) (order : HashOrder NodeId)
  | timer (i : Nat)

def act (self : SyncSystem TP T) : Act TP T → Option (SyncSystem TP T)
  | .authorise change => some { self with authoriser := self.authoriser.change change }
  | .send message => some { self with inbox := self.inbox ++ [message] }
  | .publish actorId data => some (self.castMessage actorId (.publish data))
  | .manager faults => self.stepManager faults
  | .ended => self.stepEnded
  | .topicManager actorId fault => self.stepTopicManager actorId fault
  | .sessionEnded actorId sessionActorId failed order =>
    self.stepSessionEnded actorId sessionActorId failed order
  | .timer i =>
    self.timers[i]?.map fun (actorId, nodeId) =>
      -- TODO in the source: live mode should be that of the failed session
      { self with timers := self.timers.eraseIdx i }.castMessage actorId (.retry nodeId true)

def step (self : SyncSystem TP T) (act : Act TP T) : Option (SyncSystem TP T) :=
  (self.act act).map fun next => { next with clock := self.clock + 1 }

def run (self : SyncSystem TP T) (acts : List (Act TP T)) : Option (SyncSystem TP T) :=
  acts.foldlM step self

end SyncSystem

end P2Panda.Net.Sync
