import P2Panda.Net.Sync.Manager

/-!
# Effects

What a step can do to the topic managers, their sessions and where the manager waits.
-/

namespace P2Panda.Net.Sync.SyncSystem

open P2Panda.Library Outcome List SyncManagerState

variable {TP T : Type}

/-- The manager may contact the node on the topic, and has not yet. -/
def Initiating (system : SyncSystem TP T) (topic : TP) (nodeId : NodeId) : Prop :=
  ∃ manager ∈ system.manager, manager.suspended = some (.initiating topic nodeId)

def Waits (system : SyncSystem TP T) (suspended : Suspended TP) : Prop :=
  ∃ manager ∈ system.manager, manager.suspended = some suspended

/-- The message asks for no session, unless the manager may do so. -/
def MayAsk (system : SyncSystem TP T) (message : ToTopicManager TP T) : Prop :=
  ∀ nodeId topic liveMode, message = .initiate nodeId topic liveMode →
    system.Initiating topic nodeId

variable [DecidableEq TP]

/-- Where a handler may begin to wait, for a message or a reply. -/
def MayWait (system : SyncSystem TP T) : Suspended TP → Prop
  | .initiating topic nodeId => system.authoriser.canConnectOnTopic nodeId topic = true
  | .closing _ _ _ => True
  | .forever => False

/-- A step adds some sessions and sends messages for topic managers; a session is only asked for by
a manager that may do so, and who may was allowed to. -/
structure Effect (system system' : SyncSystem TP T) (spawned : List (Nat × Session TP)) : Prop where
  sessions : system'.sessions = system.sessions ++ spawned
  arrives : ∀ {id actor' m}, system'.topicManagers.lookup id = some actor' → m ∈ actor'.inbox →
    (∃ actor, system.topicManagers.lookup id = some actor ∧ m ∈ actor.inbox) ∨
      (m.1 = system.clock ∧ system.MayAsk m.2)
  initiating : ∀ {topic nodeId}, system'.Initiating topic nodeId →
    system.Initiating topic nodeId ∨ system.authoriser.canConnectOnTopic nodeId topic = true

/-- But for the end of a topic manager, the manager does not begin to wait for itself. -/
structure Handled (system system' : SyncSystem TP T) (spawned : List (Nat × Session TP)) : Prop
    extends Effect system system' spawned where
  forever : system'.Waits .forever → system.Waits .forever

variable {system system' : SyncSystem TP T} {manager : SyncManagerState TP}
  {spawned : List (Nat × Session TP)} {next : SyncSystem TP T} {actorId : ActorId}
  {result : Outcome SyncManagerError (SyncSystem TP T)} {act : Act TP T}

theorem Handled.of_eq (hsess : system'.sessions = system.sessions)
    (htms : system'.topicManagers = system.topicManagers)
    (hmgr : system'.manager = system.manager) : Handled system system' [] where
  sessions := by rw [hsess, append_nil]
  arrives hlook hmem := by
    rw [htms] at hlook
    exact .inl ⟨_, hlook, hmem⟩
  initiating h := by
    rw [Initiating, hmgr] at h
    exact .inl h
  forever h := by
    rw [Waits, hmgr] at h
    exact h

theorem Handled.of_insert {id : ActorId} {actor : TopicManagerActor TP T}
    (hsess : system'.sessions = system.sessions ++ spawned)
    (htms : system'.topicManagers = system.topicManagers.insert id actor)
    (hinbox : ∀ m ∈ actor.inbox,
      (∃ actor', system.topicManagers.lookup id = some actor' ∧ m ∈ actor'.inbox) ∨
        (m.1 = system.clock ∧ system.MayAsk m.2))
    (hwt : ∀ {suspended}, system'.Waits suspended → system.Waits suspended) :
    Handled system system' spawned where
  sessions := hsess
  arrives {id' actor' m} hlook hmem := by
    rw [htms, HashMap.lookup_insert_ite] at hlook
    split at hlook
    case isTrue heq =>
      subst heq
      cases hlook
      exact hinbox m hmem
    case isFalse => exact .inl ⟨_, hlook, hmem⟩
  initiating h := .inl (hwt h)
  forever := hwt

theorem Handled.setManager (h : Handled system next spawned)
    (hsess : system'.sessions = next.sessions) (htms : system'.topicManagers = next.topicManagers)
    (hmay : ∀ {suspended}, system'.Waits suspended → system.MayWait suspended) :
    Handled system system' spawned where
  sessions := hsess.trans h.sessions
  arrives hlook hmem := by
    rw [htms] at hlook
    exact h.arrives hlook hmem
  initiating h := .inr (hmay h)
  forever h := absurd (hmay h) id

theorem Handled.of_sendMessage {message : ToTopicManager TP T}
    (h : system.sendMessage actorId message = .ok system')
    (hmsg : system.MayAsk message) : Handled system system' [] := by
  unfold sendMessage at h
  split at h
  case h_1 => cases h
  case h_2 actor hlook =>
    split at h <;> cases h
    refine Handled.of_insert (append_nil _).symm rfl (fun m hmem => ?_) fun h => h
    rcases mem_append.mp hmem with hmem | hmem
    · exact .inl ⟨actor, hlook, hmem⟩
    · cases mem_singleton.mp hmem
      exact .inr ⟨rfl, hmsg⟩

theorem Handled.of_castMessage (actorId : ActorId) (message : ToTopicManager TP T)
    (hmsg : system.MayAsk message) :
    Handled system (system.castMessage actorId message) [] := by
  unfold castMessage
  split
  case h_1 next hsend => exact .of_sendMessage hsend hmsg
  case h_2 => exact .of_eq rfl rfl rfl

theorem Handled.of_sendToTopic {topic : TP} {message : Bool → ToTopicManager TP T}
    (h : system.sendToTopic manager topic message = .ok system')
    (hmsg : ∀ liveMode, system.MayAsk (message liveMode)) :
    Handled system system' [] := by
  unfold sendToTopic at h
  split at h
  case h_1 actorId liveMode hlook =>
    exact .of_sendMessage h (hmsg liveMode)
  case h_2 =>
    cases h
    exact .of_eq rfl rfl rfl

theorem Handled.of_finishClose {topic : TP} (h : system.finishClose manager topic = .ok system')
    (hidle : manager.suspended = none) : Handled system system' [] := by
  unfold finishClose at h
  split at h
  case h_1 =>
    cases h
    have hsame : Handled system system [] := .of_eq rfl rfl rfl
    exact hsame.setManager rfl rfl (by simp [Waits, hidle, dropTopicState])
  case h_2 actorId _ hlook =>
    split at h <;> cases h
    case h_2 actor hactor =>
      refine Handled.of_insert (append_nil _).symm rfl (fun m hmem => .inl ⟨actor, hactor, hmem⟩)
        (by simp [Waits, hidle, dropTopicState])

theorem Handled.of_handleMessage (faults : SyncQuery → Option String) (message : ToSyncManager TP)
    (hidle : manager.suspended = none)
    (h : system.handleMessage manager faults message = .ok system') :
    Handled system system' [] := by
  have hsame : Handled system system [] := .of_eq rfl rfl rfl
  cases message with
  | registerProtocol =>
    obtain ⟨-, -, h⟩ := bind_eq_ok.mp h
    cases h
    exact hsame
  | create topic liveMode =>
    dsimp only [handleMessage] at h
    split at h
    case h_1 =>
      cases h
      exact hsame
    case h_2 =>
      obtain ⟨-, -, h⟩ := bind_eq_ok.mp h
      obtain ⟨-, -, h⟩ := bind_eq_ok.mp h
      cases h
      exact Handled.of_insert (append_nil _).symm rfl (fun m hmem => nomatch hmem)
        (by simp [Waits, hidle])
  | subscribe topic =>
    cases h
    exact hsame
  | close topic =>
    dsimp only [handleMessage] at h
    split at h
    case h_1 => exact .of_finishClose h hidle
    case h_2 actorId _ hlook =>
      obtain ⟨next, hsend, h⟩ := bind_eq_ok.mp h
      cases h
      have heff : Handled system next [] := .of_sendMessage hsend nofun
      exact heff.setManager rfl rfl (by simp +contextual [Waits, MayWait])
  | initiateSync topic nodeId =>
    dsimp only [handleMessage] at h
    split at h
    case isTrue hallowed =>
      cases h
      exact hsame.setManager rfl rfl (by simp +contextual [Waits, MayWait, hallowed])
    case isFalse =>
      cases h
      exact .of_eq rfl rfl rfl
  | accept nodeId topic => exact .of_sendToTopic h nofun
  | endSync topic nodeId => exact .of_sendToTopic h nofun

theorem Handled.of_resume {suspended : Suspended TP} (hmgr : system.manager = some manager)
    (hsusp : manager.suspended = some suspended)
    (hresume : system.resume manager suspended = some result) (h : result = .ok system') :
    Handled system system' [] := by
  subst h
  cases suspended with
  | initiating topic nodeId =>
    obtain ⟨next, hsend, h⟩ := bind_eq_ok.mp (Option.some.inj hresume)
    cases h
    have heff : Handled system next [] := by
      apply Handled.of_sendToTopic hsend
      intro nodeId' topic' _ _ heq
      cases heq
      exact ⟨manager, hmgr, hsusp⟩
    exact heff.setManager rfl rfl (by simp [Waits])
  | closing topic actorId reply =>
    dsimp only [resume] at hresume
    split at hresume
    · cases hresume
    · exact .of_finishClose (Option.some.inj hresume) rfl
  | forever => cases hresume

theorem Handled.settle (h : ∀ {next}, result = .ok next → Handled system next []) :
    Handled system (system.settle result) [] := by
  unfold SyncSystem.settle
  split
  case h_1 next => exact h rfl
  case h_2 =>
    have hsame : Handled system system [] := .of_eq rfl rfl rfl
    exact hsame.setManager rfl rfl (by simp [Waits])

theorem Handled.of_stepManager {faults : SyncQuery → Option String}
    (h : system.stepManager faults = some system') : Handled system system' [] := by
  unfold stepManager at h
  split at h
  case h_1 => cases h
  case h_2 manager hmgr =>
    split at h
    case h_1 suspended hsusp =>
      obtain ⟨result, hresume, rfl⟩ := Option.map_eq_some_iff.mp h
      exact .settle (.of_resume hmgr hsusp hresume)
    case h_2 hidle =>
      split at h
      case h_1 => cases h
      case h_2 message inbox hinbox =>
        cases h
        have heff : Handled { system with inbox := inbox } _ [] :=
          .settle (.of_handleMessage faults message hidle)
        exact ⟨⟨heff.sessions, heff.arrives, heff.initiating⟩, heff.forever⟩

theorem Effect.of_stepEnded (h : system.stepEnded = some system') : Effect system system' [] := by
  have hsame : Handled system system [] := .of_eq rfl rfl rfl
  unfold stepEnded at h
  split at h
  case h_2 => cases h
  case h_1 manager actorId failed ended hmgr hended =>
    split at h <;> cases h
    case h_2 hidle =>
      unfold handleEnded
      split
      case h_1 => exact Handled.toEffect (.of_eq rfl rfl rfl)
      case h_2 topic hlook =>
        split
        · exact ⟨(append_nil _).symm, fun hlook hmem => .inl ⟨_, hlook, hmem⟩, by simp [Initiating]⟩
        · exact Handled.toEffect (hsame.setManager rfl rfl (by simp [Waits, hidle, dropTopicState]))

theorem Effect.of_stepSessionEnded {actorId sessionActorId : ActorId} {failed : Bool}
    {order : HashOrder NodeId}
    (h : system.stepSessionEnded actorId sessionActorId failed order = some system') :
    Effect system system' [] := by
  unfold stepSessionEnded at h
  split at h
  case h_1 => cases h
  case h_2 actor hlook =>
    cases h
    exact Handled.toEffect (.of_insert (append_nil _).symm rfl
      (fun m hmem => .inl ⟨actor, hlook, hmem⟩) fun h => h)

/-- A topic manager spawns the session for its next message. -/
def Spawns (system : SyncSystem TP T) (actorId : ActorId) (fault : Option String) (sentAt : Nat)
    (session : Session TP) : Prop :=
  ∃ actor message inbox state, system.topicManagers.lookup actorId = some actor ∧
    actor.inbox = (sentAt, message) :: inbox ∧
    TopicManager.handle actor.state system.nextActorId fault message = .ok (state, some session)

theorem Effect.of_stepTopicManager {fault : Option String}
    (h : system.stepTopicManager actorId fault = some system') :
    ∃ spawned, Effect system system' spawned ∧
      ∀ sentAt session, (sentAt, session) ∈ spawned ↔
        system.Spawns actorId fault sentAt session := by
  unfold stepTopicManager at h
  split at h
  case h_1 => cases h
  case h_2 actor hlook =>
    have herase : ∀ ended, Effect system { system with
          topicManagers := system.topicManagers.erase actorId
          ended := ended } [] := by
      intro ended
      refine ⟨(append_nil _).symm, fun {id actor' m} hlookup' hmem => .inl ?_, .inl⟩
      rw [HashMap.lookup_erase_ite] at hlookup'
      split at hlookup'
      · cases hlookup'
      · exact ⟨_, hlookup', hmem⟩
    split at h
    case h_1 hinbox =>
      split at h <;> cases h
      exact ⟨[], herase _, by simp [Spawns, hlook, hinbox]⟩
    case h_2 sentAt message inbox hinbox =>
      split at h
      case h_1 state session hhdl =>
        cases h
        refine ⟨session.toList.map (sentAt, ·), ?_, ?_⟩
        · refine Handled.toEffect (.of_insert rfl rfl
            (fun m hmem => .inl ⟨actor, hlook, ?_⟩) fun h => h)
          rw [hinbox]
          exact mem_cons_of_mem _ hmem
        · simp [Spawns, hlook, hinbox, hhdl, and_comm]
      case h_2 hfail =>
        cases h
        refine ⟨[], herase _, ?_⟩
        simpa [Spawns, hlook, hinbox] using fun _ session _ state => hfail state (some session)

theorem Effect.of_step (h : system.step act = some system') :
    system'.clock = system.clock + 1 ∧
      ∃ spawned, Effect system system' spawned ∧
        ∀ sentAt session, (sentAt, session) ∈ spawned ↔
          ∃ actorId fault, act = .topicManager actorId fault ∧
            system.Spawns actorId fault sentAt session := by
  obtain ⟨next, hact, rfl⟩ := Option.map_eq_some_iff.mp h
  have hclock : ∀ {spawned}, Effect system next spawned →
      Effect system { next with clock := system.clock + 1 } spawned :=
    fun heff => ⟨heff.sessions, heff.arrives, heff.initiating⟩
  have hnone : Effect system next [] → (∀ actorId fault, act ≠ .topicManager actorId fault) →
      ∃ spawned, Effect system { next with clock := system.clock + 1 } spawned ∧
        ∀ sentAt session, (sentAt, session) ∈ spawned ↔
          ∃ actorId fault, act = .topicManager actorId fault ∧
            system.Spawns actorId fault sentAt session := by
    intro heff hoth
    refine ⟨[], hclock heff, fun sentAt session => ⟨nofun, ?_⟩⟩
    rintro ⟨actorId, fault, rfl, -⟩
    exact absurd rfl (hoth actorId fault)
  refine ⟨rfl, ?_⟩
  cases act with
  | authorise change =>
    cases hact
    exact hnone (Handled.toEffect (.of_eq rfl rfl rfl)) nofun
  | send message =>
    cases hact
    exact hnone (Handled.toEffect (.of_eq rfl rfl rfl)) nofun
  | publish actorId data =>
    cases hact
    exact hnone (Handled.toEffect (.of_castMessage actorId (.publish data) nofun)) nofun
  | manager faults => exact hnone (Handled.of_stepManager hact).toEffect nofun
  | ended => exact hnone (.of_stepEnded hact) nofun
  | topicManager actorId fault =>
    obtain ⟨spawned, heff, hspn⟩ := Effect.of_stepTopicManager hact
    refine ⟨spawned, hclock heff, fun sentAt session => (hspn sentAt session).trans ?_⟩
    constructor
    · exact fun h => ⟨actorId, fault, rfl, h⟩
    · rintro ⟨_, _, heq, h⟩
      cases heq
      exact h
  | sessionEnded actorId sessionActorId failed order =>
    exact hnone (.of_stepSessionEnded hact) nofun
  | timer i =>
    obtain ⟨⟨actorId, nodeId⟩, -, rfl⟩ := Option.map_eq_some_iff.mp hact
    have hcast : Handled { system with timers := system.timers.eraseIdx i } _ [] :=
      .of_castMessage actorId (.retry nodeId true) nofun
    exact hnone ⟨hcast.sessions, hcast.arrives, hcast.initiating⟩ nofun

end P2Panda.Net.Sync.SyncSystem
