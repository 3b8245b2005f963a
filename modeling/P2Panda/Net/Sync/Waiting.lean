import P2Panda.Net.Sync.Effects

/-!
# Waiting handlers

The manager handles one message at a time, and waits for replies in a handler. When a topic manager
failed it sends a message to itself and waits for the reply, which only a later handler could give.
-/

namespace P2Panda.Net.Sync.SyncSystem

open P2Panda.Library Outcome

variable {TP T : Type}

/-- The manager lives and does not wait for itself. -/
def GoesOn (system : SyncSystem TP T) : Prop :=
  ∃ manager, system.manager = some manager ∧ manager.suspended ≠ some .forever

/-- The topic manager which is waited for, if any, has replied or died. -/
def Replied (system : SyncSystem TP T) : Prop :=
  ∀ manager ∈ system.manager, ∀ topic actorId reply,
    manager.suspended = some (.closing topic actorId reply) →
      system.isWaiting actorId reply = false

variable [DecidableEq TP]

/-- Once it was replied to, the manager finishes its handler and handles the next message. -/
def Handles (system : SyncSystem TP T) : Prop :=
  ∃ manager, system.manager = some manager ∧
    (system.Replied → manager.suspended ≠ none ∨ system.inbox ≠ [] →
      ∀ faults, (system.stepManager faults).isSome)

/-- The topic manager of the topic, if there is one, takes messages: it lives and is not drained. -/
def Listens (system : SyncSystem TP T) (manager : SyncManagerState TP) (topic : TP) : Prop :=
  ∀ entry ∈ manager.topicManagerMap.lookup topic,
    ∃ actor, system.topicManagers.lookup entry.1 = some actor ∧ actor.draining = false

def Lives (system : SyncSystem TP T) (manager : SyncManagerState TP) (topic : TP) : Prop :=
  ∀ entry ∈ manager.topicManagerMap.lookup topic, entry.1 ∈ system.topicManagers

/-- What is asked of endpoint, gossip and runtime works, and a topic manager which is sent a message
takes it. -/
def Accepts (system : SyncSystem TP T) (manager : SyncManagerState TP)
    (faults : SyncQuery → Option String) : ToSyncManager TP → Prop
  | .registerProtocol => faults .accept = none
  | .create topic _ => topic ∈ manager.topicManagerMap ∨
      faults .membership = none ∧ faults .spawn = none
  | .close topic | .accept _ topic | .endSync topic _ => system.Listens manager topic
  | .subscribe _ | .initiateSync _ _ => True

/-- The handler does not stop with an error, and no failure of a known topic manager is handled. -/
def Completes (system : SyncSystem TP T) : Act TP T → Prop
  | .manager faults => ∀ manager ∈ system.manager,
    match manager.suspended with
    | none => ∀ message ∈ system.inbox.head?, system.Accepts manager faults message
    | some (.initiating topic _) => system.Listens manager topic
    | some (.closing topic _ _) => system.Lives manager topic
    | some .forever => True
  | .ended => ∀ manager ∈ system.manager, ∀ actorId, system.ended.head? = some (actorId, true) →
      manager.actorTopicMap.lookup actorId = none
  | _ => True

variable {system next : SyncSystem TP T} {manager : SyncManagerState TP}

theorem handles_iff_goesOn : system.Handles ↔ system.GoesOn := by
  refine exists_congr fun manager => and_congr_right fun hmgr => ?_
  cases hsusp : manager.suspended with
  | none =>
    cases hinbox : system.inbox <;> simp [stepManager, hmgr, hsusp, hinbox]
  | some suspended =>
    cases suspended <;> simp +contextual [stepManager, hmgr, hsusp, resume, Replied]

omit [DecidableEq TP] in
theorem manager_sendMessage {actorId : ActorId} {message : ToTopicManager TP T}
    (h : system.sendMessage actorId message = .ok next) : next.manager = system.manager := by
  unfold sendMessage at h
  split at h
  · cases h
  · split at h <;> cases h
    rfl

omit [DecidableEq TP] in
theorem manager_castMessage (actorId : ActorId) (message : ToTopicManager TP T) :
    (system.castMessage actorId message).manager = system.manager := by
  unfold castMessage
  split
  case h_1 hsend => exact manager_sendMessage hsend
  case h_2 => rfl

omit [DecidableEq TP] in
theorem isOk_sendMessage {actorId : ActorId} (message : ToTopicManager TP T) :
    (system.sendMessage actorId message).IsOk ↔
      ∃ actor, system.topicManagers.lookup actorId = some actor ∧ actor.draining = false := by
  unfold sendMessage
  cases hlook : system.topicManagers.lookup actorId with
  | none => simp
  | some actor => cases hdrain : actor.draining <;> simp [hdrain]

theorem isOk_sendToTopic {topic : TP} (message : Bool → ToTopicManager TP T) :
    (system.sendToTopic manager topic message).IsOk ↔ system.Listens manager topic := by
  unfold sendToTopic Listens
  cases manager.topicManagerMap.lookup topic with
  | none => simp
  | some entry => simp [isOk_sendMessage]

theorem isOk_finishClose {topic : TP} :
    (system.finishClose manager topic).IsOk ↔ system.Lives manager topic := by
  unfold finishClose Lives
  cases manager.topicManagerMap.lookup topic with
  | none => simp
  | some entry =>
    simp only [Option.mem_def, Option.some.injEq, forall_eq', Finmap.mem_iff]
    cases system.topicManagers.lookup entry.1 <;> simp

theorem isOk_handleMessage {faults : SyncQuery → Option String} {message : ToSyncManager TP} :
    (system.handleMessage manager faults message).IsOk ↔ system.Accepts manager faults message := by
  cases message with
  | registerProtocol =>
    dsimp only [handleMessage, Accepts]
    cases faults .accept <;> simp [attempt]
  | create topic liveMode =>
    dsimp only [handleMessage, Accepts]
    rw [Finmap.mem_iff]
    cases manager.topicManagerMap.lookup topic with
    | some entry => simp
    | none =>
      cases faults .membership <;> cases faults .spawn <;> simp [attempt]
  | subscribe topic => simp [handleMessage, Accepts]
  | close topic =>
    dsimp only [handleMessage, Accepts, Listens]
    cases hlook : manager.topicManagerMap.lookup topic with
    | none => simp [isOk_finishClose, Lives, hlook]
    | some entry =>
      simp only [Option.mem_def, Option.some.injEq, forall_eq',
        ← isOk_sendMessage (.closeAll system.nextReply)]
      cases system.sendMessage entry.1 (.closeAll system.nextReply) <;> simp
  | initiateSync topic nodeId =>
    dsimp only [handleMessage, Accepts]
    split <;> simp
  | accept nodeId topic => exact isOk_sendToTopic _
  | endSync topic nodeId => exact isOk_sendToTopic _

omit [DecidableEq TP] in
/-- A handler which returns leaves the manager alive. -/
theorem manager_settle {result : Outcome SyncManagerError (SyncSystem TP T)}
    (h : ∀ next, result = .ok next → next.manager ≠ none) :
    (system.settle result).manager ≠ none ↔ result.IsOk := by
  cases result with
  | ok next => simpa [settle] using h next rfl
  | err error => simp [settle]
  | panic message => simp [settle]

theorem manager_sendToTopic {topic : TP} {message : Bool → ToTopicManager TP T}
    (h : system.sendToTopic manager topic message = .ok next) : next.manager = system.manager := by
  unfold sendToTopic at h
  split at h
  · exact manager_sendMessage h
  · cases h
    rfl

theorem manager_finishClose {topic : TP} (h : system.finishClose manager topic = .ok next) :
    next.manager ≠ none := by
  unfold finishClose at h
  split at h
  · cases h
    nofun
  · split at h <;> cases h
    nofun

theorem manager_handleMessage (hmgr : system.manager = some manager)
    {faults : SyncQuery → Option String} {message : ToSyncManager TP}
    (h : system.handleMessage manager faults message = .ok next) : next.manager ≠ none := by
  have hlives : system.manager ≠ none := by simp [hmgr]
  cases message with
  | registerProtocol =>
    obtain ⟨_, -, hret⟩ := bind_eq_ok.mp h
    cases hret
    exact hlives
  | create topic liveMode =>
    dsimp only [handleMessage] at h
    split at h
    · cases h
      exact hlives
    · obtain ⟨_, -, hret⟩ := bind_eq_ok.mp h
      obtain ⟨_, -, hret⟩ := bind_eq_ok.mp hret
      cases hret
      exact Option.some_ne_none _
  | subscribe topic =>
    cases h
    exact hlives
  | close topic =>
    dsimp only [handleMessage] at h
    split at h
    · exact manager_finishClose h
    · obtain ⟨_, -, hret⟩ := bind_eq_ok.mp h
      cases hret
      exact Option.some_ne_none _
  | initiateSync topic nodeId =>
    dsimp only [handleMessage] at h
    split at h <;> cases h
    · exact Option.some_ne_none _
    · exact hlives
  | accept nodeId topic => exact (manager_sendToTopic h).trans_ne hlives
  | endSync topic nodeId => exact (manager_sendToTopic h).trans_ne hlives

theorem manager_stepManager {faults : SyncQuery → Option String}
    (h : system.stepManager faults = some next) :
    next.manager ≠ none ↔ system.Completes (.manager faults) := by
  unfold stepManager at h
  unfold Completes
  cases hmgr : system.manager with
  | none =>
    rw [hmgr] at h
    cases h
  | some manager =>
    rw [hmgr] at h
    simp only [Option.mem_def, Option.some.injEq, forall_eq']
    dsimp only at h
    cases hsusp : manager.suspended with
    | none =>
      rw [hsusp] at h
      cases hinbox : system.inbox with
      | nil =>
        rw [hinbox] at h
        cases h
      | cons message inbox =>
        rw [hinbox] at h
        cases h
        refine (manager_settle fun _ => manager_handleMessage rfl).trans
          (isOk_handleMessage.trans ?_)
        simp only [List.head?_cons, Option.some.injEq, forall_eq']
        cases message <;> rfl
    | some suspended =>
      rw [hsusp] at h
      obtain ⟨result, hres, rfl⟩ := Option.map_eq_some_iff.mp h
      cases suspended with
      | initiating topic nodeId =>
        cases hres
        refine (manager_settle ?_).trans (Iff.trans ?_ (isOk_sendToTopic (.initiate nodeId topic)))
        · intro next hnext
          obtain ⟨_, -, hret⟩ := bind_eq_ok.mp hnext
          cases hret
          nofun
        · cases system.sendToTopic manager topic (.initiate nodeId topic) <;> simp
      | closing topic actorId reply =>
        dsimp only [resume] at hres
        split at hres <;> cases hres
        exact (manager_settle fun _ => manager_finishClose).trans isOk_finishClose
      | forever => cases hres

theorem goesOn_stepManager {faults : SyncQuery → Option String}
    (h : system.stepManager faults = some next) :
    system.GoesOn ∧ (next.GoesOn ↔ next.manager ≠ none) := by
  obtain ⟨manager, hmgr, hnot⟩ : system.GoesOn := by
    unfold stepManager at h
    split at h
    case h_1 => cases h
    case h_2 manager hmgr =>
      refine ⟨manager, hmgr, fun hforever => ?_⟩
      rw [hforever] at h
      cases h
  refine ⟨⟨manager, hmgr, hnot⟩, ?_⟩
  have hnot' : ¬next.Waits .forever := fun hwt => by
    obtain ⟨manager', hmem, hforever⟩ := (Handled.of_stepManager h).forever hwt
    cases hmgr.symm.trans hmem
    exact hnot hforever
  constructor
  · rintro ⟨manager', hmanager', -⟩
    simp [hmanager']
  · intro hlives
    obtain ⟨manager', hmanager'⟩ := Option.ne_none_iff_exists'.mp hlives
    exact ⟨manager', hmanager', fun hforever => hnot' ⟨manager', hmanager', hforever⟩⟩

theorem goesOn_stepEnded (h : system.stepEnded = some next) :
    system.GoesOn ∧ (next.GoesOn ↔ system.Completes .ended) := by
  unfold stepEnded at h
  split at h
  case h_2 => cases h
  case h_1 manager actorId failed ended hmgr hended =>
    split at h <;> cases h
    case h_2 hidle =>
      cases hlook : manager.actorTopicMap.lookup actorId <;> cases failed <;>
        simp [handleEnded, GoesOn, Completes, SyncManagerState.dropTopicState, *]

theorem goesOn_step {act : Act TP T} (h : system.step act = some next) :
    next.GoesOn ↔ system.GoesOn ∧ system.Completes act := by
  obtain ⟨next, hact, rfl⟩ := Option.map_eq_some_iff.mp h
  have hsame : next.manager = system.manager → (next.GoesOn ↔ system.GoesOn ∧ True) :=
    fun heq => by rw [GoesOn, heq, and_true, GoesOn]
  cases act with
  | authorise change | send message =>
    cases hact
    exact hsame rfl
  | publish actorId data =>
    cases hact
    exact hsame (manager_castMessage actorId _)
  | manager faults =>
    obtain ⟨hgoesOn, hiff⟩ := goesOn_stepManager hact
    exact (hiff.trans (manager_stepManager hact)).trans (and_iff_right hgoesOn).symm
  | ended =>
    obtain ⟨hgoesOn, hiff⟩ := goesOn_stepEnded hact
    exact hiff.trans (and_iff_right hgoesOn).symm
  | topicManager actorId fault =>
    refine hsame ?_
    dsimp only [SyncSystem.act, stepTopicManager] at hact
    repeat' split at hact
    all_goals cases hact
    all_goals rfl
  | sessionEnded actorId sessionActorId failed order =>
    refine hsame ?_
    dsimp only [SyncSystem.act, stepSessionEnded] at hact
    split at hact <;> cases hact
    rfl
  | timer i =>
    obtain ⟨⟨actorId, nodeId⟩, -, rfl⟩ := Option.map_eq_some_iff.mp hact
    exact hsame (manager_castMessage actorId _)

/-- Whatever comes, the manager handles it later, just if no handler stopped with an error and it
did not handle the failure of a topic manager. -/
theorem handles_iff_completes {acts : List (Act TP T)} (hrun : new.run acts = some system) :
    system.Handles ↔ Runs.Always step Completes acts new := by
  have hiff : system.GoesOn ↔ new.GoesOn ∧ Runs.Always step Completes acts new :=
    Runs.goal_iff_always (fun _ _ hstep => ⟨trivial, goesOn_step hstep⟩) trivial
      (Runs.always_of_forall fun _ _ => trivial) hrun
  have hnew : (new : SyncSystem TP T).GoesOn := ⟨_, rfl, nofun⟩
  rw [handles_iff_goesOn, hiff, and_iff_right hnew]

def sampleCreated : List (Act Nat Unit) :=
  [.manager fun _ => none, .send (.create 3 true), .manager fun _ => none]

theorem handles_sampleCreated : ∃ system, new.run sampleCreated = some system ∧ system.Handles := by
  have hrun : new.run sampleCreated = some _ := rfl
  refine ⟨_, hrun, (handles_iff_completes hrun).mpr ?_⟩
  refine (Runs.always_cons rfl).mpr ⟨?_, ?_⟩
  · rintro manager ⟨⟩
    rintro message ⟨⟩
    rfl
  refine (Runs.always_cons rfl).mpr ⟨trivial, ?_⟩
  refine (Runs.always_cons rfl).mpr ⟨?_, trivial⟩
  rintro manager ⟨⟩
  rintro message ⟨⟩
  exact Or.inr ⟨rfl, rfl⟩

/-- The topic manager cannot spawn a session. -/
def sampleFailure : List (Act Nat Unit) :=
  sampleCreated ++ [.send (.accept ⟨Vector.replicate Core.VERIFYING_KEY_LEN 7⟩ 3),
    .manager fun _ => none, .topicManager 0 (some "no threads"), .ended]

theorem waits_for_itself :
    ∃ system, new.run sampleFailure = some system ∧ system.Replied ∧ system.inbox ≠ [] ∧
      ∀ faults, system.stepManager faults = none := by
  refine ⟨_, rfl, ?_, nofun, fun faults => rfl⟩
  rintro manager hmem topic actorId reply hsusp
  cases hmem
  cases hsusp

end P2Panda.Net.Sync.SyncSystem
