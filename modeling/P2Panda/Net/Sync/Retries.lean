import P2Panda.Library.Runs
import P2Panda.Net.Sync.TopicManager

/-!
# Skipped retries

An actor stays alive when its protocol run returned without an error, and the topic manager skips a
retry as long as there is an actor, whether it still syncs or not.
-/

namespace P2Panda.Net.Sync

open P2Panda.Library TopicManagerState HashMap TopicManager Option

/-- The sessions whose actor has not ended, with the remote node and whether the protocol run has
returned. -/
structure TopicSystem (TP : Type) where
  state : TopicManagerState TP
  sessions : HashMap SyncSessionId (NodeId × Bool)

inductive TopicAct (TP T : Type) where
  | handle (message : ToTopicManager TP T) (actorId : ActorId) (fault : Option String)
  | returned (id : SyncSessionId)
  | ended (actorId : ActorId) (failed : Bool) (order : HashOrder NodeId)

namespace TopicSystem

variable {TP T : Type}

def new (topic : TP) : TopicSystem TP := ⟨.new topic, ∅⟩

/-- The protocol run of a session with the node has not yet returned. -/
def Running (system : TopicSystem TP) (nodeId : NodeId) : Prop :=
  ∃ id, system.sessions.lookup id = some (nodeId, false)

/-- Each session has an entry with the node it is with. -/
structure Registered (system : TopicSystem TP) : Prop where
  current : ∀ {nodeId id}, id ∈ system.state.currentSessions nodeId ↔
    ∃ returned, system.sessions.lookup id = some (nodeId, returned)
  fresh : ∀ {id}, system.state.nextSessionId ≤ id → system.sessions.lookup id = none

variable [DecidableEq TP] {topic : TP} {acts : List (TopicAct TP T)} {system next : TopicSystem TP}
  {nodeId : NodeId}

/-- A topic manager which returns an error or panics takes no more steps. -/
def step (self : TopicSystem TP) : TopicAct TP T → Option (TopicSystem TP)
  | .handle message actorId fault =>
    match TopicManager.handle self.state actorId fault message with
    | .ok (state, session) => some ⟨state, session.elim self.sessions fun session =>
        self.sessions.insert self.state.nextSessionId (session.remote, false)⟩
    | _ => none
  | .returned id =>
    some { self with sessions := self.sessions.andModify id fun session => (session.1, true) }
  | .ended actorId failed order => some
      ⟨(TopicManager.handleSessionEnded self.state order actorId failed).1,
        (self.state.actorSessionIdMap.lookup actorId).elim self.sessions self.sessions.erase⟩

def run (self : TopicSystem TP) (acts : List (TopicAct TP T)) : Option (TopicSystem TP) :=
  acts.foldlM step self

/-- The message is handled without a new session. -/
def Skips (system : TopicSystem TP) (message : ToTopicManager TP T) : Prop :=
  ∃ actorId fault state, TopicManager.handle system.state actorId fault message = .ok (state, none)

variable {state : TopicManagerState TP}

theorem mem_currentSessions_newSession {id : SyncSessionId} {actorId : ActorId} {remote : NodeId} :
    id ∈ (state.newSession actorId remote topic).currentSessions nodeId ↔
      nodeId = remote ∧ id = state.nextSessionId ∨ id ∈ state.currentSessions nodeId := by
  unfold currentSessions newSession
  rw [lookup_andModifyOrInsert]
  split_ifs with hrmt
  · subst hrmt
    cases state.nodeSessionMap.lookup nodeId <;> simp
  · simp [hrmt]

theorem mem_currentSessions_dropSession {id dropped : SyncSessionId} {order : HashOrder NodeId} :
    id ∈ (state.dropSession order dropped).currentSessions nodeId ↔
      id ≠ dropped ∧ id ∈ state.currentSessions nodeId := by
  have hfold (nodeIds : List NodeId) (sessions : HashMap NodeId (Finset SyncSessionId)) :
      (nodeIds.foldl (fun sessions nodeId => sessions.andModify nodeId (·.erase dropped))
        sessions).lookup nodeId = if nodeId ∈ nodeIds then
          (sessions.lookup nodeId).map (·.erase dropped) else sessions.lookup nodeId := by
    induction nodeIds generalizing sessions with
    | nil => rfl
    | cons first nodeIds ih =>
      rw [List.foldl_cons, ih, lookup_andModify]
      by_cases hfst : nodeId = first
      · subst hfst
        cases sessions.lookup nodeId <;> simp
      · simp [hfst]
  unfold currentSessions dropSession
  rw [hfold]
  cases hlook : state.nodeSessionMap.lookup nodeId with
  | none => simp
  | some sessions =>
    have hmem : nodeId ∈ state.nodeSessionMap.keys := mem_keys_iff.mpr ⟨sessions, hlook⟩
    simp [hmem]

theorem Registered.step {act : TopicAct TP T} (h : system.Registered)
    (hstep : system.step act = some next) : next.Registered := by
  obtain ⟨hcur, hfresh⟩ := h
  cases act with
  | handle message actorId fault =>
    dsimp only [TopicSystem.step] at hstep
    split at hstep
    case h_2 => cases hstep
    case h_1 state session hhdl =>
      cases hstep
      obtain ⟨active, rfl⟩ := handle_eq_ok hhdl
      cases session with
      | none => exact ⟨hcur, hfresh⟩
      | some session =>
        refine ⟨mem_currentSessions_newSession.trans ((or_congr_right hcur).trans ?_), ?_⟩
        · simp only [elim_some, lookup_insert_ite]
          split_ifs with hid
          · simp [hid, hfresh, eq_comm]
          · simp [hid]
        · simp only [elim_some, lookup_insert_ite, newSession]
          grind
  | returned id =>
    cases hstep
    refine ⟨hcur.trans ?_, ?_⟩
    · simp only [lookup_andModify]
      split_ifs with hid
      · rw [hid]
        simp
      · rfl
    · simp only [lookup_andModify]
      grind
  | ended actorId failed order =>
    cases hstep
    cases hid : system.state.actorSessionIdMap.lookup actorId with
    | none =>
      rw [handleSessionEnded, hid]
      exact ⟨hcur, hfresh⟩
    | some dropped =>
      have hst : (handleSessionEnded system.state order actorId failed).1 =
          { system.state with actorSessionIdMap :=
              system.state.actorSessionIdMap.erase actorId }.dropSession order dropped := by
        rw [handleSessionEnded, hid]
        dsimp only
        split_ifs
        · split <;> rfl
        · rfl
      rw [hst]
      refine ⟨mem_currentSessions_dropSession.trans ((and_congr_right' hcur).trans ?_), ?_⟩
      · simp only [elim_some, lookup_erase_ite]
        grind
      · intro id hle
        rw [elim_some, lookup_erase_ite, hfresh hle, ite_self]

theorem Registered.of_run (hrun : (new topic).run acts = some system) : system.Registered := by
  have hnew : (new topic).Registered := by
    refine ⟨iff_of_false (Finset.notMem_empty _) ?_, fun _ => rfl⟩
    rintro ⟨returned, ⟨⟩⟩
  exact Runs.invariant Registered.step hnew hrun

theorem skips_retry_iff {liveMode : Bool} (hactv : nodeId ∈ system.state.activeSyncSet) :
    system.Skips (.retry nodeId liveMode : ToTopicManager TP T) ↔
      (system.state.currentSessions nodeId).Nonempty := by
  rw [Finset.nonempty_iff_ne_empty, Skips]
  simp only [handle, if_neg (not_not.mpr hactv)]
  split_ifs with hcur
  · exact iff_of_true ⟨0, none, _, rfl⟩ hcur
  · refine iff_of_false ?_ hcur
    rintro ⟨actorId, fault, state, hspawn⟩
    obtain ⟨-, -, ⟨⟩⟩ := spawnSession_eq_ok hspawn

/-- A retry is skipped only for a running session if and only if no actor of a session with the node
is left, or the protocol run of one of them has not returned. -/
theorem skips_only_running_iff (hrun : (new topic).run acts = some system)
    (hactive : nodeId ∈ system.state.activeSyncSet) (liveMode : Bool) :
    (system.Skips (.retry nodeId liveMode : ToTopicManager TP T) → system.Running nodeId) ↔
      (¬∃ id returned, system.sessions.lookup id = some (nodeId, returned)) ∨
        system.Running nodeId := by
  rw [skips_retry_iff hactive, imp_iff_not_or]
  exact or_congr_left (not_congr (exists_congr fun id => (Registered.of_run hrun).current))

def sampleNode : NodeId := ⟨Vector.replicate Core.VERIFYING_KEY_LEN 7⟩

def sampleStart : List (TopicAct Nat Unit) := [.handle (.initiate sampleNode 3 true) 0 none]

theorem skips_sampleStart : ∃ system, (new 3).run sampleStart = some system ∧
    (system.Skips (.retry sampleNode true : ToTopicManager Nat Unit) →
      system.Running sampleNode) := by
  have hrun : (new 3).run sampleStart = some _ := rfl
  have hactv := Finset.mem_insert_self sampleNode ∅
  exact ⟨_, hrun, (skips_only_running_iff hrun hactv true).mpr (.inr ⟨0, rfl⟩)⟩

/-- The protocol run of the only session returned without an error. -/
theorem skips_without_running : ∃ system,
    (new 3).run (sampleStart ++ [.returned 0]) = some system ∧
      sampleNode ∈ system.state.activeSyncSet ∧
      system.Skips (.retry sampleNode true : ToTopicManager Nat Unit) ∧
      ¬system.Running sampleNode := by
  refine ⟨_, rfl, Finset.mem_insert_self _ _, ⟨0, none, _, rfl⟩, ?_⟩
  rintro ⟨id, hses⟩
  rw [lookup_andModify] at hses
  split_ifs at hses with hzero
  · cases hses
  · rw [elim_some, lookup_insert_ite] at hses
    cases (if_neg hzero).symm.trans hses

end TopicSystem

end P2Panda.Net.Sync
