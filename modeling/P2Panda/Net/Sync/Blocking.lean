import P2Panda.Core.Logs
import P2Panda.Net.Sync.Effects

/-!
# Blocked nodes

The authoriser is asked for every session the manager wants to initiate, but not when a topic
manager retries after a failed one. So a blocked node is only contacted for later messages by a
retry, while it is in the active set.
-/

namespace P2Panda.Net.Sync.SyncSystem

open P2Panda.Library P2Panda.Core List Runs

variable {TP T : Type} [DecidableEq TP] {system system' : SyncSystem TP T} {act : Act TP T}

structure Stamped (system : SyncSystem TP T) : Prop where
  inbox : ∀ {id actor m}, system.topicManagers.lookup id = some actor → m ∈ actor.inbox →
    m.1 < system.clock
  sessions : ∀ {m}, m ∈ system.sessions → m.1 < system.clock

omit [DecidableEq TP] in
theorem stamped_new : (new : SyncSystem TP T).Stamped where
  inbox hlook := by simp [new] at hlook
  sessions hmem := nomatch hmem

theorem Stamped.step (h : system.Stamped) (hstep : system.step act = some system') :
    system'.Stamped := by
  obtain ⟨hclock, spawned, heff, hspn⟩ := Effect.of_step hstep
  constructor
  case inbox =>
    intro id actor m hlook hmem
    rw [hclock, Nat.lt_succ_iff]
    rcases heff.arrives hlook hmem with ⟨actor', hlookup', hmem'⟩ | ⟨heq, -⟩
    · exact (h.inbox hlookup' hmem').le
    · exact heq.le
  case sessions =>
    intro m hmem
    rw [hclock]
    apply Nat.lt_succ_of_lt
    rw [heff.sessions] at hmem
    rcases mem_append.mp hmem with hmem | hmem
    · exact h.sessions hmem
    · obtain ⟨_, _, -, actor, message, inbox, -, hlook, hinbox, -⟩ := (hspn m.1 m.2).mp hmem
      exact h.inbox hlook (by rw [hinbox]; exact mem_cons_self)

/-- No later message asks for a session with the node on the topic. -/
structure Quiet (since : Nat) (topic : TP) (nodeId : NodeId) (system : SyncSystem TP T) :
    Prop where
  inbox : ∀ {id actor sentAt liveMode}, system.topicManagers.lookup id = some actor →
    (sentAt, .initiate nodeId topic liveMode) ∈ actor.inbox → sentAt < since
  idle : ¬system.Initiating topic nodeId

/-- All outgoing sessions with the node on the topic are for earlier messages. -/
def NotContacted (since : Nat) (topic : TP) (nodeId : NodeId) (system : SyncSystem TP T) : Prop :=
  ∀ m ∈ system.sessions, m.2.role = .initiator → m.2.remote = nodeId → m.2.topic = topic →
    m.1 < since

/-- A later retry with the node on the topic is skipped: the node is not in the active set, or has a
session. Otherwise no session can be spawned at all. -/
def Skips (since : Nat) (topic : TP) (nodeId : NodeId) (system : SyncSystem TP T) :
    Act TP T → Prop
  | .topicManager actorId fault =>
    ∀ actor ∈ system.topicManagers.lookup actorId, ∀ sentAt liveMode inbox,
      actor.inbox = (sentAt, .retry nodeId liveMode) :: inbox → since ≤ sentAt →
        actor.state.topic = topic →
          nodeId ∉ actor.state.activeSyncSet ∨ actor.state.currentSessions nodeId ≠ ∅ ∨
            fault ≠ none
  | _ => True

variable {since : Nat} {topic : TP} {nodeId : NodeId}

theorem Quiet.step (h : system.Quiet since topic nodeId)
    (hblk : system.authoriser.canConnectOnTopic nodeId topic = false)
    (hstep : system.step act = some system') : system'.Quiet since topic nodeId := by
  obtain ⟨-, spawned, heff, -⟩ := Effect.of_step hstep
  constructor
  case inbox =>
    intro id actor sentAt liveMode hlook hmem
    rcases heff.arrives hlook hmem with ⟨actor', hlookup', hmem'⟩ | ⟨-, hinitiate⟩
    · exact h.inbox hlookup' hmem'
    · exact absurd (hinitiate nodeId topic liveMode rfl) h.idle
  case idle =>
    intro hinitiating
    rcases heff.initiating hinitiating with hbef | hallowed
    · exact h.idle hbef
    · rw [hblk] at hallowed
      cases hallowed

/-- In a quiet system, an outgoing session is one that is not skipped. -/
theorem Quiet.skips_iff (h : system.Quiet since topic nodeId) (act : Act TP T) :
    system.Skips since topic nodeId act ↔
      ∀ actorId fault, act = .topicManager actorId fault → ∀ sentAt session,
        system.Spawns actorId fault sentAt session → session.role = .initiator →
          session.remote = nodeId → session.topic = topic → sentAt < since := by
  constructor
  · rintro hskips actorId fault rfl sentAt session
      ⟨actor, message, inbox, state, hlook, hinbox, hhdl⟩ hrole hrmt htop
    obtain ⟨hfault, ⟨liveMode, rfl⟩ | ⟨liveMode, rfl, htopic', hactv, hemp⟩⟩ :=
      TopicManager.initiator_iff.mp ⟨state, session, hhdl, hrole, hrmt, htop⟩
    · exact h.inbox hlook (by rw [hinbox]; exact mem_cons_self)
    · by_contra hlate
      rcases hskips actor hlook sentAt liveMode inbox hinbox (Nat.not_lt.mp hlate) htopic' with
        hnot | hrunning | hfaulty
      · exact hnot hactv
      · exact hrunning hemp
      · exact hfaulty hfault
  · intro hspawns
    cases act with
    | topicManager actorId fault =>
      intro actor hlook sentAt liveMode inbox hinbox hlate htop
      by_contra hnot
      simp only [not_or, not_not] at hnot
      obtain ⟨hactv, hemp, hfault⟩ := hnot
      obtain ⟨state, session, hhdl, hrole, hrmt, htopic'⟩ := TopicManager.initiator_iff.mpr
          (.intro hfault (.inr ⟨liveMode, rfl, htop, hactv, hemp⟩))
      exact absurd (hspawns actorId fault rfl sentAt session
        ⟨actor, _, inbox, state, hlook, hinbox, hhdl⟩ hrole hrmt htopic')
        (Nat.not_lt.mpr hlate)
    | _ => trivial

theorem Quiet.notContacted_iff (h : system.Quiet since topic nodeId)
    (hstep : system.step act = some system') :
    system'.NotContacted since topic nodeId ↔
      system.NotContacted since topic nodeId ∧ system.Skips since topic nodeId act := by
  obtain ⟨-, spawned, heff, hspn⟩ := Effect.of_step hstep
  rw [h.skips_iff, NotContacted, heff.sessions]
  constructor
  · intro hall
    refine ⟨fun m hmem => hall m (mem_append_left _ hmem), ?_⟩
    intro actorId fault hact sentAt session hspawns
    exact hall (sentAt, session) (mem_append_right _
      ((hspn sentAt session).mpr ⟨actorId, fault, hact, hspawns⟩))
  · rintro ⟨hbef, hnow⟩ m hmem
    rcases mem_append.mp hmem with hmem | hmem
    · exact hbef m hmem
    · obtain ⟨actorId, fault, hact, hspawns⟩ := (hspn m.1 m.2).mp hmem
      exact hnow actorId fault hact m.1 m.2 hspawns

/-- A node that is blocked from some point on, and that the manager is not about to contact then, is
not contacted for later messages just if all retries with it are skipped. -/
theorem notContacted_iff_skips {acts₀ acts : List (Act TP T)} {blocked : SyncSystem TP T}
    (hrun₀ : new.run acts₀ = some blocked) (hidle : ¬blocked.Initiating topic nodeId)
    (hblocked : Runs.Always step (fun system _ =>
      system.authoriser.canConnectOnTopic nodeId topic = false) acts blocked)
    (hrun : blocked.run acts = some system) :
    system.NotContacted blocked.clock topic nodeId ↔
      Runs.Always step (Skips blocked.clock topic nodeId) acts blocked := by
  have hstamped : blocked.Stamped := invariant (fun h hstep => h.step hstep) stamped_new hrun₀
  have hquiet : blocked.Quiet blocked.clock topic nodeId :=
    ⟨fun hlook hmem => hstamped.inbox hlook hmem, hidle⟩
  have hbef : blocked.NotContacted blocked.clock topic nodeId :=
    fun m hmem _ _ _ => hstamped.sessions hmem
  have hiff : system.NotContacted blocked.clock topic nodeId ↔
      blocked.NotContacted blocked.clock topic nodeId ∧
        Always step (Skips blocked.clock topic nodeId) acts blocked :=
    goal_iff_always (fun h hq hstep => ⟨h.step hq hstep, h.notContacted_iff hstep⟩)
      hquiet hblocked hrun
  exact hiff.trans (and_iff_right hbef)

def sampleNode : NodeId := ⟨Vector.replicate VERIFYING_KEY_LEN 7⟩

def sampleActs : List (Act Nat Unit) :=
  [.manager fun _ => none, .send (.create 3 true), .manager fun _ => none,
    .send (.initiateSync 3 sampleNode), .manager fun _ => none, .manager fun _ => none,
    .topicManager 0 none, .authorise (.topicBlock sampleNode 3)]

def sampleRetry : List (Act Nat Unit) :=
  [.sessionEnded 0 1 true LogOrder.numbered.author, .timer 0, .topicManager 0 none]

def sampleLeft : List (Act Nat Unit) :=
  [.send (.endSync 3 sampleNode), .manager fun _ => none, .topicManager 0 none,
    .sessionEnded 0 1 true LogOrder.numbered.author]

def sampleBlocked : SyncSystem Nat Unit := (new.run sampleActs).getD new

theorem run_sampleActs : new.run sampleActs = some sampleBlocked := rfl

theorem not_initiating_sampleBlocked : ¬sampleBlocked.Initiating 3 sampleNode := by
  rintro ⟨manager, hmem, hsusp⟩
  cases hmem
  cases hsusp

theorem not_contacted_left :
    ∃ system, sampleBlocked.run sampleLeft = some system ∧
      system.NotContacted sampleBlocked.clock 3 sampleNode := by
  have hrun : sampleBlocked.run sampleLeft = some _ := rfl
  refine ⟨_, hrun, (notContacted_iff_skips run_sampleActs
    not_initiating_sampleBlocked ?_ hrun).mpr ?_⟩
  · refine (always_cons rfl).mpr ⟨by decide +kernel, ?_⟩
    refine (always_cons rfl).mpr ⟨by decide +kernel, ?_⟩
    refine (always_cons rfl).mpr ⟨by decide +kernel, ?_⟩
    exact (always_cons rfl).mpr ⟨by decide +kernel, trivial⟩
  · refine (always_cons rfl).mpr ⟨trivial, ?_⟩
    refine (always_cons rfl).mpr ⟨trivial, ?_⟩
    refine (always_cons rfl).mpr ⟨?_, ?_⟩
    · rintro actor hlook sentAt liveMode inbox hinbox
      cases hlook
      cases hinbox
    · exact (always_cons rfl).mpr ⟨trivial, trivial⟩

theorem contacted_after_failure :
    new.run sampleActs = some sampleBlocked ∧ ¬sampleBlocked.Initiating 3 sampleNode ∧
      Runs.Always step (fun system _ =>
        system.authoriser.canConnectOnTopic sampleNode 3 = false) sampleRetry sampleBlocked ∧
      ∃ system, sampleBlocked.run sampleRetry = some system ∧
        ¬system.NotContacted sampleBlocked.clock 3 sampleNode := by
  refine ⟨rfl, not_initiating_sampleBlocked, ?_, _, rfl, ?_⟩
  · refine (always_cons rfl).mpr ⟨by decide +kernel, ?_⟩
    refine (always_cons rfl).mpr ⟨by decide +kernel, ?_⟩
    exact (always_cons rfl).mpr ⟨by decide +kernel, trivial⟩
  · intro hnot
    have hlate := hnot (9, ⟨3, sampleNode, true, .initiator⟩)
      (mem_of_getElem? (i := 1) rfl) rfl rfl rfl
    exact absurd hlate (by decide +kernel)

end P2Panda.Net.Sync.SyncSystem
