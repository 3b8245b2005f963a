import P2Panda.Library.Runs
import P2Panda.Net.Gossip.Manager

/-!
# Gossip API

Handles and subscriptions of a topic share a guard; when the last of them is dropped, the overlay is
left. A topic with a handle and no subscription has a session and a channel without receivers.
-/

namespace P2Panda.Net

open P2Panda.Library RefCounts List

abbrev CounterId := Nat

def INITIAL_COUNTER : Nat := 1

structure GossipHandle (TP : Type) where
  topic : TP
  fromGossipTx : ChannelId
  guard : CounterId

structure GossipSubscription (TP : Type) where
  topic : TP
  fromTopicRx : ChannelId
  guard : CounterId

/-- A call of `stream` which has not returned yet. -/
inductive StreamCall (TP : Type) where
  | cloning (topic : TP) (fromGossipTx : ChannelId) (guard : CounterId)
  | starting (topic : TP) (guard : CounterId)
  | calling (topic : TP) (guard : CounterId) (reply : ReplyPort)

/-- The manager, everyone who uses it, and the messages between them. -/
structure GossipSystem (TP : Type) where
  manager : Option (GossipManagerState TP)
  inbox : List (ToGossipManager TP)
  runtime : Runtime
  senders : HashMap TP (ChannelId × CounterId)
  counters : RefCounts
  nextReply : ReplyPort
  calls : List (StreamCall TP)
  handles : List (GossipHandle TP)
  subscriptions : List (GossipSubscription TP)

namespace GossipSystem

variable {TP : Type}

def new [DecidableEq TP] : GossipSystem TP where
  manager := some .new
  -- Automatically register gossip ALPN after actor started.
  inbox := [.registerProtocol]
  runtime := ⟨.empty, 0, ∅⟩
  senders := ∅
  counters := .empty
  nextReply := 0
  calls := []
  handles := []
  subscriptions := []

/-! ## Guards -/

def sendMessage (self : GossipSystem TP) (message : ToGossipManager TP) : GossipSystem TP :=
  { self with inbox := self.inbox ++ [message] }

def cloneGuard (self : GossipSystem TP) (guard : CounterId) : GossipSystem TP :=
  { self with counters := self.counters.increment guard }

def dropGuard (self : GossipSystem TP) (topic : TP) (guard : CounterId) : GossipSystem TP :=
  let previousCounter := self.counters.get guard
  { self with
    counters := self.counters.decrement guard
    inbox :=
      if previousCounter = INITIAL_COUNTER then self.inbox ++ [.unsubscribe topic]
      else self.inbox }

/-! ## Calls -/

section Calls

variable [DecidableEq TP]

def stream (self : GossipSystem TP) (topic : TP) : GossipSystem TP :=
  let fresh : GossipSystem TP :=
    { self with
      counters := self.counters.create INITIAL_COUNTER
      calls := self.calls ++ [.starting topic self.counters.next] }
  match self.senders.lookup topic with
  | none => fresh
  | some (fromGossipTx, guard) =>
    if INITIAL_COUNTER ≤ self.counters.get guard then
      { self with calls := self.calls ++ [.cloning topic fromGossipTx guard] }
    else fresh

def proceed (self : GossipSystem TP) (i : Nat) (nodeIds : List NodeId) :
    Option (GossipSystem TP) :=
  match self.calls[i]? with
  | none => none
  | some (.cloning topic fromGossipTx guard) =>
    some { self.cloneGuard guard with
      calls := self.calls.eraseIdx i
      handles := self.handles ++ [⟨topic, fromGossipTx, guard⟩] }
  | some (.starting topic guard) =>
    some { self.sendMessage (.subscribe topic nodeIds self.nextReply) with
      nextReply := self.nextReply + 1
      calls := self.calls.set i (.calling topic guard self.nextReply) }
  | some (.calling topic guard reply) =>
    match self.runtime.replies.lookup reply with
    | none => none
    | some fromGossipTx =>
      some { self with
        senders := self.senders.insert topic (fromGossipTx, guard)
        calls := self.calls.eraseIdx i
        handles := self.handles ++ [⟨topic, fromGossipTx, guard⟩] }

/-- A call of `stream` fails or is cancelled where it waits. -/
def abort (self : GossipSystem TP) (i : Nat) : Option (GossipSystem TP) :=
  match self.calls[i]? with
  | none => none
  | some (.cloning _ _ _) => none
  | some (.starting topic guard) | some (.calling topic guard _) =>
    some { self.dropGuard topic guard with calls := self.calls.eraseIdx i }

def cloneHandle (self : GossipSystem TP) (i : Nat) : Option (GossipSystem TP) :=
  self.handles[i]?.map fun handle =>
    { self.cloneGuard handle.guard with handles := self.handles ++ [handle] }

def dropHandle (self : GossipSystem TP) (i : Nat) : Option (GossipSystem TP) :=
  self.handles[i]?.map fun handle =>
    { self.dropGuard handle.topic handle.guard with handles := self.handles.eraseIdx i }

/-- `GossipHandle::subscribe`. -/
def subscribe (self : GossipSystem TP) (i : Nat) : Option (GossipSystem TP) :=
  self.handles[i]?.map fun handle =>
    { self.cloneGuard handle.guard with
      runtime :=
        { self.runtime with channels := self.runtime.channels.increment handle.fromGossipTx }
      subscriptions :=
        self.subscriptions ++ [⟨handle.topic, handle.fromGossipTx, handle.guard⟩] }

def dropSubscription (self : GossipSystem TP) (i : Nat) : Option (GossipSystem TP) :=
  self.subscriptions[i]?.map fun subscription =>
    { self.dropGuard subscription.topic subscription.guard with
      runtime :=
        { self.runtime with
          channels := self.runtime.channels.decrement subscription.fromTopicRx }
      subscriptions := self.subscriptions.eraseIdx i }

def handleNext (self : GossipSystem TP) (faults : GossipQuery TP → Option String) :
    Option (GossipSystem TP) :=
  match self.manager, self.inbox with
  | some manager, message :: inbox =>
    match GossipManager.handle faults manager self.runtime message with
    | .ok (manager, runtime) => some { self with manager, inbox, runtime }
    | _ => some { self with manager := none, inbox }
  | _, _ => none

inductive Act (TP : Type) where
  | stream (topic : TP)
  | proceed (i : Nat) (nodeIds : List NodeId)
  | abort (i : Nat)
  | cloneHandle (i : Nat)
  | dropHandle (i : Nat)
  | subscribe (i : Nat)
  | dropSubscription (i : Nat)
  | send (message : ToGossipManager TP)
  | handle (faults : GossipQuery TP → Option String)
  | sessionFailed (actorId : ActorId)

def step (self : GossipSystem TP) : Act TP → Option (GossipSystem TP)
  | .stream topic => some (self.stream topic)
  | .proceed i nodeIds => self.proceed i nodeIds
  | .abort i => self.abort i
  | .cloneHandle i => self.cloneHandle i
  | .dropHandle i => self.dropHandle i
  | .subscribe i => self.subscribe i
  | .dropSubscription i => self.dropSubscription i
  | .send message =>
    match message with
    | .subscribe _ _ _ | .unsubscribe _ => none
    | message => some (self.sendMessage message)
  | .handle faults => self.handleNext faults
  | .sessionFailed actorId =>
    some { self with manager := self.manager.map (GossipManager.handleActorFailed · actorId) }

def run (acts : List (Act TP)) : Option (GossipSystem TP) := acts.foldlM step new

end Calls

/-! ## Receivers -/

section Receivers

variable [DecidableEq TP]

inductive Mentions (system : GossipSystem TP) (channel : ChannelId) : Prop
  | handle {handle : GossipHandle TP} : handle ∈ system.handles →
      handle.fromGossipTx = channel → Mentions system channel
  | sender {topic : TP} {guard : CounterId} : system.senders.lookup topic = some (channel, guard) →
      Mentions system channel
  | call {topic : TP} {guard : CounterId} : .cloning topic channel guard ∈ system.calls →
      Mentions system channel
  | reply {reply : ReplyPort} : system.runtime.replies.lookup reply = some channel →
      Mentions system channel

structure Live (system : GossipSystem TP) : Prop where
  receivers : system.runtime.channels.Counts
    (system.subscriptions.map GossipSubscription.fromTopicRx)
  created : ∀ {channel}, system.Mentions channel → channel < system.runtime.channels.next

variable {system system' : GossipSystem TP}

theorem live_new : (new : GossipSystem TP).Live where
  receivers := counts_empty
  created h := by
    rcases h with ⟨hmem, -⟩ | hlook | hmem | hlook
    · cases hmem
    · simp [new] at hlook
    · cases hmem
    · simp [new] at hlook

section Live

variable (h : system.Live) {i : Nat}
include h
theorem Live.frame (hrt : system'.runtime = system.runtime)
    (hsubscriptions : system'.subscriptions = system.subscriptions)
    (hhandles : ∀ handle ∈ system'.handles, system.Mentions handle.fromGossipTx)
    (hsenders : ∀ {topic channel guard}, system'.senders.lookup topic = some (channel, guard) →
      system.Mentions channel)
    (hcalls : ∀ {topic channel guard}, .cloning topic channel guard ∈ system'.calls →
      system.Mentions channel) : system'.Live where
  receivers := by
    rw [hrt, hsubscriptions]
    exact h.receivers
  created hment := by
    rw [hrt]
    apply h.created
    rcases hment with ⟨hmem, rfl⟩ | hlook | hmem | hlook
    · exact hhandles _ hmem
    · exact hsenders hlook
    · exact hcalls hmem
    · rw [hrt] at hlook
      exact .reply hlook

theorem Live.congr (hrt : system'.runtime = system.runtime)
    (hsubscriptions : system'.subscriptions = system.subscriptions)
    (hhandles : system'.handles = system.handles) (hsenders : system'.senders = system.senders)
    (hcalls : system'.calls = system.calls) : system'.Live := by
  refine h.frame hrt hsubscriptions (fun _ hmem => ?_) (fun hlook => ?_) fun hmem => ?_
  · rw [hhandles] at hmem
    exact .handle hmem rfl
  · rw [hsenders] at hlook
    exact .sender hlook
  · rw [hcalls] at hmem
    exact .call hmem

theorem Live.stream (topic : TP) : (system.stream topic).Live := by
  have hfresh : ({ system with
      counters := system.counters.create INITIAL_COUNTER
      calls := system.calls ++ [.starting topic system.counters.next] } :
        GossipSystem TP).Live := by
    refine h.frame rfl rfl (fun _ hmem => .handle hmem rfl)
      (fun hlook => .sender hlook) fun hmem => ?_
    rcases mem_append.mp hmem with hmem | hmem
    · exact .call hmem
    · cases mem_singleton.mp hmem
  unfold GossipSystem.stream
  split
  case h_1 => exact hfresh
  case h_2 fromGossipTx guard hlook =>
    split
    case isFalse => exact hfresh
    case isTrue =>
      refine h.frame rfl rfl (fun _ hmem => .handle hmem rfl)
        (fun hlook => .sender hlook) fun hmem => ?_
      rcases mem_append.mp hmem with hmem | hmem
      · exact .call hmem
      · cases mem_singleton.mp hmem
        exact .sender hlook

theorem Live.proceed {nodeIds : List NodeId} (hstep : system.proceed i nodeIds = some system') :
    system'.Live := by
  unfold GossipSystem.proceed at hstep
  split at hstep
  case h_1 => cases hstep
  case h_2 topic fromGossipTx guard hcall =>
    cases hstep
    refine h.frame rfl rfl (fun handle hmem => ?_) (fun hlook => .sender hlook)
      fun hmem => .call (mem_of_mem_eraseIdx hmem)
    rcases mem_append.mp hmem with hmem | hmem
    · exact .handle hmem rfl
    · cases mem_singleton.mp hmem
      exact .call (mem_of_getElem? hcall)
  case h_3 topic guard hcall =>
    cases hstep
    refine h.frame rfl rfl (fun _ hmem => .handle hmem rfl)
      (fun hlook => .sender hlook) fun hmem => ?_
    rcases mem_or_eq_of_mem_set hmem with hmem | heq
    · exact .call hmem
    · cases heq
  case h_4 topic guard reply hcall =>
    split at hstep
    case h_1 => cases hstep
    case h_2 fromGossipTx hreply =>
      cases hstep
      refine h.frame rfl rfl (fun handle hmem => ?_) (fun {topic'} _ _ hlook => ?_)
        fun hmem => .call (mem_of_mem_eraseIdx hmem)
      · rcases mem_append.mp hmem with hmem | hmem
        · exact .handle hmem rfl
        · cases mem_singleton.mp hmem
          exact .reply hreply
      · rw [HashMap.lookup_insert_ite] at hlook
        split at hlook
        · cases hlook
          exact .reply hreply
        · exact .sender hlook

theorem Live.abort (hstep : system.abort i = some system') : system'.Live := by
  unfold GossipSystem.abort at hstep
  split at hstep <;> cases hstep
  all_goals
    exact h.frame rfl rfl (fun _ hmem => .handle hmem rfl) (fun hlook => .sender hlook)
      fun hmem => .call (mem_of_mem_eraseIdx hmem)

theorem Live.cloneHandle (hstep : system.cloneHandle i = some system') : system'.Live := by
  obtain ⟨handle, hhdl, rfl⟩ := Option.map_eq_some_iff.mp hstep
  refine h.frame rfl rfl (fun handle' hmem => .handle ?_ rfl)
    (fun hlook => .sender hlook) fun hmem => .call hmem
  rcases mem_append.mp hmem with hmem | hmem
  · exact hmem
  · rw [mem_singleton.mp hmem]
    exact mem_of_getElem? hhdl

theorem Live.dropHandle (hstep : system.dropHandle i = some system') : system'.Live := by
  obtain ⟨handle, hhdl, rfl⟩ := Option.map_eq_some_iff.mp hstep
  exact h.frame rfl rfl (fun handle' hmem => .handle (mem_of_mem_eraseIdx hmem) rfl)
    (fun hlook => .sender hlook) fun hmem => .call hmem

theorem Live.subscribe (hstep : system.subscribe i = some system') : system'.Live := by
  obtain ⟨handle, hhdl, rfl⟩ := Option.map_eq_some_iff.mp hstep
  have hcrtd := h.created (.handle (mem_of_getElem? hhdl) rfl)
  constructor
  case receivers =>
    rw [map_append]
    exact h.receivers.increment hcrtd
  case created =>
    intro channel hment
    rw [next_increment]
    apply h.created
    rcases hment with ⟨hmem, rfl⟩ | hlook | hmem | hlook
    · exact .handle hmem rfl
    · exact .sender hlook
    · exact .call hmem
    · exact .reply hlook

theorem Live.dropSubscription (hstep : system.dropSubscription i = some system') :
    system'.Live := by
  obtain ⟨subscription, hsubscription, rfl⟩ := Option.map_eq_some_iff.mp hstep
  constructor
  case receivers =>
    apply RefCounts.Counts.decrement
    apply h.receivers.perm
    obtain ⟨hlt, rfl⟩ := List.getElem?_eq_some_iff.mp hsubscription
    exact ((getElem_cons_eraseIdx_perm hlt).map GossipSubscription.fromTopicRx).symm
  case created =>
    intro channel hment
    rw [next_decrement]
    apply h.created
    rcases hment with ⟨hmem, rfl⟩ | hlook | hmem | hlook
    · exact .handle hmem rfl
    · exact .sender hlook
    · exact .call hmem
    · exact .reply hlook

theorem Live.handleNext {faults : GossipQuery TP → Option String}
    (hstep : system.handleNext faults = some system') : system'.Live := by
  unfold GossipSystem.handleNext at hstep
  split at hstep
  case h_2 => cases hstep
  case h_1 manager message inbox hmgr hinbox =>
    split at hstep
    case h_2 =>
      cases hstep
      exact h.congr rfl rfl rfl rfl rfl
    case h_1 manager' runtime hhdl =>
      cases hstep
      rcases GossipManager.runtime_of_handle hhdl with rfl | ⟨reply, hchans, hreplies⟩
      · exact h.congr rfl rfl rfl rfl rfl
      · constructor
        case receivers =>
          rw [hchans]
          exact h.receivers.create
        case created =>
          intro channel hment
          rw [hchans, next_create, Nat.lt_succ_iff_lt_or_eq]
          rcases hment with ⟨hmem, rfl⟩ | hlook | hmem | hlook
          · exact .inl (h.created (.handle hmem rfl))
          · exact .inl (h.created (.sender hlook))
          · exact .inl (h.created (.call hmem))
          · rw [hreplies, HashMap.lookup_insert_ite] at hlook
            split at hlook
            · cases hlook
              exact .inr rfl
            · exact .inl (h.created (.reply hlook))

theorem Live.step {act : Act TP} (hstep : system.step act = some system') : system'.Live := by
  cases act with
  | stream topic =>
    cases hstep
    exact h.stream topic
  | proceed i nodeIds => exact h.proceed hstep
  | abort i => exact h.abort hstep
  | cloneHandle i => exact h.cloneHandle hstep
  | dropHandle i => exact h.dropHandle hstep
  | subscribe i => exact h.subscribe hstep
  | dropSubscription i => exact h.dropSubscription hstep
  | send message =>
    dsimp only [GossipSystem.step] at hstep
    split at hstep <;> cases hstep
    all_goals exact h.congr rfl rfl rfl rfl rfl
  | handle faults => exact h.handleNext hstep
  | sessionFailed actorId =>
    cases hstep
    exact h.congr rfl rfl rfl rfl rfl

end Live

/-- A remote event is handled, unless it is a message for a topic whose channel has no
subscription. -/
theorem handle_remote_iff {acts : List (Act TP)} (hrun : run acts = some system)
    (faults : GossipQuery TP → Option String) {event : ToGossipManager TP}
    (hremote : event.isRemote) :
    ∀ manager ∈ system.manager,
      (∃ next, GossipManager.handle faults manager system.runtime event = .ok next) ↔
        ∀ bytes topic channel, event = .receivedMessage bytes topic →
          manager.sessions.gossipSenders.lookup topic = some channel →
            ∃ subscription ∈ system.subscriptions, subscription.fromTopicRx = channel := by
  intro manager _
  have hlive : system.Live := Runs.invariant (fun h hstep => h.step hstep) live_new hrun
  have hreceiver : ∀ channel, system.runtime.channels.get channel ≠ 0 ↔
      ∃ subscription ∈ system.subscriptions, subscription.fromTopicRx = channel := by
    intro channel
    rw [ne_eq, hlive.receivers.get_eq_zero_iff, not_not, mem_map]
  rw [GossipManager.handle_eq_ok_iff faults manager system.runtime hremote]
  simp only [hreceiver]

end Receivers

/-! ## A handle without a subscription -/

def sampleActs : List (Act Nat) :=
  [.handle fun _ => none, .stream 3, .proceed 0 [], .handle fun _ => none, .proceed 0 []]

theorem handle_remote_subscribed :
    ∃ system manager, run (sampleActs ++ [.subscribe 0]) = some system ∧
      system.manager = some manager ∧
      ∃ next, GossipManager.handle (fun _ => none) manager system.runtime
        (.receivedMessage [1] 3) = .ok next := by
  have hany : (run (sampleActs ++ [.subscribe 0])).any (fun system =>
      system.manager.any fun manager =>
        decide (manager.sessions.gossipSenders.lookup 3 = some 0 ∧
          0 ∈ system.subscriptions.map GossipSubscription.fromTopicRx)) = true := by
    decide +kernel
  obtain ⟨system, hrun, hsys⟩ := (Option.any_eq_true _ _).mp hany
  obtain ⟨manager, hmgr, hsenders⟩ := (Option.any_eq_true _ _).mp hsys
  obtain ⟨hlook, hmem⟩ := of_decide_eq_true hsenders
  refine ⟨system, manager, hrun, hmgr,
    (handle_remote_iff hrun (fun _ => none) rfl manager hmgr).mpr ?_⟩
  intro bytes topic channel heq hchan
  cases heq
  rw [hlook] at hchan
  cases hchan
  exact mem_map.mp hmem

/-- With a handle and no subscription, a message is an error, which terminates the manager. -/
theorem handle_remote_fails :
    ∃ system manager, run sampleActs = some system ∧ system.manager = some manager ∧
      system.handles.length = 1 ∧
      GossipManager.handle (fun _ => none) manager system.runtime (.receivedMessage [1] 3) =
        .err (.send [1]) ∧
      (run (sampleActs ++ [.send (.receivedMessage [1] 3), .handle fun _ => none])).any
        (fun system => system.manager.isNone) = true := by
  exact ⟨_, _, rfl, rfl, rfl, rfl, by decide +kernel⟩

end GossipSystem

end P2Panda.Net
