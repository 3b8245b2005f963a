import P2Panda.Spaces.Manager
import P2Panda.Spaces.Rekeying

/-!
# Runs of a manager

A manager starts with an empty store, processes messages and makes changes, and persists what each
call returns. In every state it reaches the auth states are consistent, and only forged messages
wait in queues.
-/

namespace P2Panda.Spaces

open P2Panda.Library Outcome P2Panda.Auth P2Panda.Auth.Group List GroupCrdt SpacesState
open P2Panda.Encryption P2Panda.Encryption.DataScheme

variable {ID OP C φ : Type} {n : Nat} {member : ID} {action : GroupAction ID C}
  {currentMembers nextMembers : List ID} {id : OP} {event : Event ID OP C} {spaceId : OP}

/-! ## The queue -/

section Queue

variable [DecidableEq OP]

/-- Every id in the queue is the one of a forged message. -/
def EncryptionOrdererState.Intact (y : EncryptionOrdererState ID OP) : Prop :=
  ∀ id ∈ y.queue, ∃ message, y.messages.lookup id = some message ∧ message.isForged = true

namespace EncryptionOrdererState.Intact

variable {y y' : EncryptionOrdererState ID OP}

theorem of_queue_nil (h : y.queue = []) : y.Intact := by
  intro id hid
  rw [h] at hid
  cases hid

theorem new : (.new : EncryptionOrdererState ID OP).Intact := .of_queue_nil rfl

theorem congr (h : y.Intact) (hq : y'.queue = y.queue) (hmsgs : y'.messages = y.messages) :
    y'.Intact := by
  intro id hid
  rw [hmsgs]
  exact h id (hq ▸ hid)

theorem enqueue (h : y.Intact) (id : OP) {message : EncryptionMessage ID OP}
    (hforg : message.isForged = true) : (y.enqueue id message).Intact := by
  intro id' hid'
  have hlook : (y.enqueue id message).messages.lookup id' =
      if id' = id then some message else y.messages.lookup id' :=
    HashMap.lookup_insert_ite _ _ _ _
  rw [hlook]
  split
  · exact ⟨message, rfl, hforg⟩
  · rename_i hne
    apply h id'
    exact (mem_append.mp hid').resolve_right fun hmem => hne (mem_singleton.mp hmem)

theorem addDependency (h : y.Intact) (order : HashOrder OP) (id : OP) (dependencies : List OP) :
    (y.addDependency order id dependencies).Intact := by
  unfold EncryptionOrdererState.addDependency
  split
  · exact h
  · exact h

theorem waiting (h : y.Intact) : y.Waiting y.waiting ∧ ∀ m ∈ y.waiting, m.isForged = true := by
  constructor
  · unfold EncryptionOrdererState.Waiting EncryptionOrdererState.waiting
    unfold Intact at h
    generalize y.queue = queue at h
    induction queue with
    | nil => rfl
    | cons id queue ih =>
      obtain ⟨message, hmsg, -⟩ := h id mem_cons_self
      have ih := ih fun id' hid' => h id' (mem_cons_of_mem _ hid')
      simp only [map_cons, filterMap_cons, hmsg, ih]
  · intro m hm
    obtain ⟨id, hid, hlook⟩ := mem_filterMap.mp hm
    obtain ⟨message, hmsg, hforg⟩ := h id hid
    cases hlook.symm.trans hmsg
    exact hforg

end EncryptionOrdererState.Intact

end Queue

/-! ## What calls of the encryption group do to the queue -/

section Frame

variable [LinearOrder ID] [Placeholders ID OP] [DecidableEq OP] {checks : Bool}
  {c : DataPrimitives} {codec : SecretCodec} {env : DataScheme.Surroundings ID}
  {y y' : EncryptionGroupState ID OP} {outputs : List GroupOutput} {rng rng' : Rng}
  {directMessages : List (EncryptionDirectMessage ID)} {platform : Platform ID}

omit [DecidableEq OP] in
theorem orderer_processAll {messages : List (EncryptionMessage ID OP)}
    (h : EncryptionGroup.processAll checks c codec env y messages =
      (.ok (y', outputs) : EncryptionOutcome ID _)) : y'.orderer = y.orderer := by
  induction messages generalizing y outputs with
  | nil =>
    cases h
    rfl
  | cons message messages ih =>
    obtain ⟨⟨y1, output⟩, hrdy, h⟩ := bind_eq_ok.mp h
    obtain ⟨⟨y2, outputs'⟩, hall, h⟩ := bind_eq_ok.mp h
    cases h
    rw [ih hall]
    obtain ⟨_, _, _, -, -, rfl⟩ | ⟨_, _, _, -, rfl⟩ := processReady_eq_ok hrdy
    · rfl
    · rfl

theorem intact_receive {fuel : Nat} {message : EncryptionMessage ID OP} (hy : y.orderer.Intact)
    (hforg : message.isForged = true)
    (h : EncryptionGroup.receive checks c codec env fuel y message =
      (.ok (y', outputs) : EncryptionOutcome ID _)) : y'.orderer.Intact := by
  obtain ⟨content, -, hall⟩ := receive_eq_ok h
  rw [orderer_processAll hall]
  have harr : (arrived y message content).Intact := by
    unfold arrived
    split
    · exact (hy.enqueue _ hforg).congr rfl rfl
    · exact hy.enqueue _ hforg
  unfold ordererOn EncryptionOrdererState.drained
  split
  · split
    · exact .of_queue_nil rfl
    · exact harr
  · exact harr

theorem create_eq_ok {initialMembers : List ID} {message : EncryptionMessage ID OP}
    (h : EncryptionGroup.create checks c codec env y initialMembers rng =
      (.ok (y', message, rng') : EncryptionOutcome ID _)) :
    y'.orderer = { y.orderer with welcomeMessage := some message } ∧
      y'.dcgka.dgm = ⟨Dcgka.initialMembers y.dcgka.myId initialMembers⟩ := by
  unfold EncryptionGroup.create at h
  split at h
  · cases h
  · obtain ⟨⟨groupSecret, rng1⟩, -, h⟩ := bind_eq_ok.mp h
    obtain ⟨⟨dcgka, pre, rng2⟩, hcrt, h⟩ := bind_eq_ok.mp h
    obtain ⟨⟨y1, message'⟩, hloc, h⟩ := bind_eq_ok.mp h
    obtain ⟨orderer, hwel, h⟩ := bind_eq_ok.mp h
    cases h
    cases hwel
    obtain ⟨⟨dcgka', directMessages, rng3⟩, -, hcrt⟩ := bind_eq_ok.mp (mapErr_eq_ok.mp hcrt)
    cases hcrt
    obtain ⟨⟨orderer', message''⟩, hnext, hloc⟩ := bind_eq_ok.mp hloc
    cases hnext
    obtain ⟨result, hproc, hloc⟩ := bind_eq_ok.mp hloc
    cases mapErr_eq_ok.mp hproc
    cases hloc
    exact ⟨rfl, rfl⟩

omit [LinearOrder ID] [DecidableEq OP] in
theorem keeps_changeAll {α : Type} (f : EncryptionGroupState ID OP → α)
    {operation : Space.MemberOperation ID OP} {env : Nat → DataScheme.Surroundings ID} {rng : Rng}
    {members : List ID} (hop : ∀ {env y member rng y' message rng'},
      operation env y member rng = .ok (y', message, rng') → f y' = f y)
    (h : Space.changeAll operation env n y rng members = .ok (y', directMessages)) :
    f y' = f y := by
  induction members generalizing n y rng directMessages with
  | nil =>
    cases h
    rfl
  | cons member members ih =>
    obtain ⟨⟨y1, message, rng1⟩, hone, h⟩ := bind_eq_ok.mp h
    obtain ⟨⟨y2, directMessages'⟩, hrest, h⟩ := bind_eq_ok.mp h
    cases h
    rw [ih hrest, hop hone]

theorem queue_changeSecretMembers {env : Surroundings ID OP C φ} {y : SpacesState ID OP C}
    {encryptionY : EncryptionGroupState ID OP}
    (h : Space.changeSecretMembers platform env y action currentMembers nextMembers =
      .ok (encryptionY, directMessages)) :
    encryptionY.orderer.queue = y.encryptionY.orderer.queue ∧
      encryptionY.orderer.messages = y.encryptionY.orderer.messages := by
  obtain ⟨-, rfl, -⟩ | ⟨-, hall⟩ | ⟨-, hall⟩ | ⟨message, rng, -, hcrt, -⟩ :=
    changeSecretMembers_cases h
  · exact ⟨rfl, rfl⟩
  · have hord := keeps_changeAll GroupState.orderer (fun hadd => by
      obtain ⟨_, _, _, -, -, rfl⟩ := add_eq_ok hadd
      rfl) hall
    exact ⟨congrArg _ hord, congrArg _ hord⟩
  · have hord := keeps_changeAll GroupState.orderer (fun hrm => by
      obtain ⟨_, _, _, -, -, rfl⟩ := remove_eq_ok hrm
      rfl) hall
    exact ⟨congrArg _ hord, congrArg _ hord⟩
  · rw [(create_eq_ok hcrt).1]
    exact ⟨rfl, rfl⟩

end Frame

/-! ## Sound states -/

section Sound

variable [LinearOrder ID] [DecidableEq OP] [Conditions C]

/-- The auth state of a space is consistent, and its queue is intact. -/
structure SpacesState.Sound (y : SpacesState ID OP C) : Prop where
  consistent : GroupCrdt.Consistent y.groupsY
  intact : y.encryptionY.orderer.Intact

/-- All states in a store are sound, and those of spaces are under their own ids. -/
structure Manager.Sound (manager : Manager ID OP C) : Prop where
  consistent : GroupCrdt.Consistent manager.getGroupsState
  spaces : ∀ id y, manager.getSpaceState id = some y →
    GroupCrdt.Consistent y.groupsY ∧ y.orderer.Intact
  spaceId : ∀ id y, manager.getSpaceState id = some y → y.spaceId = id

variable {platform : Platform ID} {env : Surroundings ID OP C φ} {manager : Manager ID OP C}
  {y y' : SpacesState ID OP C} {authMessage : AuthMessage ID OP C} {message : SpacesMessage ID OP C}
  {messages : List (SpacesMessage ID OP C)} {events : List (Event ID OP C)}
  {groupsY : AuthGroupState ID OP C} {spaceMessage : SpaceMembershipMessage ID OP}

theorem Manager.Sound.state (h : manager.Sound) (hst : Space.state platform manager id =
      (.ok y : Outcome (SpaceError ID OP φ) _)) : y.Sound ∧ y.spaceId = id := by
  unfold Space.state at hst
  split at hst
  · cases hst
  · rename_i spaceY hspc
    cases hst
    obtain ⟨hcons, hintact⟩ := h.spaces id spaceY hspc
    exact ⟨⟨hcons, hintact⟩, h.spaceId id spaceY hspc⟩

variable (platform) in
theorem Manager.Sound.getOrInitState (h : manager.Sound) (id : OP) (groupId : ID) :
    (Space.getOrInitState platform manager id groupId).Sound ∧
      (Space.getOrInitState platform manager id groupId).spaceId = id := by
  unfold Space.getOrInitState
  split
  · rename_i spaceY hspc
    obtain ⟨hcons, hintact⟩ := h.spaces id spaceY hspc
    exact ⟨⟨hcons, hintact⟩, h.spaceId id spaceY hspc⟩
  · exact ⟨⟨consistent_init, .new⟩, rfl⟩

theorem SpacesState.Sound.addDependency (h : y.Sound) (order : HashOrder OP) (id : OP)
    (dependencies : List OP) : (Space.addDependency order y id dependencies).Sound where
  consistent := h.consistent
  intact := h.intact.addDependency order id dependencies

theorem consistent_processPointer (hy : GroupCrdt.Consistent y.groupsY)
    (h : Space.processPointer env y authMessage = .ok groupsY) :
    GroupCrdt.Consistent groupsY := by
  unfold Space.processPointer at h
  split at h
  · cases h
    exact hy
  · exact (process_ok hy (mapErr_eq_ok.mp h)).2.1

theorem processLocalControl_eq_ok {groupsY groupsY' : AuthGroupState ID OP C} {groupId : ID}
    (h : Group.processLocalControl env manager groupsY groupId action =
      .ok (groupsY', message, event)) :
    (∃ dependencies, message.args = .group groupId action dependencies) ∧
      (GroupCrdt.Consistent groupsY → GroupCrdt.Consistent groupsY') := by
  obtain ⟨dependencies, -, h⟩ := bind_eq_ok.mp h
  obtain ⟨message', hforge, h⟩ := bind_eq_ok.mp h
  obtain ⟨authMessage, -, h⟩ := bind_eq_ok.mp h
  obtain ⟨previousAncestors, -, h⟩ := bind_eq_ok.mp h
  obtain ⟨groupsY1, hproc, h⟩ := bind_eq_ok.mp h
  obtain ⟨event', -, h⟩ := bind_eq_ok.mp h
  cases h
  obtain ⟨id, -, hforge⟩ := bind_eq_ok.mp (mapErr_eq_ok.mp hforge)
  cases hforge
  exact ⟨⟨dependencies, rfl⟩, fun hy =>
    (process_ok hy (mapErr_eq_ok.mp hproc)).2.1⟩

theorem SpacesState.Sound.publishPointers {spaceDependencies ids : List OP} (hy : y.Sound)
    (h : Space.publishPointers env manager groupsY n y spaceDependencies ids = .ok (y', messages)) :
    y'.Sound ∧ y'.spaceId = y.spaceId := by
  induction ids generalizing n y spaceDependencies messages with
  | nil =>
    cases h
    exact ⟨hy, rfl⟩
  | cons id ids ih =>
    obtain ⟨operation, -, h⟩ := bind_eq_ok.mp h
    obtain ⟨message, -, h⟩ := bind_eq_ok.mp h
    obtain ⟨⟨y1, messages'⟩, hrest, h⟩ := bind_eq_ok.mp h
    cases h
    have hrest := ih (hy.addDependency _ _ _) hrest
    exact hrest

theorem Manager.Sound.fromGroup (h : manager.Sound) {groupId : ID} {includes : List ID}
    (hfrom : Space.fromGroup platform env manager spaceId groupId includes = .ok (y', messages)) :
    y'.Sound ∧ y'.spaceId = spaceId := by
  obtain ⟨sorted, -, hfrom⟩ := bind_eq_ok.mp hfrom
  obtain ⟨⟨y1, messages'⟩, hptrs, hfrom⟩ := bind_eq_ok.mp hfrom
  cases hfrom
  obtain ⟨hinit, hid⟩ := h.getOrInitState platform spaceId groupId
  obtain ⟨hsound, hid'⟩ := hinit.publishPointers hptrs
  exact ⟨⟨h.consistent, hsound.intact⟩, hid'.trans hid⟩

variable [Placeholders ID OP]

theorem SpacesState.Sound.processAuthMessage (hy : y.Sound)
    (h : Space.processAuthMessage platform env manager y authMessage = .ok (y', message, events)) :
    y'.Sound ∧ y'.spaceId = y.spaceId := by
  obtain ⟨hpub⟩ := nonempty_published h
  obtain ⟨hq, hmsgs⟩ := queue_changeSecretMembers hpub.change
  have hsound : Sound { y with groupsY := hpub.groupsY, encryptionY := hpub.encryptionY } := by
    refine ⟨?_, hy.intact.congr hq hmsgs⟩
    exact (process_ok hy.consistent hpub.processed).2.1
  rw [hpub.state]
  exact ⟨hsound.addDependency _ _ _, rfl⟩

theorem SpacesState.Sound.receiveMembership {me : ID} (hy : y.Sound)
    (h : Space.receiveMembership platform env me y spaceMessage authMessage currentMembers
      nextMembers = .ok (y', events)) : y'.Sound := by
  obtain ⟨encryptionY, rfl, hrcv⟩ := receiveMembership_eq_ok h
  refine ⟨hy.consistent, ?_⟩
  split_ifs at hrcv
  · obtain ⟨outputs, hgrp⟩ := hrcv
    exact intact_receive hy.intact rfl hgrp
  · rw [hrcv]
    exact hy.intact

theorem Handled.sound {me : ID} (h : Handled platform env me y spaceMessage authMessage y' events)
    (hy : y.Sound) :
    y'.Sound ∧ y'.spaceId = y.spaceId := by
  have hsound : Sound { y with
        groupsY := h.groupsY
        encryptionY := withMembers y.encryptionY (secretMembers h.nextMembers) } :=
    ⟨consistent_processPointer hy.consistent h.processed, hy.intact⟩
  have hrecv : h.received.Sound := hsound.receiveMembership h.receive
  have hid : h.received.spaceId = y.spaceId := by
    obtain ⟨encryptionY, hrecv, -⟩ := receiveMembership_eq_ok h.receive
    rw [hrecv]
  refine ⟨⟨?_, ?_⟩, (congrArg spaceId h.state).trans hid⟩
  · rw [congrArg SpacesState.groupsY h.state]
    exact hrecv.consistent
  · rw [congrArg (fun y => y.encryptionY.orderer) h.state]
    exact hrecv.intact.addDependency _ _ _

theorem Manager.Sound.handleApplicationMessage (h : manager.Sound)
    {message : ApplicationMessage ID OP}
    (hhdl : Space.handleApplicationMessage platform env manager id message = .ok (y', events)) :
    y'.Sound ∧ y'.spaceId = id := by
  obtain ⟨y, hst, hhdl⟩ := bind_eq_ok.mp hhdl
  obtain ⟨-, -, hhdl⟩ := bind_eq_ok.mp hhdl
  obtain ⟨⟨y1, events'⟩, hrcv, hhdl⟩ := bind_eq_ok.mp hhdl
  cases hhdl
  obtain ⟨⟨encryptionY, outputs⟩, hgrp, hrcv⟩ := bind_eq_ok.mp hrcv
  cases hrcv
  obtain ⟨hy, hid⟩ := h.state hst
  have hsound : SpacesState.Sound { y with encryptionY := encryptionY } :=
    ⟨hy.consistent, intact_receive hy.intact rfl (mapErr_eq_ok.mp hgrp)⟩
  exact ⟨hsound.addDependency _ _ _, hid⟩

/-! ## Local operations -/

theorem Manager.Sound.create (h : manager.Sound) {env : Nat → Surroundings ID OP C φ}
    {members : List (ID × Access C)} (hcrt : Space.create platform manager env spaceId members =
      .ok (groupsY, y', messages, events)) :
    GroupCrdt.Consistent groupsY ∧ y'.Sound := by
  obtain ⟨⟨bytes, rng⟩, -, hcrt⟩ := bind_eq_ok.mp hcrt
  obtain ⟨⟨spaceY, history⟩, hfrom, hcrt⟩ := bind_eq_ok.mp hcrt
  obtain ⟨⟨groupsY1, createGroup, authEvent⟩, hgrp, hcrt⟩ := bind_eq_ok.mp hcrt
  obtain ⟨authMessage, -, hcrt⟩ := bind_eq_ok.mp hcrt
  obtain ⟨⟨spaceY1, createSpace, spaceEvents⟩, hproc, hcrt⟩ := bind_eq_ok.mp hcrt
  cases hcrt
  have hsound := (h.fromGroup hfrom).1
  exact ⟨(processLocalControl_eq_ok (mapErr_eq_ok.mp hgrp)).2 h.consistent,
    (hsound.processAuthMessage hproc).1⟩

theorem Manager.Sound.change (h : manager.Sound) {env : Nat → Surroundings ID OP C φ}
    {action : GroupMember ID → GroupAction ID C} {authMessage spaceMessage : SpacesMessage ID OP C}
    (hchg : Space.change platform manager env id member action =
      .ok (groupsY, y', authMessage, spaceMessage, events)) :
    GroupCrdt.Consistent groupsY ∧ y'.Sound := by
  obtain ⟨spaceY, hst, hchg⟩ := bind_eq_ok.mp hchg
  obtain ⟨⟨groupsY1, message, authEvent⟩, hgrp, hchg⟩ := bind_eq_ok.mp hchg
  obtain ⟨operation, -, hchg⟩ := bind_eq_ok.mp hchg
  obtain ⟨⟨spaceY1, pointer, spaceEvents⟩, hproc, hchg⟩ := bind_eq_ok.mp hchg
  cases hchg
  have hsound := (h.state hst).1
  exact ⟨(processLocalControl_eq_ok (mapErr_eq_ok.mp hgrp)).2 h.consistent,
    (hsound.processAuthMessage hproc).1⟩

theorem Manager.Sound.publish (h : manager.Sound) {plaintext : List UInt8}
    (hpubl : Space.publish platform env manager id plaintext = .ok (y', message, event)) :
    y'.Sound := by
  obtain ⟨y, hst, hpubl⟩ := bind_eq_ok.mp hpubl
  have hy := (h.state hst).1
  split at hpubl
  · cases hpubl
  · obtain ⟨⟨encryptionY, args, rng⟩, hsend, hpubl⟩ := bind_eq_ok.mp hpubl
    have hsend := mapErr_eq_ok.mp hsend
    have hord : encryptionY.orderer = y.encryptionY.orderer := by
      unfold EncryptionGroup.send at hsend
      split at hsend
      · cases hsend
      · split at hsend
        · cases hsend
        · obtain ⟨_, -, hsend⟩ := bind_eq_ok.mp hsend
          obtain ⟨_, -, hsend⟩ := bind_eq_ok.mp hsend
          obtain ⟨⟨orderer, message'⟩, hnext, hsend⟩ := bind_eq_ok.mp hsend
          cases hnext
          cases hsend
          rfl
    have hsound : SpacesState.Sound { y with encryptionY := encryptionY } :=
      ⟨hy.consistent, hy.intact.congr (congrArg _ hord) (congrArg _ hord)⟩
    dsimp only at hpubl
    split at hpubl
    · obtain ⟨_, -, hpubl⟩ := bind_eq_ok.mp hpubl
      obtain ⟨_, -, hpubl⟩ := bind_eq_ok.mp hpubl
      cases hpubl
      exact hsound.addDependency _ _ _
    · cases hpubl
    · cases hpubl

theorem SpacesState.Sound.applyMissing {env : Nat → Surroundings ID OP C φ} {ids : List OP}
    (hy : y.Sound) (h : Space.applyMissing platform manager groupsY env n y ids =
      .ok (y', messages, events)) : y'.Sound := by
  induction ids generalizing n y messages events with
  | nil =>
    cases h
    exact hy
  | cons id ids ih =>
    rw [Space.applyMissing] at h
    split at h
    · exact ih hy h
    · obtain ⟨operation, -, h⟩ := bind_eq_ok.mp h
      obtain ⟨⟨y1, message, events1⟩, hproc, h⟩ := bind_eq_ok.mp h
      obtain ⟨⟨y2, messages', events2⟩, hrest, h⟩ := bind_eq_ok.mp h
      cases h
      exact ih (hy.processAuthMessage hproc).1 hrest

theorem Manager.Sound.repair (h : manager.Sound) {E : Runtime ID OP}
    {env : Nat → Surroundings ID OP C φ} {groups : List ID}
    (hrep : Space.repair platform manager E env id groups = .ok (y', messages, events)) :
    y'.Sound := by
  obtain ⟨spaceY, hst, hrep⟩ := bind_eq_ok.mp hrep
  obtain ⟨sorted, -, hrep⟩ := bind_eq_ok.mp hrep
  exact (h.state hst).1.applyMissing hrep

end Sound

/-! ## Runs -/

section Runs

variable [LinearOrder ID] [Placeholders ID OP] [DecidableEq OP] [Conditions C]

inductive Manager.Step (φ : Type) (platform : Platform ID) :
    Manager ID OP C → Manager ID OP C → Prop where
  | store {manager : Manager ID OP C} (messages : MessageStore ID OP C) :
      Step φ platform manager { manager with store := { manager.store with messages := messages } }
  | rotate {manager : Manager ID OP C} (prekeys : HashMap PreKeyId PreKeyBundle) :
      Step φ platform manager
        { manager with store := { manager.store with prekeySecrets := some prekeys } }
  | process {manager : Manager ID OP C} {env : Surroundings ID OP C φ}
      {message : SpacesMessage ID OP C} {output : Manager.Output ID OP C} :
      Manager.process platform env manager message = .ok output →
        Step φ platform manager (manager.persist output)
  | createGroup {manager : Manager ID OP C} {env : Surroundings ID OP C φ}
      {members : List (ID × Access C)} {groupsY : AuthGroupState ID OP C} {groupId : ID}
      {message : SpacesMessage ID OP C} {event : Event ID OP C} :
      Manager.createGroup platform env manager members = .ok (groupsY, groupId, message, event) →
        Step φ platform manager (manager.persist ⟨none, some groupsY, none, []⟩)
  | changeGroup {manager : Manager ID OP C} {env : Surroundings ID OP C φ} {groupId member : ID}
      {action : GroupMember ID → GroupAction ID C} {groupsY : AuthGroupState ID OP C}
      {message : SpacesMessage ID OP C} {event : Event ID OP C} :
      Group.change env manager groupId member action = .ok (groupsY, message, event) →
        Step φ platform manager (manager.persist ⟨none, some groupsY, none, []⟩)
  | createSpace {manager : Manager ID OP C} {env : Nat → Surroundings ID OP C φ} {spaceId : OP}
      {members : List (ID × Access C)} {groupsY : AuthGroupState ID OP C}
      {y : SpacesState ID OP C} {messages : List (SpacesMessage ID OP C)}
      {events : List (Event ID OP C)} :
      Space.create platform manager env spaceId members = .ok (groupsY, y, messages, events) →
        Step φ platform manager (manager.persist ⟨none, some groupsY, some y, []⟩)
  | changeSpace {manager : Manager ID OP C} {env : Nat → Surroundings ID OP C φ} {id : OP}
      {member : ID} {action : GroupMember ID → GroupAction ID C} {groupsY : AuthGroupState ID OP C}
      {y : SpacesState ID OP C} {authMessage spaceMessage : SpacesMessage ID OP C}
      {events : List (Event ID OP C)} :
      Space.change platform manager env id member action =
          .ok (groupsY, y, authMessage, spaceMessage, events) →
        Step φ platform manager (manager.persist ⟨none, some groupsY, some y, []⟩)
  | publish {manager : Manager ID OP C} {env : Surroundings ID OP C φ} {id : OP}
      {plaintext : List UInt8} {y : SpacesState ID OP C} {message : SpacesMessage ID OP C}
      {event : Event ID OP C} :
      Space.publish platform env manager id plaintext = .ok (y, message, event) →
        Step φ platform manager (manager.persist ⟨none, none, some y, []⟩)
  | repair {manager : Manager ID OP C} {E : Nat → Runtime ID OP}
      {env : Nat → Surroundings ID OP C φ} {id : OP} {groups : List ID} {y : SpacesState ID OP C}
      {messages : List (SpacesMessage ID OP C)} {events : List (Event ID OP C)} :
      Manager.repairSpace platform manager E env id groups = .ok (y, messages, events) →
        Step φ platform manager (manager.persist ⟨none, none, some y, []⟩)

/-- The states of a manager which has started with nothing but its keys. -/
inductive Manager.Reachable (φ : Type) (platform : Platform ID) : Manager ID OP C → Prop where
  | start {manager : Manager ID OP C} (hgroups : manager.store.groups = none)
      (hspaces : manager.store.spaces = ∅) : Reachable φ platform manager
  | step {manager manager' : Manager ID OP C} : Reachable φ platform manager →
      Manager.Step φ platform manager manager' → Reachable φ platform manager'

variable {platform : Platform ID} {env : Surroundings ID OP C φ} {manager : Manager ID OP C}
  {output : Manager.Output ID OP C} {message : SpacesMessage ID OP C}
  {events : List (Event ID OP C)}

omit [Placeholders ID OP] in
theorem Manager.Sound.persist (h : manager.Sound)
    (hgroups : ∀ groupsY, output.groups = some groupsY → GroupCrdt.Consistent groupsY)
    (hspc : ∀ y, output.space = some y → y.Sound) : (manager.persist output).Sound := by
  have hlook (id : OP) (y : SpacesStoreState ID OP C)
      (hy : (manager.persist output).getSpaceState id = some y) :
      manager.getSpaceState id = some y ∨
        ∃ spaceY, output.space = some spaceY ∧ spaceY.spaceId = id ∧ y = spaceY.toStore := by
    rw [Manager.getSpaceState_persist] at hy
    cases houtp : output.space with
    | none =>
      rw [houtp] at hy
      exact Or.inl hy
    | some spaceY =>
      rw [houtp, Option.elim_some] at hy
      split at hy
      · rename_i hid
        cases hy
        exact Or.inr ⟨spaceY, rfl, hid.symm, rfl⟩
      · exact Or.inl hy
  refine ⟨?_, ?_, ?_⟩
  · show Consistent ((output.groups.or manager.store.groups).getD .default)
    cases houtp : output.groups with
    | none => exact h.consistent
    | some groupsY => exact hgroups groupsY houtp
  · intro id y hy
    obtain hold | ⟨spaceY, hnew, -, rfl⟩ := hlook id y hy
    · exact h.spaces id y hold
    · exact ⟨(hspc spaceY hnew).consistent, (hspc spaceY hnew).intact⟩
  · intro id y hy
    obtain hold | ⟨spaceY, -, hid, rfl⟩ := hlook id y hy
    · exact h.spaceId id y hold
    · exact hid

inductive Manager.Processed (platform : Platform ID) (env : Surroundings ID OP C φ)
    (manager : Manager ID OP C) (message : SpacesMessage ID OP C) :
    Manager.Output ID OP C → Prop where
  | member {member : Member ID} {keyRegistry : KeyRegistryState ID} {event : Event ID OP C}
      (hargs : message.args = .member member)
      (h : manager.processMember platform env member = .ok (keyRegistry, event)) :
      Processed platform env manager message ⟨some keyRegistry, none, none, [event]⟩
  | group {authMessage : AuthMessage ID OP C} {groupsY : AuthGroupState ID OP C}
      {event : Event ID OP C} (hauth : message.auth = (.ok authMessage : Outcome Empty _))
      (h : Group.process env manager authMessage = .ok (some (groupsY, event))) :
      Processed platform env manager message ⟨none, some groupsY, none, [event]⟩
  | groupSeen {authMessage : AuthMessage ID OP C}
      (hauth : message.auth = (.ok authMessage : Outcome Empty _))
      (h : Group.process env manager authMessage = .ok none) :
      Processed platform env manager message .nothing
  | membership {spaceId : OP} {groupId : ID} {spaceDependencies : List OP} {authMessageId : OP}
      {directMessages : List (EncryptionDirectMessage ID)} {y : SpacesState ID OP C}
      {events : List (Event ID OP C)} (hargs : message.args =
        .spaceMembership spaceId groupId spaceDependencies authMessageId directMessages)
      (h : Manager.handleSpaceMembershipMessage platform env manager spaceId ⟨message.id,
        message.author, groupId, spaceDependencies, authMessageId, directMessages⟩ =
          .ok (some (y, events))) :
      Processed platform env manager message ⟨none, none, some y, events⟩
  | membershipSeen {spaceId : OP} {groupId : ID} {spaceDependencies : List OP}
      {authMessageId : OP} {directMessages : List (EncryptionDirectMessage ID)}
      (hargs : message.args =
        .spaceMembership spaceId groupId spaceDependencies authMessageId directMessages)
      (h : Manager.handleSpaceMembershipMessage platform env manager spaceId ⟨message.id,
        message.author, groupId, spaceDependencies, authMessageId, directMessages⟩ = .ok none) :
      Processed platform env manager message .nothing
  | application {spaceId : OP} {spaceDependencies proof : List OP} {groupSecretId : GroupSecretId}
      {nonce : XAeadNonce} {ciphertext : List UInt8} {y : SpacesState ID OP C}
      {events : List (Event ID OP C)} (hargs : message.args =
        .application spaceId spaceDependencies proof groupSecretId nonce ciphertext)
      (hknown : (manager.getSpaceState spaceId).isNone = false)
      (h : Space.handleApplicationMessage platform env manager spaceId ⟨message.id, message.author,
        spaceDependencies, proof, groupSecretId, nonce, ciphertext⟩ = .ok (y, events)) :
      Processed platform env manager message ⟨none, none, some y, events⟩

theorem processed_of_process (h : Manager.process platform env manager message = .ok output) :
    Manager.Processed platform env manager message output := by
  obtain ⟨messageId, author, args⟩ := message
  cases args with
  | member member =>
    obtain ⟨result, hmbr, h⟩ := bind_eq_ok.mp h
    cases h
    exact .member rfl (mapErr_eq_ok.mp hmbr)
  | group groupId groupAction authDependencies =>
    obtain ⟨authMessage, hmsg, h⟩ := bind_eq_ok.mp h
    cases hmsg
    obtain ⟨result, hgrp, h⟩ := bind_eq_ok.mp h
    cases result with
    | none =>
      cases h
      exact .groupSeen rfl (mapErr_eq_ok.mp hgrp)
    | some result =>
      cases h
      exact .group rfl (mapErr_eq_ok.mp hgrp)
  | spaceMembership spaceId groupId spaceDependencies authMessageId directMessages =>
    obtain ⟨membership, hmsg, h⟩ := bind_eq_ok.mp h
    cases hmsg
    obtain ⟨result, hhdl, h⟩ := bind_eq_ok.mp h
    cases result with
    | none =>
      cases h
      exact .membershipSeen rfl hhdl
    | some result =>
      cases h
      exact .membership rfl hhdl
  | spaceUpdate spaceId groupId spaceDependencies => cases h
  | application spaceId spaceDependencies proof groupSecretId nonce ciphertext =>
    dsimp only [Manager.process] at h
    split at h
    · cases h
    · rename_i hknown
      obtain ⟨application, hmsg, h⟩ := bind_eq_ok.mp h
      cases hmsg
      obtain ⟨result, hhdl, h⟩ := bind_eq_ok.mp h
      cases h
      exact .application rfl (eq_false_of_ne_true hknown) (mapErr_eq_ok.mp hhdl)

omit [Placeholders ID OP] in
theorem consistent_groupProcess {authMessage : AuthMessage ID OP C}
    {groupsY : AuthGroupState ID OP C} (hy : GroupCrdt.Consistent manager.getGroupsState)
    (h : Group.process env manager authMessage = .ok (some (groupsY, event))) :
    GroupCrdt.Consistent groupsY := by
  dsimp only [Group.process] at h
  split at h
  · cases h
  · obtain ⟨previousAncestors, -, h⟩ := bind_eq_ok.mp h
    obtain ⟨groupsY', hproc, h⟩ := bind_eq_ok.mp h
    obtain ⟨event', -, h⟩ := bind_eq_ok.mp h
    cases h
    exact (process_ok hy (mapErr_eq_ok.mp hproc)).2.1

theorem handled_of_handleSpaceMembershipMessage {spaceMessage : SpaceMembershipMessage ID OP}
    {y : SpacesState ID OP C}
    (h : Manager.handleSpaceMembershipMessage platform env manager spaceId spaceMessage =
      .ok (some (y, events))) :
    ∃ authMessage, manager.getAuthMessage spaceMessage =
        (.ok authMessage : Outcome (ManagerError ID OP φ) _) ∧
      Nonempty (Handled platform env manager.actorId
        (Space.getOrInitState platform manager spaceId spaceMessage.groupId) spaceMessage
        authMessage y events) := by
  obtain ⟨authMessage, hauth, h⟩ := bind_eq_ok.mp h
  split at h
  · cases h
  · exact ⟨authMessage, hauth, nonempty_handled (mapErr_eq_ok.mp h)⟩

theorem Manager.Sound.process (h : manager.Sound)
    (hproc : Manager.process platform env manager message = .ok output) :
    (manager.persist output).Sound := by
  cases processed_of_process hproc with
  | member => exact h.persist (by simp) (by simp)
  | group hauth hgrp =>
    have hcons := consistent_groupProcess h.consistent hgrp
    exact h.persist (by simpa using hcons) (by simp)
  | groupSeen => exact h.persist (by simp [Output.nothing]) (by simp [Output.nothing])
  | membership hargs hhdl =>
    obtain ⟨authMessage, -, ⟨hhdld⟩⟩ := handled_of_handleSpaceMembershipMessage hhdl
    have hsound := (hhdld.sound (h.getOrInitState platform _ _).1).1
    exact h.persist (by simp) (by simpa using hsound)
  | membershipSeen => exact h.persist (by simp [Output.nothing]) (by simp [Output.nothing])
  | application hargs hknown hhdl =>
    have hsound := (h.handleApplicationMessage hhdl).1
    exact h.persist (by simp) (by simpa using hsound)

theorem Manager.Sound.repairSpace (h : manager.Sound) {E : Nat → Runtime ID OP}
    {env : Nat → Surroundings ID OP C φ} {groups : List ID} {y : SpacesState ID OP C}
    {messages : List (SpacesMessage ID OP C)}
    (hrep : Manager.repairSpace platform manager E env id groups = .ok (y, messages, events)) :
    y.Sound := by
  unfold Manager.repairSpace at hrep
  split at hrep
  · cases hrep
  · obtain ⟨spaceY, hst, hrep⟩ := bind_eq_ok.mp hrep
    obtain ⟨members, -, hrep⟩ := bind_eq_ok.mp hrep
    split at hrep
    · cases hrep
      exact (h.state (mapErr_eq_ok.mp hst)).1
    · exact h.repair (mapErr_eq_ok.mp hrep)

theorem Manager.Sound.step (h : manager.Sound) {manager' : Manager ID OP C}
    (hstep : Manager.Step φ platform manager manager') : manager'.Sound := by
  cases hstep with
  | store messages => exact ⟨h.consistent, h.spaces, h.spaceId⟩
  | rotate prekeys => exact ⟨h.consistent, h.spaces, h.spaceId⟩
  | process hproc => exact h.process hproc
  | createGroup hcrt =>
    obtain ⟨_, -, hcrt⟩ := bind_eq_ok.mp hcrt
    obtain ⟨result, hgrp, hcrt⟩ := bind_eq_ok.mp hcrt
    cases hcrt
    have hgroups := (processLocalControl_eq_ok (mapErr_eq_ok.mp hgrp)).2 h.consistent
    exact h.persist (by simpa using hgroups) (by simp)
  | changeGroup hchg =>
    have hgroups := (processLocalControl_eq_ok hchg).2 h.consistent
    exact h.persist (by simpa using hgroups) (by simp)
  | createSpace hcrt =>
    obtain ⟨hgroups, hspc⟩ := h.create hcrt
    exact h.persist (by simpa using hgroups) (by simpa using hspc)
  | changeSpace hchg =>
    obtain ⟨hgroups, hspc⟩ := h.change hchg
    exact h.persist (by simpa using hgroups) (by simpa using hspc)
  | publish hpubl =>
    have hspc := h.publish hpubl
    exact h.persist (by simp) (by simpa using hspc)
  | repair hrep =>
    have hspc := h.repairSpace hrep
    exact h.persist (by simp) (by simpa using hspc)

theorem Manager.Reachable.sound (h : Manager.Reachable φ platform manager) : manager.Sound := by
  induction h with
  | @start manager hgroups hspaces =>
    have hnone (id : OP) : manager.getSpaceState id = none := by
      rw [Manager.getSpaceState, hspaces]
      rfl
    refine ⟨?_, by simp [hnone], by simp [hnone]⟩
    rw [Manager.getGroupsState, hgroups]
    exact consistent_init
  | step _ hstep ih => exact ih.step hstep

end Runs

end P2Panda.Spaces
