import P2Panda.Spaces.Runs

/-!
# Members of the encryption group

The key agreement has its own view of the members. It is overwritten with the secret members of the
auth state, and again with a view from elsewhere when a group is created or a welcome arrives.
-/

namespace P2Panda.Spaces

open P2Panda.Library Outcome P2Panda.Auth P2Panda.Auth.Group
open P2Panda.Encryption P2Panda.Encryption.DataScheme

variable {ID OP C φ : Type} [LinearOrder ID] [Placeholders ID OP]
  {y y' : EncryptionGroupState ID OP} {message : EncryptionMessage ID OP}

section Views

/-- The view which the key agreement takes over with a control message. -/
def adoptedView (me : ID) (controlMessage : ControlMessage ID)
    (directMessage : Option (EncryptionDirectMessage ID)) : Option (EncryptionMembershipState ID) :=
  match controlMessage with
  | .create initialMembers => some ⟨initialMembers⟩
  | .add added =>
    if added = me then
      directMessage.bind fun directMessage =>
        match directMessage.content with
        | .welcome _ history => some history
        | .twoParty _ => none
    else none
  | _ => none

def viewOf (me : ID) (message : EncryptionMessage ID OP) : Option (EncryptionMembershipState ID) :=
  match GroupMessage.content message with
  | .ok (.control controlMessage) =>
    adoptedView me controlMessage
      ((GroupMessage.directMessages message).find? fun dm => dm.recipient = me)
  | _ => none

variable {checks : Bool} {c : DataPrimitives} {codec : SecretCodec}
  {env : DataScheme.Surroundings ID}

omit [Placeholders ID OP] in
theorem dgm_process {y y' : EncryptionDcgkaState ID}
    {input : ProcessInput ID OP (EncryptionMembershipState ID)} {output : GroupSecretOutput}
    (h : Dcgka.process checks c codec env y input =
      (.ok (y', output) : Outcome (EncryptionDcgkaError ID) _)) :
    y'.dgm = (adoptedView y.myId input.controlMessage input.directMessage).getD y.dgm ∧
      y'.myId = y.myId := by
  obtain ⟨seq, sender, controlMessage, directMessage⟩ := input
  cases controlMessage with
  | create initialMembers =>
    obtain ⟨dgm, hdgm, h⟩ := bind_eq_ok.mp h
    cases hdgm
    exact (Dcgka.processSecret_eq_ok h).1
  | update => exact (Dcgka.processSecret_eq_ok h).1
  | remove removed =>
    obtain ⟨dgm, hdgm, h⟩ := bind_eq_ok.mp h
    cases hdgm
    exact (Dcgka.processSecret_eq_ok h).1
  | add added =>
    obtain ⟨dgm, hdgm, h⟩ := bind_eq_ok.mp h
    cases hdgm
    rw [adoptedView]
    dsimp only at h
    split_ifs at h with hme
    · rw [if_pos hme]
      split at h
      · cases h
      · rw [Option.bind_some]
        split at h
        · rename_i hcont
          split_ifs at h
          obtain ⟨dgm, hdgm, h⟩ := bind_eq_ok.mp h
          cases hdgm
          obtain ⟨⟨y1, plaintext⟩, hdec, h⟩ := bind_eq_ok.mp h
          dsimp only at h
          split at h
          · cases h
            rw [hcont]
            exact (Dcgka.decryptFrom_eq_ok hdec).1
          · cases h
        · cases h
    · cases h
      rw [if_neg hme]
      exact ⟨rfl, rfl⟩

theorem dgm_processReady {output : Option GroupOutput} (hid : y.dcgka.myId = y.myId)
    (h : EncryptionGroup.processReady checks c codec env y message =
      (.ok (y', output) : EncryptionOutcome ID _)) :
    y'.dcgka.dgm = (viewOf y.myId message).getD y.dcgka.dgm ∧ y'.myId = y.myId ∧
      y'.dcgka.myId = y.dcgka.myId := by
  obtain ⟨controlMessage, dcgka, learned, hcont, hproc, rfl⟩ | ⟨_, _, _, hcont, rfl⟩ :=
    processReady_eq_ok h
  · obtain ⟨hdgm, hmyId⟩ := dgm_process hproc
    rw [hid] at hdgm
    rw [viewOf, hcont]
    exact ⟨hdgm, rfl, hmyId⟩
  · rw [viewOf, hcont]
    exact ⟨rfl, rfl, rfl⟩

theorem dgm_processAll {messages : List (EncryptionMessage ID OP)} {outputs : List GroupOutput}
    (hid : y.dcgka.myId = y.myId) (h : EncryptionGroup.processAll checks c codec env y messages =
      (.ok (y', outputs) : EncryptionOutcome ID _)) :
    y'.dcgka.dgm = (messages.filterMap (viewOf y.myId)).getLast?.getD y.dcgka.dgm := by
  induction messages generalizing y outputs with
  | nil =>
    cases h
    rfl
  | cons message messages ih =>
    obtain ⟨⟨y1, output⟩, hrdy, h⟩ := bind_eq_ok.mp h
    obtain ⟨⟨y2, outputs'⟩, hall, h⟩ := bind_eq_ok.mp h
    cases h
    obtain ⟨hdgm, hmyId, hdcgka⟩ := dgm_processReady hid hrdy
    rw [ih (hdcgka.trans (hid.trans hmyId.symm)) hall, hdgm, hmyId, List.filterMap_cons]
    cases viewOf y.myId message with
    | none => rfl
    | some view =>
      rw [List.getLast?_cons]
      rfl

end Views

variable [DecidableEq OP] [Conditions C] {platform : Platform ID}
  {authMessage : AuthMessage ID OP C} {env : Surroundings ID OP C φ}
  {spaceMessage : SpaceMembershipMessage ID OP} {events : List (Event ID OP C)}
  {manager : Manager ID OP C}

/-- The view of the members is the one of the auth state. -/
def Mirrors (y : SpacesState ID OP C) (members : List (ID × Access C)) : Prop :=
  y.encryptionY.dcgka.dgm.members.toFinset = (secretMembers members).toFinset

/-- The views taken over when a pointer arrives. -/
def viewsOn (me : ID) (y : EncryptionGroupState ID OP) (spaceMessage : SpaceMembershipMessage ID OP)
    (authMessage : AuthMessage ID OP C) (currentMembers nextMembers : List ID) :
    List (EncryptionMembershipState ID) :=
  if spaceMessage.directMessages.any fun message => message.recipient = me then
    (processedOn (withMembers y nextMembers)
      (pointer me spaceMessage authMessage currentMembers nextMembers)
      (.control (EncryptionMessage.controlMessage me authMessage.action true currentMembers
        nextMembers))).filterMap (viewOf y.myId)
  else []

theorem Handled.dgm_eq {me : ID} {y y' : SpacesState ID OP C}
    (h : Handled platform env me y spaceMessage authMessage y' events)
    (hid : y.encryptionY.dcgka.myId = y.encryptionY.myId) :
    y'.encryptionY.dcgka.dgm = (viewsOn me y.encryptionY spaceMessage authMessage
      (secretMembers h.currentMembers) (secretMembers h.nextMembers)).getLast?.getD
        ⟨secretMembers h.nextMembers⟩ := by
  have hdgm : y'.encryptionY.dcgka.dgm = h.received.encryptionY.dcgka.dgm :=
    congrArg (fun y => y.encryptionY.dcgka.dgm) h.state
  obtain ⟨encryptionY, hrecv, hrcv⟩ := receiveMembership_eq_ok h.receive
  rw [hdgm, hrecv, viewsOn]
  split_ifs at hrcv with hmine
  · obtain ⟨outputs, hgrp⟩ := hrcv
    obtain ⟨content, hcont, hall⟩ := receive_eq_ok hgrp
    cases hcont
    rw [hmine] at hall
    rw [if_pos hmine]
    refine (dgm_processAll ?_ hall).trans ?_
    · exact hid
    · rfl
  · rw [hrcv, if_neg hmine]
    rfl

omit [Placeholders ID OP] in
theorem mem_initialMembers {me id : ID} {members : List ID} :
    id ∈ Dcgka.initialMembers me members ↔ id = me ∨ id ∈ members := by
  have hfold (acc : List ID) : id ∈ members.foldl
      (fun acc id => if id ∈ acc then acc else acc ++ [id]) acc ↔ id ∈ acc ∨ id ∈ members := by
    induction members generalizing acc with
    | nil => simp
    | cons member members ih =>
      rw [List.foldl_cons]
      split_ifs with hmem
      · grind
      · grind
  unfold Dcgka.initialMembers
  dsimp only
  split_ifs
  · grind
  · grind

theorem Published.dgm_eq {y y' : SpacesState ID OP C} {message : SpacesMessage ID OP C}
    (h : Published platform env manager y authMessage y' message) :
    y'.encryptionY.dcgka.dgm.members =
      if secretMembers h.currentMembers = secretMembers h.nextMembers then
        y.encryptionY.dcgka.dgm.members
      else if authMessage.action.isCreate then
        Dcgka.initialMembers y.encryptionY.dcgka.myId (secretMembers h.nextMembers)
      else secretMembers h.nextMembers := by
  have hdgm : y'.encryptionY.dcgka.dgm = h.encryptionY.dcgka.dgm :=
    congrArg (fun y => y.encryptionY.dcgka.dgm) h.state
  have hchg := h.change
  rw [hdgm]
  by_cases heq : secretMembers h.currentMembers = secretMembers h.nextMembers
  · rw [Space.changeSecretMembers, if_neg (not_not.mpr heq)] at hchg
    rw [← (Prod.mk.inj (Outcome.ok.inj hchg)).1, if_pos heq]
  · rw [if_neg heq]
    obtain ⟨hsame, -⟩ | ⟨hadd, hall⟩ | ⟨hrm, hall⟩ | ⟨message, rng, hactn, hcrt, -⟩ :=
      changeSecretMembers_cases hchg
    · exact absurd hsame heq
    · have hcrt : authMessage.action.isCreate = false := by
        cases hactn : authMessage.action <;> rw [hactn] at hadd <;> trivial
      have hdgm := keeps_changeAll (fun y => y.dcgka.dgm) (fun hadd => by
        obtain ⟨_, _, _, henc, -, rfl⟩ := add_eq_ok hadd
        exact (Dcgka.encryptTo_eq_ok henc).1) hall
      rw [hcrt, hdgm]
      rfl
    · have hcrt : authMessage.action.isCreate = false := by
        cases hactn : authMessage.action <;> rw [hactn] at hrm <;> trivial
      rw [hcrt, keeps_changeAll (fun y => y.dcgka.dgm) dgm_remove hall]
      rfl
    · rw [if_pos hactn, (create_eq_ok hcrt).2]
      rfl

/-- A membership message which was published or received. -/
inductive Membership (ID OP C φ : Type) [LinearOrder ID] [Placeholders ID OP] [DecidableEq OP]
    [Conditions C] (platform : Platform ID) where
  | published (env : Surroundings ID OP C φ) (manager : Manager ID OP C)
      (y y' : SpacesState ID OP C) (authMessage : AuthMessage ID OP C)
      (message : SpacesMessage ID OP C) (events : List (Event ID OP C))
      (h : Space.processAuthMessage platform env manager y authMessage = .ok (y', message, events))
  | received (env : Surroundings ID OP C φ) (manager : Manager ID OP C) (id : OP)
      (spaceMessage : SpaceMembershipMessage ID OP) (authMessage : AuthMessage ID OP C)
      (y' : SpacesState ID OP C) (events : List (Event ID OP C))
      (h : Space.handleMembershipMessage platform env manager id spaceMessage authMessage =
        .ok (some (y', events)))

namespace Membership

def before : Membership ID OP C φ platform → SpacesState ID OP C
  | published _ _ y _ _ _ _ _ => y
  | received _ manager id spaceMessage _ _ _ _ =>
    Space.getOrInitState platform manager id spaceMessage.groupId

def after : Membership ID OP C φ platform → SpacesState ID OP C
  | published _ _ _ y' _ _ _ _ => y'
  | received _ _ _ _ _ y' _ _ => y'

/-- The hash orders in which the members are read before and after. -/
def orders : Membership ID OP C φ platform → Runtime ID OP × Runtime ID OP
  | published env _ _ _ _ _ _ _ => (env.auth 0, env.auth 2)
  | received env _ _ _ _ _ _ _ => (env.auth 0, env.auth 3)

/-- The members of the space group in the auth state, before and after. -/
structure Changes (message : Membership ID OP C φ platform)
    (current next : List (ID × Access C)) : Prop where
  current : message.before.groupsY.members message.orders.1 message.before.groupId =
    (.ok current : Outcome (SpaceError ID OP φ) _)
  next : message.after.groupsY.members message.orders.2 message.before.groupId =
    (.ok next : Outcome (SpaceError ID OP φ) _)

/-- Afterwards, the view of the members is the one of the auth state. -/
def Mirrored (message : Membership ID OP C φ platform) : Prop :=
  ∀ current next, message.Changes current next → Mirrors message.after next

/-- The view afterwards: a published message writes it if it changes the secret members, and the
creator of a group joins it; a received one always writes it, and may then take over another. -/
def nextView (view : Finset ID) (current next : List ID) :
    Membership ID OP C φ platform → Finset ID
  | published _ _ y _ authMessage _ _ _ =>
    if current = next then view
    else if authMessage.action.isCreate then insert y.encryptionY.dcgka.myId next.toFinset
    else next.toFinset
  | received _ manager id spaceMessage authMessage _ _ _ =>
    ((viewsOn manager.actorId (Space.getOrInitState platform manager id
      spaceMessage.groupId).encryptionY spaceMessage authMessage current next).getLast?.getD
        ⟨next⟩).members.toFinset

/-- The membership messages of a space, each with the view before it, and the view now. In between,
the state is stored, the rest of it may change, and it is loaded again, without the view. -/
inductive History (platform : Platform ID) : List (Membership ID OP C φ platform × Finset ID) →
    SpacesState ID OP C → Finset ID → Prop where
  | start (manager : Manager ID OP C) (id : OP) (groupId : ID) :
      History platform [] (Space.getOrInitState platform manager id groupId) ∅
  | load {messages : List (Membership ID OP C φ platform × Finset ID)} {y : SpacesState ID OP C}
      {view : Finset ID} (stored : SpacesStoreState ID OP C) (manager : Manager ID OP C) :
      History platform messages y view → stored.spaceId = y.spaceId →
      stored.groupId = y.groupId → stored.groupsY = y.groupsY →
      History platform messages (.assembleFromStore stored (manager.keyManager platform)
        manager.keyRegistry) ∅
  | message {messages : List (Membership ID OP C φ platform × Finset ID)} {view : Finset ID}
      {message : Membership ID OP C φ platform} {current next : List (ID × Access C)} :
      History platform messages message.before view → message.Changes current next →
      History platform (messages ++ [(message, view)]) message.after
        (message.nextView view (secretMembers current) (secretMembers next))

omit [LinearOrder ID] [Placeholders ID OP] [Conditions C] in
theorem myId_getOrInitState (manager : Manager ID OP C) (id : OP) (groupId : ID) :
    (Space.getOrInitState platform manager id groupId).encryptionY.dcgka.myId =
      (Space.getOrInitState platform manager id groupId).encryptionY.myId := by
  unfold Space.getOrInitState
  split <;> rfl

/-- The module follows the views. -/
theorem view_after (message : Membership ID OP C φ platform)
    {current next : List (ID × Access C)} (h : message.Changes current next) :
    message.after.encryptionY.dcgka.dgm.members.toFinset = message.nextView
      message.before.encryptionY.dcgka.dgm.members.toFinset (secretMembers current)
      (secretMembers next) := by
  obtain ⟨hcurrent, hnext⟩ := h
  cases message with
  | published env manager y y' authMessage message events hok =>
    obtain ⟨hpub⟩ := nonempty_published hok
    cases hcurrent.symm.trans hpub.current
    cases (hnext.symm.trans (hpub.groupsY_eq ▸ hpub.next) :)
    simp only [nextView, before, after]
    rw [hpub.dgm_eq]
    split_ifs
    · rfl
    · ext id
      simp [mem_initialMembers]
    · rfl
  | received env manager id spaceMessage authMessage y' events hok =>
    obtain ⟨hhdld⟩ := nonempty_handled hok
    cases hcurrent.symm.trans hhdld.current
    cases (hnext.symm.trans (hhdld.groupsY_eq ▸ hhdld.next) :)
    exact congrArg (fun view => view.members.toFinset)
      (hhdld.dgm_eq (myId_getOrInitState manager id spaceMessage.groupId))

theorem History.view_eq {messages : List (Membership ID OP C φ platform × Finset ID)}
    {y : SpacesState ID OP C} {view : Finset ID} (h : History platform messages y view) :
    y.encryptionY.dcgka.dgm.members.toFinset = view := by
  induction h with
  | start manager id groupId =>
    unfold Space.getOrInitState
    split <;> rfl
  | load stored manager _ _ _ _ => rfl
  | @message _ _ message _ _ _ hchanges ih => rw [message.view_after hchanges, ih]

/-- A published message changes the secret members, or else the view was right before; who creates a
group is one of its secret members. The last view taken over from a message is the one of the auth
state. -/
def KeepsView (view : Finset ID) (current next : List ID) : Membership ID OP C φ platform → Prop
  | published _ _ y _ authMessage _ _ _ =>
    if current = next then view = next.toFinset
    else authMessage.action.isCreate = true → y.encryptionY.dcgka.myId ∈ next
  | received _ manager id spaceMessage authMessage _ _ _ =>
    ∀ view ∈ (viewsOn manager.actorId (Space.getOrInitState platform manager id
      spaceMessage.groupId).encryptionY spaceMessage authMessage current next).getLast?,
        view.members.toFinset = next.toFinset

def Keeps (view : Finset ID) (message : Membership ID OP C φ platform) : Prop :=
  ∀ current next, message.Changes current next →
    message.KeepsView view (secretMembers current) (secretMembers next)

theorem keeps_iff {message : Membership ID OP C φ platform} {view : Finset ID}
    {current next : List (ID × Access C)} (h : message.Changes current next) :
    message.Keeps view ↔ message.KeepsView view (secretMembers current) (secretMembers next) := by
  refine ⟨fun hkeeps => hkeeps current next h, fun hkeeps current' next' h' => ?_⟩
  cases h.current.symm.trans h'.current
  cases h.next.symm.trans h'.next
  exact hkeeps

theorem nextView_eq_iff (message : Membership ID OP C φ platform) {view : Finset ID}
    {current next : List ID} :
    message.nextView view current next = next.toFinset ↔ message.KeepsView view current next := by
  cases message with
  | published env manager y y' authMessage message events h =>
    simp only [nextView, KeepsView]
    split_ifs with hsame hcreate
    · rfl
    · simp [hcreate]
    · simp [hcreate]
  | received env manager id spaceMessage authMessage y' events h =>
    simp only [nextView, KeepsView]
    cases (viewsOn manager.actorId _ spaceMessage authMessage current next).getLast? with
    | none => simp
    | some view => simp

/-- After any membership messages of a space, in whatever order they were published and received and
the state was loaded, the members are mirrored after each of them just if each of them keeps the
view right. -/
theorem forall_mirrored_iff {messages : List (Membership ID OP C φ platform × Finset ID)}
    {y : SpacesState ID OP C} {view : Finset ID} (h : History platform messages y view) :
    (∀ entry ∈ messages, entry.1.Mirrored) ↔ ∀ entry ∈ messages, entry.1.Keeps entry.2 := by
  induction h with
  | start manager id groupId => simp
  | load stored manager _ _ _ _ ih => exact ih
  | @message messages view message _ _ hbefore _ ih =>
    simp only [List.forall_mem_append, List.forall_mem_singleton]
    refine and_congr ih (forall₂_congr fun current next => imp_congr_right fun hchanges => ?_)
    rw [Mirrors, message.view_after hchanges, hbefore.view_eq, nextView_eq_iff]

theorem exists_changes (message : Membership ID OP C φ platform) :
    ∃ current next, message.Changes current next := by
  cases message with
  | published env manager y y' authMessage message events h =>
    obtain ⟨hpub⟩ := nonempty_published h
    exact ⟨_, _, hpub.current, (hpub.groupsY_eq ▸ hpub.next :)⟩
  | received env manager id spaceMessage authMessage y' events h =>
    obtain ⟨hhdld⟩ := nonempty_handled h
    exact ⟨_, _, hhdld.current, (hhdld.groupsY_eq ▸ hhdld.next :)⟩

section Sample

/-- Somebody is added with pull access only, so that no secret member is added. -/
def samplePull (n : Nat) : AuthMessage Nat Nat Unit :=
  ⟨n + 1, 0, [n], 50, .add (.individual 4) .pull⟩

def sampleFounderManager : Manager Nat Nat Unit := sampleSpaceManager 0 sampleFounding

/-- The view stays empty, as it is when the state is loaded. -/
theorem not_mirrored_samplePull : ∃ (messages : List (Membership Nat Nat Unit Empty samplePlatform ×
    Finset Nat)) (y : SpacesState Nat Nat Unit) (view : Finset Nat),
    History samplePlatform messages y view ∧ ¬∀ entry ∈ messages, entry.1.Mirrored := by
  have hreturns : (Space.processAuthMessage samplePlatform sampleEnv sampleFounderManager
      (Space.getOrInitState samplePlatform sampleFounderManager 60 50) (samplePull 1)).Returns
        fun result => result.1.encryptionY.dcgka.dgm.members = [] ∧
          (sampleMembers result.1).Returns fun members => secretMembers members = [0, 1, 3] := by
    decide +kernel
  obtain ⟨⟨y', message, events⟩, hok, hview, members, hmembers, hsecret⟩ := hreturns
  obtain ⟨current, next, hchanges⟩ := exists_changes (published _ _ _ _ _ _ _ hok)
  refine ⟨_, _, _, (History.start sampleFounderManager 60 50).message hchanges, fun hall => ?_⟩
  have hmirrors := hall _ (List.mem_singleton_self _) current next hchanges
  cases hchanges.next.symm.trans hmembers
  rw [Mirrors, hsecret] at hmirrors
  exact absurd (hview ▸ hmirrors :) (by decide)

theorem changes_samplePublished {manager : Manager Nat Nat Unit} {y y' : SpacesState Nat Nat Unit}
    {authMessage : AuthMessage Nat Nat Unit} {message : SpacesMessage Nat Nat Unit}
    {events : List (Event Nat Nat Unit)} {current next : List (Nat × Access Unit)}
    (hok : Space.processAuthMessage samplePlatform sampleEnv manager y authMessage =
      .ok (y', message, events)) (hgroup : y.groupId = 50)
    (hcur : sampleMembers y = .ok current) (hnext : sampleMembers y' = .ok next) :
    (published _ _ _ _ _ _ _ hok).Changes current next := by
  constructor
  · change y.groupsY.members _ y.groupId = _
    rwa [hgroup]
  · change y'.groupsY.members _ y.groupId = _
    rwa [hgroup]

def sampleLoaded (y : SpacesState Nat Nat Unit) : SpacesState Nat Nat Unit :=
  .assembleFromStore y.toStore (sampleFounderManager.keyManager samplePlatform)
    sampleFounderManager.keyRegistry

/-- The other manager removes the reader; then, after a load, somebody is added who can read, and
somebody who can pull only. -/
theorem mirrored_sampleHistory : ∃ (messages : List (Membership Nat Nat Unit Empty samplePlatform ×
    Finset Nat)) (y : SpacesState Nat Nat Unit) (view : Finset Nat),
    History samplePlatform messages y view ∧ messages.map Prod.snd = [∅, ∅, {0, 1, 2}] ∧
      view = {0, 1, 2} ∧ ∀ entry ∈ messages, entry.1.Mirrored := by
  have hreturns : (Space.handleMembershipMessage samplePlatform sampleEnv sampleFounderManager 60
      sampleRemovalPointer sampleRemoval).Returns fun result => (result.any fun result => decide (
        result.1.groupId = 50 ∧
        (sampleMembers result.1).Returns (fun members => secretMembers members = [0, 1]) ∧
        (Space.processAuthMessage samplePlatform sampleEnv sampleFounderManager
          (sampleLoaded result.1) ⟨3, 0, [2], 50, .add (.individual 2) .read⟩).Returns
            fun added => added.1.groupId = 50 ∧
              (sampleMembers added.1).Returns (fun members => secretMembers members = [0, 1, 2]) ∧
              (Space.processAuthMessage samplePlatform sampleEnv sampleFounderManager added.1
                (samplePull 3)).Returns fun pulled => (sampleMembers pulled.1).Returns
                  fun members => secretMembers members = [0, 1, 2])) = true := by
    decide +kernel
  obtain ⟨result, hreceive, hany⟩ := hreturns
  obtain ⟨⟨y1, events1⟩, rfl, hdecided⟩ := (Option.any_eq_true _ _).mp hany
  obtain ⟨hgroup1, ⟨members1, hmembers1, hsecret1⟩, ⟨y2, message2, events2⟩, hadd, hgroup2,
    ⟨members2, hmembers2, hsecret2⟩, ⟨y3, message3, events3⟩, hpull, members3, hmembers3,
    hsecret3⟩ := of_decide_eq_true hdecided
  obtain ⟨current1, next1, hchanges1⟩ := exists_changes (received _ _ _ _ _ _ _ hreceive)
  have hchanges2 := changes_samplePublished hadd hgroup1 hmembers1 hmembers2
  have hchanges3 := changes_samplePublished hpull hgroup2 hmembers2 hmembers3
  have h1 := (History.start sampleFounderManager 60 50).message hchanges1
  have h2 := (h1.load y1.toStore sampleFounderManager rfl rfl rfl).message hchanges2
  have h3 := h2.message hchanges3
  have hview2 : (published _ _ _ _ _ _ _ hadd).nextView ∅ (secretMembers members1)
      (secretMembers members2) = {0, 1, 2} := by
    rw [hsecret1, hsecret2]
    rfl
  have hview3 : (published _ _ _ _ _ _ _ hpull).nextView {0, 1, 2} (secretMembers members2)
      (secretMembers members3) = {0, 1, 2} := by
    rw [hsecret2, hsecret3]
    rfl
  rw [← hview2] at hview3
  refine ⟨_, _, _, h3, by simp [hview2], hview3.trans hview2, (forall_mirrored_iff h3).mpr ?_⟩
  simp only [List.forall_mem_append, List.forall_mem_singleton, keeps_iff hchanges1,
    keeps_iff hchanges2, keeps_iff hchanges3, ← nextView_eq_iff]
  refine ⟨⟨⟨List.forall_mem_nil _, ?_⟩, ?_⟩, ?_⟩
  · simp [nextView, viewsOn, sampleRemovalPointer]
  · rw [hview2, hsecret2]
    rfl
  · rw [hview3, hview2, hsecret3]
    rfl

end Sample

end Membership

end P2Panda.Spaces
