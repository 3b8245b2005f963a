import P2Panda.Encryption.DataScheme.Totality
import P2Panda.Spaces.Runs

/-!
# Messages of others do not panic

Every message ends with a result or an error in every state a manager reaches, with one exception:
updates of a space are not implemented.
-/

namespace P2Panda.Spaces

open P2Panda.Library Outcome P2Panda.Auth P2Panda.Auth.Group PanicsOnly Space SpacesMessage
open P2Panda.Encryption P2Panda.Encryption.DataScheme

variable {ID OP C φ : Type}

theorem managerReturns : ManagerReturns KeyManagerState where
  prekeySecret y id m := by
    show KeyManager.prekeySecret y id ≠ .panic m
    unfold KeyManager.prekeySecret
    split <;> simp
  useOnetimeSecret y id m := by
    show KeyManager.useOnetimeSecret y id ≠ .panic m
    unfold KeyManager.useOnetimeSecret
    split <;> simp

theorem membershipReturns [DecidableEq ID] :
    MembershipReturns (EncryptionMembershipState ID) ID OP where
  create _ _ _ := by simp [GroupMembership.create]
  fromWelcome _ _ _ := by simp [GroupMembership.fromWelcome]
  add _ _ _ _ _ := by simp [GroupMembership.add]
  remove _ _ _ _ _ := by simp [GroupMembership.remove]

section Receive

variable [LinearOrder ID] [Placeholders ID OP] {checks : Bool} {c : DataPrimitives}
  {codec : SecretCodec} {env : DataScheme.Surroundings ID} {y : EncryptionGroupState ID OP}
  {message : EncryptionMessage ID OP}

omit [LinearOrder ID] in
theorem content_of_isForged (h : message.isForged = true) :
    ∃ content, GroupMessage.content message = .ok content := by
  cases message with
  | args args => cases h
  | forged author operationId args =>
    cases args with
    | system dependencies controlMessage directMessages => exact ⟨_, rfl⟩
    | application dependencies groupSecretId nonce ciphertext => exact ⟨_, rfl⟩

theorem panicsOnly_processReady (hforg : message.isForged = true) :
    (EncryptionGroup.processReady checks c codec env y message :
      EncryptionOutcome ID _).PanicsOnly addOverflow := by
  obtain ⟨content, hcont⟩ := content_of_isForged hforg
  cases content with
  | control controlMessage =>
    rw [processReady_control hcont]
    apply ((Dcgka.panicsOnly_process managerReturns membershipReturns _ _).mapErr _).bind
    intro _ _
    exact panicsOnly_ok _ _
  | application groupSecretId nonce ciphertext =>
    rw [processReady_of_application hcont]
    refine bind ?_ fun _ _ => panicsOnly_ok _ _
    unfold EncryptionGroup.decrypt
    split
    · exact panicsOnly_err _ _
    · unfold decryptData
      split <;> simp

theorem panicsOnly_processAll {messages : List (EncryptionMessage ID OP)}
    (hforg : ∀ m ∈ messages, m.isForged = true) :
    (EncryptionGroup.processAll checks c codec env y messages :
      EncryptionOutcome ID _).PanicsOnly addOverflow := by
  induction messages generalizing y with
  | nil => exact panicsOnly_ok _ _
  | cons message messages ih =>
    obtain ⟨hmsg, hforg⟩ := List.forall_mem_cons.mp hforg
    apply (panicsOnly_processReady hmsg).bind
    intro result _
    apply (ih hforg).bind
    intro _ _
    exact panicsOnly_ok _ _

variable [DecidableEq OP]

theorem panicsOnly_processQueue {fuel : Nat} (hy : y.orderer.Intact)
    (hfuel : y.orderer.queue.length < fuel) :
    (EncryptionGroup.processQueue checks c codec env fuel y :
      EncryptionOutcome ID _).PanicsOnly addOverflow := by
  obtain ⟨hwait, hforg⟩ := hy.waiting
  cases hwel : y.orderer.welcomeMessage with
  | none =>
    cases fuel with
    | zero => exact absurd hfuel (Nat.not_lt_zero _)
    | succ fuel =>
      rw [EncryptionGroup.processQueue, EncryptionGroup.collectReady,
        EncryptionOrdererState.nextReadyMessage_of_not_welcomed hwel]
      exact panicsOnly_ok _ _
  | some welcome =>
    rw [hwait.length] at hfuel
    rw [processQueue_eq (by rw [hwel]; rfl) hwait hforg hfuel]
    apply panicsOnly_processAll
    intro m hm
    exact hforg m (mem_inOrder.mp hm)

theorem panicsOnly_receive (hy : y.orderer.Intact) (hforg : message.isForged = true) :
    (EncryptionGroup.receive checks c codec env (Space.rounds y) y message :
      EncryptionOutcome ID _).PanicsOnly addOverflow := by
  obtain ⟨content, hcont⟩ := content_of_isForged hforg
  have hcont : EncryptionGroup.content message = (.ok content : EncryptionOutcome ID _) := by
    rw [EncryptionGroup.content, hcont]
    rfl
  have hintact := hy.enqueue (GroupMessage.id message) hforg
  have hlen : (y.orderer.enqueue (GroupMessage.id message) message).queue.length < rounds y := by
    simp [EncryptionOrdererState.enqueue, rounds]
  rw [EncryptionGroup.receive, hcont, ok_bind]
  split
  · exact panicsOnly_err _ _
  · refine bind (panicsOnly_ok _ _) fun orderer hord => ?_
    cases hord
    dsimp only
    split
    · exact panicsOnly_processQueue hintact hlen
    · split
      · refine bind (panicsOnly_ok _ _) fun orderer hord => ?_
        cases hord
        exact panicsOnly_processQueue (hintact.congr rfl rfl) hlen
      · exact panicsOnly_ok _ _

end Receive

section Processors

variable [LinearOrder ID] [Placeholders ID OP] [DecidableEq OP]
  {platform : Platform ID} {env : Surroundings ID OP C φ} {manager : Manager ID OP C}
  {authMessage : AuthMessage ID OP C} {spaceMessage : SpaceMembershipMessage ID OP}
  {y : SpacesState ID OP C}

theorem panicsOnly_spaceReceive {message : EncryptionMessage ID OP}
    (hy : y.encryptionY.orderer.Intact) (hforg : message.isForged = true) :
    (Space.receive platform env y message).PanicsOnly addOverflow := by
  apply ((panicsOnly_receive hy hforg).mapErr _).bind
  intro _ _
  exact panicsOnly_ok _ _

theorem panicsOnly_receiveMembership {me : ID} {currentMembers nextMembers : List ID}
    (hy : y.encryptionY.orderer.Intact) (hid : authMessage.id = spaceMessage.authMessageId) :
    (Space.receiveMembership platform env me y spaceMessage authMessage currentMembers
      nextMembers).PanicsOnly addOverflow := by
  unfold receiveMembership
  split
  · unfold EncryptionMessage.fromMembership
    rw [if_neg (not_not.mpr hid)]
    exact panicsOnly_spaceReceive hy rfl
  · exact panicsOnly_ok _ _

omit [Placeholders ID OP] in
theorem panicsOnly_processMember (hvfy : platform.primitives.toPrimitives.Verifies)
    {member : Member ID}
    (hregistry : ∀ m, KeyRegistry.addLongtermBundle platform.primitives.toPrimitives env.clock
      manager.keyRegistry member.id member.keyBundle ≠ .panic m) :
    (manager.processMember platform env member).PanicsOnly addOverflow := by
  refine bind (.mapErr ?_ _) fun _ _ => ?_
  · refine bind (.mapErr ?_ _) fun _ _ => ?_
    · exact fun m hpan => absurd hpan (hvfy _ _ _ m)
    · split
      · exact panicsOnly_err _ _
      · split
        · exact panicsOnly_err _ _
        · exact (panicsOnly_verifyPrekey hvfy _ _ _ _).mapErr _
  · refine bind (.mapErr ?_ _) fun _ _ => panicsOnly_ok _ _
    exact fun m hpan => absurd hpan (hregistry m)

omit [LinearOrder ID] [Placeholders ID OP] in
theorem id_getAuthMessage (h : manager.getAuthMessage spaceMessage =
      (.ok authMessage : Outcome (ManagerError ID OP φ) _)) :
    authMessage.id = spaceMessage.authMessageId := by
  unfold Manager.getAuthMessage at h
  split at h
  · cases h
  · rename_i message hmsg
    unfold auth at h
    have hid := manager.store.messages.property _ message hmsg
    cases hargs : message.args <;> rw [hargs] at h <;> cases h
    exact hid

omit [LinearOrder ID] [Placeholders ID OP] in
theorem panicsOnly_getAuthMessage (spaceMessage : SpaceMembershipMessage ID OP) :
    (manager.getAuthMessage spaceMessage :
      Outcome (ManagerError ID OP φ) _).PanicsOnly addOverflow := by
  unfold Manager.getAuthMessage
  split
  · exact panicsOnly_err _ _
  · split
    · rename_i hargs
      rw [auth, hargs]
      exact panicsOnly_ok _ _
    · exact panicsOnly_err _ _

variable [Conditions C]

/-- A pointer is handled without a panic if it points at the message which was found, and the auth
state can process it. -/
theorem panicsOnly_handleMembershipMessage (h : manager.Sound) {id : OP}
    (hid : authMessage.id = spaceMessage.authMessageId) (hauth : ∀ m, GroupCrdt.process (env.auth 2)
      (Space.getOrInitState platform manager id spaceMessage.groupId).groupsY authMessage ≠
        .panic m) :
    (Space.handleMembershipMessage platform env manager id spaceMessage
      authMessage).PanicsOnly addOverflow := by
  have hy := (h.getOrInitState platform id spaceMessage.groupId).1
  dsimp only [handleMembershipMessage]
  generalize getOrInitState platform manager id spaceMessage.groupId = y at hy hauth
  split
  · exact panicsOnly_ok _ _
  · obtain ⟨currentMembers, hcur⟩ := hy.consistent.isOk_members (env.auth 0) y.groupId
    obtain ⟨currentAncestors, hanc⟩ := hy.consistent.isOk_ancestors (env.auth 1) y.groupId
    rw [hcur, ok_bind, hanc, ok_bind]
    refine bind ?_ fun groupsY hprocd => ?_
    · unfold processPointer
      split
      · exact panicsOnly_ok _ _
      · apply PanicsOnly.mapErr
        exact fun m hpan => absurd hpan (hauth m)
    · have hcons := consistent_processPointer hy.consistent hprocd
      obtain ⟨nextMembers, hnext⟩ := hcons.isOk_members (env.auth 3) y.groupId
      rw [hnext, ok_bind]
      refine bind (panicsOnly_receiveMembership hy.intact hid) ?_
      intro received hrecv
      have hgroups := groupsY_receiveMembership hrecv
      have hresd : (addDependency env.order received.1 spaceMessage.id
          spaceMessage.spaceDependencies).groupsY.Resolved := by
        show received.1.groupsY.Resolved
        rw [hgroups]
        exact hcons.toResolved
      obtain ⟨events, hevs⟩ := isOk_generateSpaceEvents
        hresd (fun n => env.auth (n + 4)) manager.actorId authMessage spaceMessage
        currentMembers currentAncestors
      rw [hevs]
      exact panicsOnly_ok _ _

theorem panicsOnly_handleApplicationMessage (h : manager.Sound) (id : OP)
    (message : ApplicationMessage ID OP) :
    (Space.handleApplicationMessage platform env manager id message).PanicsOnly addOverflow := by
  refine bind ?_ fun y hst => ?_
  · unfold state
    split <;> simp
  · have hy := (h.state hst).1
    apply ((hy.consistent.panicsOnly_verifyClaimedWriteAccess _ _ _ _ _).mapErr _).bind
    intro _ _
    apply (panicsOnly_spaceReceive hy.intact rfl).bind
    intro _ _
    exact panicsOnly_ok _ _

omit [Placeholders ID OP] in
theorem panicsOnly_groupProcess (hy : GroupCrdt.Consistent manager.getGroupsState)
    (hauth : ∀ m, GroupCrdt.process (env.auth 1) manager.getGroupsState authMessage ≠ .panic m) :
    (Group.process env manager authMessage).PanicsOnly addOverflow := by
  dsimp only [Group.process]
  split
  · exact panicsOnly_ok _ _
  · obtain ⟨ancestors, hanc⟩ := hy.isOk_ancestors (env.auth 0) authMessage.groupId
    rw [hanc, ok_bind]
    refine bind (.mapErr ?_ _) fun groupsY hprocd => ?_
    · exact fun m hpan => absurd hpan (hauth m)
    · have hcons := (GroupCrdt.process_ok hy (mapErr_eq_ok.mp hprocd)).2.1
      obtain ⟨event, hev⟩ := isOk_toGroupsEvent hcons.toResolved (env.auth 2) authMessage ancestors
      rw [hev]
      exact panicsOnly_ok _ _

/-- What a call relies on returns: the verification of signatures, the key registry, and the auth
state for its auth message. -/
structure CallsReturn (platform : Platform ID) (env : Surroundings ID OP C φ)
    (manager : Manager ID OP C) (message : SpacesMessage ID OP C) : Prop where
  verifies : platform.primitives.toPrimitives.Verifies
  registry : ∀ member, message.args = .member member → ∀ m,
    KeyRegistry.addLongtermBundle platform.primitives.toPrimitives env.clock manager.keyRegistry
      member.id member.keyBundle ≠ .panic m
  group : ∀ authMessage, message.auth = (.ok authMessage : Outcome (ManagerError ID OP φ) _) →
    ∀ m, GroupCrdt.process (env.auth 1) manager.getGroupsState authMessage ≠ .panic m
  pointer : ∀ spaceId groupId spaceDependencies authMessageId directMessages, message.args =
      .spaceMembership spaceId groupId spaceDependencies authMessageId directMessages →
    ∀ authMessage, manager.getAuthMessage ⟨message.id, message.author, groupId, spaceDependencies,
        authMessageId, directMessages⟩ = (.ok authMessage : Outcome (ManagerError ID OP φ) _) →
      ∀ m, GroupCrdt.process (env.auth 2)
        (Space.getOrInitState platform manager spaceId groupId).groupsY authMessage ≠ .panic m

def SpacesMessage.isUpdate (message : SpacesMessage ID OP C) : Bool :=
  match message.args with
  | .spaceUpdate .. => true
  | _ => false

/-- In every state a manager reaches, a message is processed without a panic exactly if it is not an
update of a space. -/
theorem process_panicsOnly_iff (h : Manager.Reachable φ platform manager)
    {message : SpacesMessage ID OP C} (hreturns : CallsReturn platform env manager message) :
    (Manager.process platform env manager message).PanicsOnly addOverflow ↔
      message.isUpdate = false := by
  have hsound := h.sound
  obtain ⟨messageId, author, args⟩ := message
  cases args with
  | member member =>
    have hmbr := panicsOnly_processMember hreturns.verifies (hreturns.registry member rfl)
    refine iff_of_true ?_ rfl
    apply (hmbr.mapErr _).bind
    intro _ _
    exact panicsOnly_ok _ _
  | group groupId groupAction authDependencies =>
    have hgrp := panicsOnly_groupProcess hsound.consistent (hreturns.group _ rfl)
    refine iff_of_true ?_ rfl
    apply (hgrp.mapErr _).bind
    intro result _
    cases result <;> exact panicsOnly_ok _ _
  | spaceMembership spaceId groupId spaceDependencies authMessageId directMessages =>
    have hptr := hreturns.pointer _ _ _ _ _ rfl
    refine iff_of_true ?_ rfl
    dsimp only [Manager.process, spaceMembership]
    rw [ok_bind]
    refine bind ?_ fun result _ => ?_
    · apply (panicsOnly_getAuthMessage _).bind
      intro authMessage hauth
      split
      · exact panicsOnly_err _ _
      · apply PanicsOnly.mapErr
        exact panicsOnly_handleMembershipMessage hsound (id_getAuthMessage hauth)
          (hptr authMessage hauth)
    · cases result <;> exact panicsOnly_ok _ _
  | spaceUpdate spaceId groupId spaceDependencies =>
    refine iff_of_false ?_ Bool.true_eq_false.mp
    intro hpanics
    exact absurd (hpanics _ rfl) (by decide)
  | application spaceId spaceDependencies proof groupSecretId nonce ciphertext =>
    refine iff_of_true ?_ rfl
    dsimp only [Manager.process]
    split
    · exact panicsOnly_err _ _
    · apply ((panicsOnly_handleApplicationMessage hsound _ _).mapErr _).bind
      intro _ _
      exact panicsOnly_ok _ _

end Processors

section Sample

def sampleStart : Manager Nat Nat Unit where
  actorId := 0
  identitySecret := TwoParty.sampleKey 3
  store := {
    groups := none
    spaces := ∅
    messages := ∅
    prekeySecrets := none
    keyRegistry := none }

theorem reachable_sampleStart : Manager.Reachable Empty samplePlatform sampleStart :=
  .start rfl rfl

def sampleCalls (n : Nat) : Surroundings Nat Nat Unit Empty :=
  { sampleEnv with forge := fun k _ => .ok (100 * (n + 1) + k) }

def sampleApplicationMessage : SpacesMessage Nat Nat Unit :=
  ⟨600, 0, .application 60 [300] [200] (Vector.replicate 32 9) (Vector.replicate 24 9)
    (List.replicate 32 9 ++ [1])⟩

/-- A space has been created, and a message for it is decrypted. -/
theorem process_panicsOnly_application : ∃ manager : Manager Nat Nat Unit,
    Manager.Reachable Empty samplePlatform manager ∧ (manager.getSpaceState 60).isSome ∧
    CallsReturn samplePlatform sampleEnv manager sampleApplicationMessage ∧
    (Manager.process samplePlatform sampleEnv manager sampleApplicationMessage).IsOk ∧
    (Manager.process samplePlatform sampleEnv manager sampleApplicationMessage).PanicsOnly
      addOverflow := by
  have hreturns : (Space.create samplePlatform sampleStart sampleCalls 60 []).Returns fun result =>
      let manager := sampleStart.persist ⟨none, some result.1, some result.2.1, []⟩
      (manager.getSpaceState 60).isSome ∧
        (Manager.process samplePlatform sampleEnv manager sampleApplicationMessage).IsOk := by
    decide +kernel
  obtain ⟨⟨groupsY, y, messages, events⟩, hcreate, hspace, hok⟩ := hreturns
  have hreachable := reachable_sampleStart.step (.createSpace hcreate)
  have hret : CallsReturn samplePlatform sampleEnv
      (sampleStart.persist ⟨none, some groupsY, some y, []⟩) sampleApplicationMessage :=
    ⟨nofun, nofun, nofun, nofun⟩
  exact ⟨_, hreachable, hspace, hret, hok, (process_panicsOnly_iff hreachable hret).mpr rfl⟩

/-- Somebody publishes an update of a space. -/
theorem process_spaceUpdate_panics : Manager.Reachable Empty samplePlatform sampleStart ∧
    CallsReturn samplePlatform sampleEnv sampleStart ⟨1, 3, .spaceUpdate 60 50 []⟩ ∧
    Manager.process samplePlatform sampleEnv sampleStart ⟨1, 3, .spaceUpdate 60 50 []⟩ =
      .panic "not implemented" :=
  ⟨reachable_sampleStart, ⟨nofun, nofun, nofun, nofun⟩, rfl⟩

end Sample

end P2Panda.Spaces
