import P2Panda.Spaces.Runs

/-!
# Processing a message again

Group messages are recognised by the auth state, and pointers by the dependency graph of their
space. Key bundles and application messages are not: they are registered and queued once more.
-/

namespace P2Panda.Spaces

open P2Panda.Library Outcome P2Panda.Auth P2Panda.Auth.Group SpacesMessage Manager List
open P2Panda.Encryption P2Panda.Encryption.DataScheme
open EncryptionOrdererState

variable {ID OP C φ : Type} [LinearOrder ID] [Placeholders ID OP] [DecidableEq OP] [Conditions C]

def SpacesArgs.isRecognised : SpacesArgs ID OP C → Bool
  | .group .. => true
  | .spaceMembership .. => true
  | _ => false

/-- Processing a message succeeds, changes nothing which is persisted, and yields no events. -/
def Manager.Ignores (platform : Platform ID) (env : Surroundings ID OP C φ)
    (manager : Manager ID OP C) (message : SpacesMessage ID OP C) : Prop :=
  ∃ output, Manager.process platform env manager message = .ok output ∧
    manager.persist output = manager ∧ output.events = []

variable {platform : Platform ID} {env : Surroundings ID OP C φ} {manager : Manager ID OP C}
  {message : SpacesMessage ID OP C} {output : Manager.Output ID OP C}
  {authMessage : AuthMessage ID OP C} {directMessages : List (EncryptionDirectMessage ID)}
  {spaceId : OP} {groupId : ID} {spaceDependencies : List OP} {authMessageId : OP}
  {y : SpacesStoreState ID OP C} {events : List (Event ID OP C)}

omit [LinearOrder ID] [Placeholders ID OP] [DecidableEq OP] [Conditions C] in
theorem isRecognised_of_auth (hauth : message.auth = (.ok authMessage : Outcome Empty _)) :
    message.args.isRecognised = true := by
  unfold auth at hauth
  split at hauth
  · rename_i hargs
    rw [hargs]
    rfl
  · cases hauth

theorem Manager.ignores_group (hauth : message.auth = (.ok authMessage : Outcome Empty _))
    (hseen : (manager.getGroupsState.operations.lookup authMessage.id).isSome = true) :
    manager.Ignores platform env message := by
  refine ⟨.nothing, ?_, rfl, rfl⟩
  unfold auth at hauth
  cases hargs : message.args with
  | group groupId groupAction authDependencies =>
    rw [hargs] at hauth
    cases hauth
    rw [process, auth, hargs]
    rw [ok_bind, Group.process, if_pos hseen]
    rfl
  | _ =>
    rw [hargs] at hauth
    cases hauth

theorem Manager.ignores_membership (hargs : message.args =
      .spaceMembership spaceId groupId spaceDependencies authMessageId directMessages)
    (hauth : manager.getAuthMessage ⟨message.id, message.author, groupId, spaceDependencies,
      authMessageId, directMessages⟩ = (.ok authMessage : Outcome (ManagerError ID OP φ) _))
    (hspc : manager.getSpaceState spaceId = some y)
    (hseen : y.orderer.hasSeen message.id = true) :
    manager.Ignores platform env message := by
  refine ⟨.nothing, ?_, rfl, rfl⟩
  have hhdl : handleSpaceMembershipMessage platform env manager spaceId
      ⟨message.id, message.author, groupId, spaceDependencies, authMessageId, directMessages⟩ =
        .ok none := by
    rw [handleSpaceMembershipMessage, hauth, ok_bind,
      if_neg (by simp [hspc]), Space.handleMembershipMessage]
    have hst : Space.getOrInitState platform manager spaceId groupId =
        .assembleFromStore y (manager.keyManager platform) manager.keyRegistry := by
      rw [Space.getOrInitState, hspc]
    rw [hst, if_pos (by exact hseen)]
    rfl
  rw [process, spaceMembership, hargs]
  dsimp only
  rw [ok_bind, hhdl]
  rfl

theorem Manager.Sound.ignores_group (h : manager.Sound) {groupsY : AuthGroupState ID OP C}
    {event : Event ID OP C} (hauth : message.auth = (.ok authMessage : Outcome Empty _))
    (hgrp : Group.process env manager authMessage = .ok (some (groupsY, event)))
    (env' : Surroundings ID OP C φ) :
    (manager.persist ⟨none, some groupsY, none, [event]⟩).Ignores platform env' message := by
  dsimp only [Group.process] at hgrp
  split at hgrp
  · cases hgrp
  · obtain ⟨previousAncestors, -, hgrp⟩ := bind_eq_ok.mp hgrp
    obtain ⟨groupsY', hproc, hgrp⟩ := bind_eq_ok.mp hgrp
    obtain ⟨event', -, hgrp⟩ := bind_eq_ok.mp hgrp
    cases hgrp
    have hnew := (GroupCrdt.process_ok h.consistent (mapErr_eq_ok.mp hproc)).1.has_new
    apply Manager.ignores_group hauth
    exact Option.isSome_of_mem hnew.2

theorem Manager.Sound.ignores_membership (h : manager.Sound) {y : SpacesState ID OP C}
    (hargs : message.args =
      .spaceMembership spaceId groupId spaceDependencies authMessageId directMessages)
    (hhdl : Manager.handleSpaceMembershipMessage platform env manager spaceId ⟨message.id,
      message.author, groupId, spaceDependencies, authMessageId, directMessages⟩ =
        .ok (some (y, events))) (env' : Surroundings ID OP C φ) :
    (manager.persist ⟨none, none, some y, events⟩).Ignores platform env' message := by
  obtain ⟨authMessage, hauth, ⟨hhdld⟩⟩ := handled_of_handleSpaceMembershipMessage hhdl
  obtain ⟨hinit, hid⟩ := h.getOrInitState platform spaceId groupId
  have hspaceId : y.spaceId = spaceId := (hhdld.sound hinit).2.trans hid
  have hspc : (manager.persist ⟨none, none, some y, events⟩).getSpaceState spaceId =
      some y.toStore := by
    rw [getSpaceState_persist, Option.elim_some, if_pos hspaceId.symm]
  refine Manager.ignores_membership hargs hauth hspc ?_
  show y.encryptionY.orderer.hasSeen message.id = true
  rw [congrArg (fun y => y.encryptionY.orderer) hhdld.state]
  exact hasSeen_addDependency _ _ _ _

/-- What has been recognised once is recognised again. -/
theorem Manager.ignores_membership_of_seen (hargs : message.args =
      .spaceMembership spaceId groupId spaceDependencies authMessageId directMessages)
    (hhdl : Manager.handleSpaceMembershipMessage platform env manager spaceId ⟨message.id,
      message.author, groupId, spaceDependencies, authMessageId, directMessages⟩ = .ok none)
    (env' : Surroundings ID OP C φ) : manager.Ignores platform env' message := by
  obtain ⟨authMessage, hauth, hhdl⟩ := bind_eq_ok.mp hhdl
  split at hhdl
  · cases hhdl
  · dsimp only [Space.handleMembershipMessage] at hhdl
    split at hhdl
    · rename_i hseen
      cases hspc : manager.getSpaceState spaceId with
      | none =>
        rw [Space.getOrInitState, hspc] at hseen
        exact absurd hseen (by simp [EncryptionGroup.init, new, hasSeen, DiGraphMap.empty])
      | some y =>
        rw [Space.getOrInitState, hspc] at hseen
        exact ignores_membership hargs hauth hspc hseen
    · have hhdl := mapErr_eq_ok.mp hhdl
      obtain ⟨_, -, hhdl⟩ := bind_eq_ok.mp hhdl
      obtain ⟨_, -, hhdl⟩ := bind_eq_ok.mp hhdl
      obtain ⟨_, -, hhdl⟩ := bind_eq_ok.mp hhdl
      obtain ⟨_, -, hhdl⟩ := bind_eq_ok.mp hhdl
      obtain ⟨_, -, hhdl⟩ := bind_eq_ok.mp hhdl
      obtain ⟨_, -, hhdl⟩ := bind_eq_ok.mp hhdl
      cases hhdl

theorem Manager.not_ignores_member {member : Member ID} (hargs : message.args = .member member) :
    ¬manager.Ignores platform env message := by
  rintro ⟨output, hproc, -, hevs⟩
  rw [process, hargs] at hproc
  obtain ⟨result, -, hproc⟩ := bind_eq_ok.mp hproc
  cases hproc
  cases hevs

omit [DecidableEq OP] in
/-- Every processed application message has its plaintext among the outputs. -/
theorem application_mem_processAll {checks : Bool} {c : DataPrimitives} {codec : SecretCodec}
    {env : DataScheme.Surroundings ID} {y y' : EncryptionGroupState ID OP}
    {messages : List (EncryptionMessage ID OP)} {outputs : List GroupOutput}
    (h : EncryptionGroup.processAll checks c codec env y messages =
      (.ok (y', outputs) : EncryptionOutcome ID _)) {message : EncryptionMessage ID OP}
    (hmem : message ∈ messages) (happ : message.isApplication = true) :
    ∃ plaintext, .application plaintext ∈ outputs := by
  induction messages generalizing y outputs with
  | nil => cases hmem
  | cons first messages ih =>
    obtain ⟨⟨y1, output⟩, hrdy, h⟩ := bind_eq_ok.mp h
    obtain ⟨⟨y2, outputs'⟩, hall, h⟩ := bind_eq_ok.mp h
    cases h
    cases hmem with
    | head =>
      obtain ⟨author, id, dependencies, groupSecretId, nonce, ciphertext, rfl⟩ :
          ∃ author id dependencies groupSecretId nonce ciphertext, message =
            .forged author id (.application dependencies groupSecretId nonce ciphertext) := by
        unfold EncryptionMessage.isApplication at happ
        split at happ
        · exact ⟨_, _, _, _, _, _, rfl⟩
        · cases happ
      rw [processReady_of_application rfl] at hrdy
      obtain ⟨plaintext, -, hrdy⟩ := bind_eq_ok.mp hrdy
      cases hrdy
      exact ⟨plaintext, mem_append_left _ (by simp)⟩
    | tail _ hmem =>
      obtain ⟨plaintext, houtp⟩ := ih hall hmem
      exact ⟨plaintext, mem_append_right _ houtp⟩

theorem mem_processedOn_or_queue {y : EncryptionGroupState ID OP}
    {message : EncryptionMessage ID OP} {content : GroupMessageContent ID}
    (hcont : EncryptionGroup.isCreateOrWelcome y content = false) :
    message ∈ processedOn y message content ∨
      (ordererOn y message content).queue = y.orderer.queue ++ [GroupMessage.id message] := by
  have harr : arrived y message content =
      y.orderer.enqueue (GroupMessage.id message) message := if_neg (by simp [hcont])
  rw [processedOn, ordererOn, harr]
  cases joined y content with
  | false => exact Or.inr rfl
  | true =>
    rw [if_pos rfl, ready, drained]
    split
    · apply Or.inl
      rw [mem_inOrder]
      refine mem_filterMap.mpr ⟨GroupMessage.id message, ?_, Finmap.lookup_insert _⟩
      exact mem_append_right _ (mem_singleton_self _)
    · exact Or.inr rfl

omit [LinearOrder ID] [Placeholders ID OP] [Conditions C] in
theorem queue_addDependency (order : HashOrder OP) (y : SpacesState ID OP C) (id : OP)
    (dependencies : List OP) :
    (Space.addDependency order y id dependencies).toStore.orderer.queue =
      y.encryptionY.orderer.queue := by
  show (y.encryptionY.orderer.addDependency order id dependencies).queue = _
  unfold addDependency
  split <;> rfl

/-- An application message yields an event, or makes the queue of its space longer. -/
theorem handleApplicationMessage_eq_ok {id : OP} {application : ApplicationMessage ID OP}
    {y' : SpacesState ID OP C} (hspc : manager.getSpaceState id = some y)
    (h : Space.handleApplicationMessage platform env manager id application = .ok (y', events)) :
    y'.spaceId = y.spaceId ∧
      (events ≠ [] ∨ y'.toStore.orderer.queue = y.orderer.queue ++ [application.id]) := by
  obtain ⟨z, hst, h⟩ := bind_eq_ok.mp h
  rw [Space.state, hspc] at hst
  cases hst
  obtain ⟨-, -, h⟩ := bind_eq_ok.mp h
  obtain ⟨⟨z, events'⟩, hrcv, h⟩ := bind_eq_ok.mp h
  cases h
  obtain ⟨⟨encryptionY, outputs⟩, hgrp, hrcv⟩ := bind_eq_ok.mp hrcv
  cases hrcv
  obtain ⟨content, hcont, hall⟩ := receive_eq_ok (mapErr_eq_ok.mp hgrp)
  cases hcont
  refine ⟨rfl, ?_⟩
  have hctrl : EncryptionGroup.isCreateOrWelcome (SpacesState.assembleFromStore y
      (manager.keyManager platform) manager.keyRegistry).encryptionY (.application
        application.groupSecretId application.nonce application.ciphertext) = false := rfl
  obtain hprocd | hq := mem_processedOn_or_queue hctrl
  · obtain ⟨plaintext, houtp⟩ := application_mem_processAll hall hprocd rfl
    apply Or.inl
    exact ne_nil_of_mem (mem_filterMap.mpr ⟨_, houtp, rfl⟩)
  · apply Or.inr
    rw [queue_addDependency]
    exact (congrArg _ (orderer_processAll hall)).trans hq

theorem Manager.Sound.not_ignores_application (h : manager.Sound)
    {spaceDependencies proof : List OP} {groupSecretId : GroupSecretId} {nonce : XAeadNonce}
    {ciphertext : List UInt8} (hargs : message.args =
      .application spaceId spaceDependencies proof groupSecretId nonce ciphertext) :
    ¬manager.Ignores platform env message := by
  rintro ⟨output, hproc, hpersist, hevs⟩
  cases processed_of_process hproc with
  | application hargs' hknown hhdl =>
    cases hargs.symm.trans hargs'
    cases hspc : manager.getSpaceState spaceId with
    | none =>
      rw [hspc] at hknown
      cases hknown
    | some y =>
      obtain ⟨hid, hev | hq⟩ := handleApplicationMessage_eq_ok hspc hhdl
      · exact hev hevs
      · have hstor := congrArg (fun manager => manager.getSpaceState spaceId) hpersist
        rw [getSpaceState_persist, hspc, Option.elim_some,
          if_pos ((h.spaceId spaceId y hspc).symm.trans hid.symm)] at hstor
        cases hstor
        exact absurd hq (by simp)
  | member hargs' => cases hargs.symm.trans hargs'
  | membership hargs' => cases hargs.symm.trans hargs'
  | membershipSeen hargs' => cases hargs.symm.trans hargs'
  | group hauth =>
    rw [auth, hargs] at hauth
    cases hauth
  | groupSeen hauth =>
    rw [auth, hargs] at hauth
    cases hauth

/-- In every state a manager reaches, a processed message is ignored when it arrives again just in
case it is of a kind which is recognised. -/
theorem Manager.ignores_processed_iff (h : Manager.Reachable φ platform manager)
    (hprocess : Manager.process platform env manager message = .ok output)
    (env' : Surroundings ID OP C φ) :
    (manager.persist output).Ignores platform env' message ↔ message.args.isRecognised = true := by
  have hsound := h.sound
  have hagain := hsound.process hprocess
  cases processed_of_process hprocess with
  | member hargs =>
    rw [hargs]
    exact iff_of_false (not_ignores_member hargs) Bool.false_ne_true
  | group hauth hgrp =>
    exact iff_of_true (hsound.ignores_group hauth hgrp env') (isRecognised_of_auth hauth)
  | groupSeen hauth hgrp =>
    refine iff_of_true (ignores_group hauth ?_) (isRecognised_of_auth hauth)
    dsimp only [Group.process] at hgrp
    split at hgrp
    · assumption
    · obtain ⟨_, -, hgrp⟩ := bind_eq_ok.mp hgrp
      obtain ⟨_, -, hgrp⟩ := bind_eq_ok.mp hgrp
      obtain ⟨_, -, hgrp⟩ := bind_eq_ok.mp hgrp
      cases hgrp
  | membership hargs hhdl =>
    rw [hargs]
    exact iff_of_true (hsound.ignores_membership hargs hhdl env') rfl
  | membershipSeen hargs hhdl =>
    rw [hargs]
    exact iff_of_true (ignores_membership_of_seen hargs hhdl env') rfl
  | application hargs hknown hhdl =>
    rw [hargs]
    exact iff_of_false (hagain.not_ignores_application hargs) Bool.false_ne_true

section Sample

def sampleNewManager : Manager Nat Nat Unit where
  actorId := 1
  identitySecret := TwoParty.sampleKey 3
  store := ⟨none, ∅, ∅, some (TwoParty.sampleManager .alice).prekeys, none⟩

theorem reachable_sampleNewManager : Manager.Reachable Empty samplePlatform sampleNewManager :=
  .start rfl rfl

def sampleGroupMessage : SpacesMessage Nat Nat Unit :=
  ⟨1, 0, .group 50 (.create [(.individual 0, .manage), (.individual 1, .read)]) []⟩

/-- The creation of a group is ignored when it arrives again. -/
theorem ignores_sampleGroupMessage : ∃ output,
    Manager.process samplePlatform sampleEnv sampleNewManager sampleGroupMessage = .ok output ∧
    (sampleNewManager.persist output).Ignores samplePlatform sampleEnv sampleGroupMessage := by
  have hok : (process samplePlatform sampleEnv sampleNewManager sampleGroupMessage).IsOk := by
    decide +kernel
  obtain ⟨output, houtp⟩ := hok
  exact ⟨output, houtp, (ignores_processed_iff reachable_sampleNewManager houtp sampleEnv).mpr rfl⟩

def sampleKeyBundleMessage : SpacesMessage Nat Nat Unit :=
  ⟨1, 0, .member ⟨0, sampleLongTermBundle, TwoParty.sampleSignature, ⟨Vector.replicate 64 0⟩⟩⟩

/-- A key bundle which arrives again is registered again, with another event. -/
theorem registered_twice : Manager.Reachable Empty samplePlatform sampleNewManager ∧
    ∃ output output',
      Manager.process samplePlatform sampleEnv sampleNewManager sampleKeyBundleMessage =
        .ok output ∧
      Manager.process samplePlatform sampleEnv (sampleNewManager.persist output)
        sampleKeyBundleMessage = .ok output' ∧
      (sampleNewManager.persist output).keyRegistry.longtermBundles.lookup 0 =
        some [sampleLongTermBundle] ∧
      ((sampleNewManager.persist output).persist output').keyRegistry.longtermBundles.lookup 0 =
        some [sampleLongTermBundle, sampleLongTermBundle] ∧
      output'.events ≠ [] ∧
      ¬(sampleNewManager.persist output).Ignores samplePlatform sampleEnv
        sampleKeyBundleMessage := by
  have hret : (process samplePlatform sampleEnv sampleNewManager
      sampleKeyBundleMessage).Returns fun output =>
        (sampleNewManager.persist output).keyRegistry.longtermBundles.lookup 0 =
          some [sampleLongTermBundle] ∧
        (process samplePlatform sampleEnv (sampleNewManager.persist output)
          sampleKeyBundleMessage).Returns fun output' =>
            ((sampleNewManager.persist output).persist
                output').keyRegistry.longtermBundles.lookup 0 =
              some [sampleLongTermBundle, sampleLongTermBundle] ∧ output'.events ≠ [] := by
    decide +kernel
  obtain ⟨output, houtp, hfst, output', houtput', hsnd, hevs⟩ := hret
  exact ⟨reachable_sampleNewManager, output, output', houtp, houtput', hfst, hsnd, hevs,
    not_ignores_member rfl⟩

end Sample

end P2Panda.Spaces
