import P2Panda.Encryption.DataScheme.Sending
import P2Panda.Spaces.Introduction

/-!
# Changing the secret members of a space

A change of a group is applied to a space by comparing the secret members before and after it: an
addition welcomes whoever is new, a removal makes a new secret for each one who is gone.
-/

namespace P2Panda.Spaces

open P2Panda.Library Outcome P2Panda.Auth P2Panda.Auth.Group List
open P2Panda.Encryption P2Panda.Encryption.DataScheme

variable {ID OP C φ : Type} [LinearOrder ID] [Placeholders ID OP] [DecidableEq OP] {removed : ID}
  {action : GroupAction ID C}

/-! ## Operations of the encryption group -/

section Operations

variable {checks : Bool} {c : DataPrimitives} {codec : SecretCodec}
  {env : DataScheme.Surroundings ID} {y y' : EncryptionGroupState ID OP}
  {message : EncryptionMessage ID OP} {rng rng' : Rng}

def recipientsWithout (env : DataScheme.Surroundings ID) (y : EncryptionGroupState ID OP)
    (removed : ID) : List ID :=
  (env.members.iter y.dcgka.dgm.members.toFinset).filter fun member =>
    member ≠ y.dcgka.myId ∧ member ≠ removed

omit [Placeholders ID OP] [DecidableEq OP] in
theorem mem_recipientsWithout {removed id : ID} : id ∈ recipientsWithout env y removed ↔
    id ∈ y.dcgka.dgm.members ∧ id ≠ y.dcgka.myId ∧ id ≠ removed := by
  simp [recipientsWithout, HashOrder.mem_iter]

theorem remove_eq_ok (h : EncryptionGroup.remove checks c codec env y removed rng =
      (.ok (y', message, rng') : EncryptionOutcome ID _)) :
    ∃ groupSecret rng1 dcgka,
      SecretBundle.generate checks env.now y.secrets rng = .ok (groupSecret, rng1) ∧
      Dcgka.sendGroupSecret checks c codec env groupSecret y.dcgka rng1
        (recipientsWithout env y removed) =
        (.ok (dcgka, GroupMessage.directMessages message, rng') :
          Outcome (EncryptionDcgkaError ID) _) ∧
      y' = { y with
        dcgka := dcgka
        secrets := SecretBundle.insert c env.secrets y.secrets groupSecret } := by
  unfold EncryptionGroup.remove at h
  split at h
  · cases h
  · obtain ⟨⟨groupSecret, rng1⟩, hgen, h⟩ := bind_eq_ok.mp h
    obtain ⟨⟨dcgka, pre, rng2⟩, hrm, h⟩ := bind_eq_ok.mp h
    obtain ⟨⟨y1, message'⟩, hloc, h⟩ := bind_eq_ok.mp h
    cases h
    obtain ⟨members, hmbrs, hrm⟩ := bind_eq_ok.mp (mapErr_eq_ok.mp hrm)
    cases hmbrs
    obtain ⟨⟨dcgka', directMessages, rng3⟩, hsend, hrm⟩ := bind_eq_ok.mp hrm
    cases hrm
    cases hloc
    exact ⟨groupSecret, rng1, dcgka, mapErr_eq_ok.mp hgen, hsend, rfl⟩

theorem add_eq_ok {added : ID}
    (h : EncryptionGroup.add checks c codec env y added rng =
      (.ok (y', message, rng') : EncryptionOutcome ID _)) :
    ∃ bytes ciphertext dcgka, Dcgka.encryptTo checks c codec env y.dcgka added bytes rng =
        (.ok (dcgka, ciphertext, rng') : Outcome (EncryptionDcgkaError ID) _) ∧
      GroupMessage.directMessages message = [⟨added, .welcome ciphertext dcgka.dgm⟩] ∧
      y' = { y with dcgka := dcgka } := by
  unfold EncryptionGroup.add at h
  split at h
  · cases h
  · split at h
    · cases h
    · obtain ⟨⟨dcgka, pre, rng1⟩, hadd, h⟩ := bind_eq_ok.mp h
      obtain ⟨⟨y1, message'⟩, hloc, h⟩ := bind_eq_ok.mp h
      cases h
      obtain ⟨bytes, -, hadd⟩ := bind_eq_ok.mp (mapErr_eq_ok.mp hadd)
      obtain ⟨⟨dcgka', ciphertext, rng2⟩, henc, hadd⟩ := bind_eq_ok.mp hadd
      cases hadd
      obtain ⟨⟨orderer, message''⟩, hnext, hloc⟩ := bind_eq_ok.mp hloc
      cases hnext
      obtain ⟨result, hproc, hloc⟩ := bind_eq_ok.mp hloc
      obtain ⟨dgm, hdgm, hproc⟩ := bind_eq_ok.mp (mapErr_eq_ok.mp hproc)
      cases hdgm
      dsimp only at hproc
      split at hproc <;> cases hproc
      cases hloc
      exact ⟨bytes, ciphertext, dcgka, henc, rfl, rfl⟩

theorem recipients_remove (h : EncryptionGroup.remove checks c codec env y removed rng =
      (.ok (y', message, rng') : EncryptionOutcome ID _)) :
    (GroupMessage.directMessages message).map DirectMessage.recipient =
      recipientsWithout env y removed := by
  obtain ⟨groupSecret, rng1, dcgka, -, hsend, -⟩ := remove_eq_ok h
  rw [(Dcgka.sendGroupSecret_eq_ok hsend).2, filter_eq_self]
  intro id hid
  exact decide_eq_true (mem_recipientsWithout.mp hid).2.1

theorem dgm_remove (h : EncryptionGroup.remove checks c codec env y removed rng =
      (.ok (y', message, rng') : EncryptionOutcome ID _)) :
    y'.dcgka.dgm = y.dcgka.dgm := by
  obtain ⟨groupSecret, rng1, dcgka, -, hsend, rfl⟩ := remove_eq_ok h
  exact (Dcgka.sendGroupSecret_eq_ok hsend).1.1

end Operations

/-! ## Operations for some members -/

section ChangeAll

variable {platform : Platform ID} {env : Nat → DataScheme.Surroundings ID}
  {n : Nat} {y y' : EncryptionGroupState ID OP} {rng : Rng} {members : List ID}
  {directMessages : List (EncryptionDirectMessage ID)}

def addMember (platform : Platform ID) : Space.MemberOperation ID OP := fun env y added rng =>
  EncryptionGroup.add platform.checks platform.primitives platform.codec env y added rng

def removeMember (platform : Platform ID) : Space.MemberOperation ID OP := fun env y removed rng =>
  EncryptionGroup.remove platform.checks platform.primitives platform.codec env y removed rng

theorem changeAll_addMember
    (h : Space.changeAll (addMember platform) env n y rng members = .ok (y', directMessages)) :
    directMessages.map DirectMessage.recipient = members := by
  induction members generalizing n y rng directMessages with
  | nil =>
    cases h
    rfl
  | cons added members ih =>
    obtain ⟨⟨y1, message, rng1⟩, hadd, h⟩ := bind_eq_ok.mp h
    obtain ⟨⟨y2, directMessages'⟩, hrest, h⟩ := bind_eq_ok.mp h
    cases h
    obtain ⟨bytes, ciphertext, dcgka, -, hmsgs, -⟩ := add_eq_ok hadd
    rw [map_append, hmsgs, ih hrest]
    rfl

theorem recipient_changeAll_removeMember
    (h : Space.changeAll (removeMember platform) env n y rng members = .ok (y', directMessages))
    {dm : EncryptionDirectMessage ID} (hdm : dm ∈ directMessages) :
    dm.recipient ∈ y.dcgka.dgm.members := by
  induction members generalizing n y rng directMessages with
  | nil =>
    cases h
    cases hdm
  | cons removed members ih =>
    obtain ⟨⟨y1, message, rng1⟩, hrm, h⟩ := bind_eq_ok.mp h
    obtain ⟨⟨y2, directMessages'⟩, hrest, h⟩ := bind_eq_ok.mp h
    cases h
    cases mem_append.mp hdm with
    | inl hdm =>
      have hmem := mem_map_of_mem (f := DirectMessage.recipient) hdm
      rw [recipients_remove hrm] at hmem
      exact (mem_recipientsWithout.mp hmem).1
    | inr hdm =>
      rw [← dgm_remove hrm]
      exact ih hrest hdm

theorem exists_changeAll_removeMember
    (h : Space.changeAll (removeMember platform) env n y rng members = .ok (y', directMessages))
    (hne : members ≠ []) {id : ID} (hid : id ∈ y.dcgka.dgm.members) (hme : id ≠ y.dcgka.myId)
    (hoth : id ∉ members) : ∃ dm ∈ directMessages, dm.recipient = id := by
  cases members with
  | nil => exact absurd rfl hne
  | cons removed members =>
    obtain ⟨⟨y1, message, rng1⟩, hrm, h⟩ := bind_eq_ok.mp h
    obtain ⟨⟨y2, directMessages'⟩, -, h⟩ := bind_eq_ok.mp h
    cases h
    have hmem : id ∈ recipientsWithout (env n) y removed :=
      mem_recipientsWithout.mpr ⟨hid, hme, fun heq => hoth (heq ▸ mem_cons_self)⟩
    rw [← recipients_remove hrm] at hmem
    obtain ⟨dm, hdm, heq⟩ := mem_map.mp hmem
    exact ⟨dm, mem_append_left _ hdm, heq⟩

variable (platform env) in
def generatedBy : Nat → EncryptionGroupState ID OP → Rng → List ID → List GroupSecret
  | _, _, _, [] => []
  | n, y, rng, removed :: members =>
    match SecretBundle.generate platform.checks (env n).now y.secrets rng,
      removeMember platform (env n) y removed rng with
    | .ok (groupSecret, _), .ok (y, _, rng) => groupSecret :: generatedBy (n + 1) y rng members
    | _, _ => []

structure Fresh (c : DataPrimitives) (secrets : SecretBundleState)
    (generated : List GroupSecret) : Prop where
  nodup : (generated.map (GroupSecret.id c)).Nodup
  unknown : ∀ s ∈ generated, secrets.contains (s.id c) = false

theorem Fresh.tail {c : DataPrimitives} {order : HashOrder GroupSecretId}
    {secrets : SecretBundleState} {s : GroupSecret} {generated : List GroupSecret}
    (h : Fresh c secrets (s :: generated)) :
    Fresh c (SecretBundle.insert c order secrets s) generated where
  nodup := h.nodup.of_cons
  unknown := by
    intro s' hs'
    have hne : s'.id c ≠ s.id c := by
      intro heq
      apply (nodup_cons.mp h.nodup).1
      exact heq ▸ mem_map_of_mem hs'
    have hlook : (SecretBundle.insert c order secrets s).secrets.lookup (s'.id c) =
        secrets.secrets.lookup (s'.id c) := Finmap.lookup_insert_of_ne _ hne
    rw [SecretBundleState.contains, hlook]
    exact h.unknown s' (mem_cons_of_mem _ hs')

/-- If timestamps have run out, the latest secret stays. Otherwise it is one of those made. -/
theorem latest_generatedBy
    (h : Space.changeAll (removeMember platform) env n y rng members = .ok (y', directMessages))
    (hfresh : platform.checks = false →
      Fresh platform.primitives y.secrets (generatedBy platform env n y rng members)) :
    (y.secrets.latestTimestamp.toNat + 1 = 2 ^ 64 → y'.secrets.latest = y.secrets.latest ∧
        ∀ s ∈ generatedBy platform env n y rng members, s.timestamp = 0) ∧
      (y.secrets.latestTimestamp.toNat + 1 < 2 ^ 64 → members ≠ [] →
        ∃ s ∈ generatedBy platform env n y rng members, y'.secrets.latest = some s) := by
  induction members generalizing n y rng directMessages with
  | nil =>
    cases h
    exact ⟨fun _ => ⟨rfl, by simp [generatedBy]⟩, fun _ hne => absurd rfl hne⟩
  | cons removed members ih =>
    obtain ⟨⟨y1, message, rng2⟩, hrm, h⟩ := bind_eq_ok.mp h
    obtain ⟨⟨y2, directMessages'⟩, hrest, h⟩ := bind_eq_ok.mp h
    cases h
    obtain ⟨groupSecret, rng1, dcgka, hgen, -, hy1⟩ := remove_eq_ok hrm
    have hsecs : y1.secrets =
        SecretBundle.insert platform.primitives (env n).secrets y.secrets groupSecret :=
      congrArg _ hy1
    have hlog : generatedBy platform env n y rng (removed :: members) =
        groupSecret :: generatedBy platform env (n + 1) y1 rng2 members := by
      rw [generatedBy, hgen, hrm]
    rw [hlog] at hfresh ⊢
    have hstep := SecretBundle.latest_generate platform.primitives (env n).secrets hgen
      fun hchk => (hfresh hchk).unknown _ mem_cons_self
    rw [← hsecs] at hstep
    obtain ⟨hfull1, hroom1⟩ := ih hrest fun hchk => by
      rw [hsecs]
      exact (hfresh hchk).tail
    rcases hstep with ⟨hroom, hlat⟩ | ⟨hfull, hzero, hlat⟩
    · refine ⟨fun hfull => by omega, fun _ _ => ?_⟩
      cases members with
      | nil =>
        cases hrest
        exact ⟨groupSecret, mem_cons_self, hlat⟩
      | cons removed' members =>
        by_cases hroom' : y1.secrets.latestTimestamp.toNat + 1 < 2 ^ 64
        · obtain ⟨s, hs, hlatest'⟩ := hroom1 hroom' (cons_ne_nil _ _)
          exact ⟨s, mem_cons_of_mem _ hs, hlatest'⟩
        · -- the secret of this removal stays the latest one
          have hbound := y1.secrets.latestTimestamp.toNat_lt
          exact ⟨groupSecret, mem_cons_self, (hfull1 (by omega)).1.trans hlat⟩
    · refine ⟨fun _ => ?_, fun hroom => by omega⟩
      rw [SecretBundleState.latestTimestamp, hlat] at hfull1
      obtain ⟨hlatest', hall⟩ := hfull1 hfull
      exact ⟨hlatest', forall_mem_cons.mpr ⟨hzero, hall⟩⟩

end ChangeAll

/-! ## Applying a change to a space -/

def isRemoval : GroupAction ID C → Bool
  | .remove _ => true
  | .demote _ _ => true
  | _ => false

def isAddition : GroupAction ID C → Bool
  | .add _ _ => true
  | .promote _ _ => true
  | _ => false

omit [LinearOrder ID] in
theorem isRemoval_of_isAddition (h : isAddition action = true) : isRemoval action = false := by
  cases action with
  | remove member => cases h
  | demote member access => cases h
  | _ => rfl

def SpacesMessage.directMessages (message : SpacesMessage ID OP C) :
    List (EncryptionDirectMessage ID) :=
  match message.args with
  | .spaceMembership _ _ _ _ directMessages => directMessages
  | _ => []

section Published

variable [Conditions C] {platform : Platform ID} {env : Surroundings ID OP C φ}
  {manager : Manager ID OP C} {y y' : SpacesState ID OP C} {authMessage : AuthMessage ID OP C}
  {message : SpacesMessage ID OP C} {events : List (Event ID OP C)}
  {currentMembers nextMembers : List ID}

/-- The steps of applying a change to a space and publishing a pointer. -/
structure Published (platform : Platform ID) (env : Surroundings ID OP C φ)
    (manager : Manager ID OP C) (y : SpacesState ID OP C) (authMessage : AuthMessage ID OP C)
    (y' : SpacesState ID OP C) (message : SpacesMessage ID OP C) where
  currentMembers : List (ID × Access C)
  groupsY : AuthGroupState ID OP C
  nextMembers : List (ID × Access C)
  encryptionY : EncryptionGroupState ID OP
  directMessages : List (EncryptionDirectMessage ID)
  id : OP
  current : y.groupsY.members (env.auth 0) y.groupId =
    (.ok currentMembers : Outcome (SpaceError ID OP φ) _)
  processed : GroupCrdt.process (env.auth 1) y.groupsY authMessage = .ok groupsY
  next : groupsY.members (env.auth 2) y.groupId =
    (.ok nextMembers : Outcome (SpaceError ID OP φ) _)
  change : Space.changeSecretMembers platform env y authMessage.action
    (secretMembers currentMembers) (secretMembers nextMembers) = .ok (encryptionY, directMessages)
  state : y' = Space.addDependency env.order
    { y with groupsY := groupsY, encryptionY := encryptionY } id encryptionY.orderer.heads
  message_eq : message = ⟨id, manager.actorId, .spaceMembership y.spaceId y.groupId
    encryptionY.orderer.heads authMessage.id directMessages⟩

theorem nonempty_published
    (h : Space.processAuthMessage platform env manager y authMessage = .ok (y', message, events)) :
    Nonempty (Published platform env manager y authMessage y' message) := by
  obtain ⟨currentMembers, hcur, h⟩ := bind_eq_ok.mp h
  obtain ⟨groupsY, hproc, h⟩ := bind_eq_ok.mp h
  obtain ⟨nextMembers, hnext, h⟩ := bind_eq_ok.mp h
  obtain ⟨currentAncestors, -, h⟩ := bind_eq_ok.mp h
  obtain ⟨⟨encryptionY, directMessages⟩, hchg, h⟩ := bind_eq_ok.mp h
  obtain ⟨spaceMessage, hforge, h⟩ := bind_eq_ok.mp h
  obtain ⟨membership, -, h⟩ := bind_eq_ok.mp h
  obtain ⟨spaceEvents, -, h⟩ := bind_eq_ok.mp h
  cases h
  obtain ⟨id, -, hforge⟩ := bind_eq_ok.mp (mapErr_eq_ok.mp hforge)
  cases hforge
  exact ⟨currentMembers, groupsY, nextMembers, encryptionY, directMessages, id, hcur,
    mapErr_eq_ok.mp hproc, hnext, hchg, rfl, rfl⟩

theorem Published.groupsY_eq (h : Published platform env manager y authMessage y' message) :
    y'.groupsY = h.groupsY :=
  congrArg SpacesState.groupsY h.state

theorem Published.directMessages_eq (h : Published platform env manager y authMessage y' message) :
    message.directMessages = h.directMessages :=
  congrArg SpacesMessage.directMessages h.message_eq

theorem Published.secrets_eq (h : Published platform env manager y authMessage y' message) :
    y'.encryptionY.secrets = h.encryptionY.secrets :=
  congrArg (fun y => y.encryptionY.secrets) h.state

omit [Conditions C] in
theorem changeSecretMembers_cases {encryptionY : EncryptionGroupState ID OP}
    {directMessages : List (EncryptionDirectMessage ID)}
    (h : Space.changeSecretMembers platform env y action currentMembers nextMembers =
      .ok (encryptionY, directMessages)) :
    (currentMembers = nextMembers ∧ encryptionY = y.encryptionY ∧ directMessages = []) ∨
      (isAddition action = true ∧ Space.changeAll (addMember platform) env.encryption 0
        (withMembers y.encryptionY nextMembers) env.rng
        (addedSecretMembers currentMembers nextMembers) = .ok (encryptionY, directMessages)) ∨
      (isRemoval action = true ∧ Space.changeAll (removeMember platform) env.encryption 0
        (withMembers y.encryptionY nextMembers) env.rng
        (removedSecretMembers currentMembers nextMembers) = .ok (encryptionY, directMessages)) ∨
      ∃ message rng, action.isCreate = true ∧ EncryptionGroup.create platform.checks
          platform.primitives platform.codec (env.encryption 0)
          (withMembers y.encryptionY nextMembers) nextMembers env.rng =
          (.ok (encryptionY, message, rng) : EncryptionOutcome ID _) ∧
        directMessages = GroupMessage.directMessages message := by
  unfold Space.changeSecretMembers at h
  split at h
  · have h := mapErr_eq_ok.mp h
    right
    cases action with
    | create initialMembers =>
      obtain ⟨⟨encryptionY', message, rng⟩, hcrt, h⟩ := bind_eq_ok.mp h
      cases h
      exact Or.inr (Or.inr ⟨message, rng, rfl, hcrt, rfl⟩)
    | add member access => exact Or.inl ⟨rfl, h⟩
    | promote member access => exact Or.inl ⟨rfl, h⟩
    | remove member => exact Or.inr (Or.inl ⟨rfl, h⟩)
    | demote member access => exact Or.inr (Or.inl ⟨rfl, h⟩)
  · rename_i heq
    cases h
    exact Or.inl ⟨not_not.mp heq, rfl, rfl⟩

theorem create_ne_ok {checks : Bool} {c : DataPrimitives} {codec : SecretCodec}
    {env : DataScheme.Surroundings ID} {y y' : EncryptionGroupState ID OP} {members : List ID}
    {rng rng' : Rng} {message : EncryptionMessage ID OP} (hweld : y.isWelcomed = true) :
    EncryptionGroup.create checks c codec env y members rng ≠
      (.ok (y', message, rng') : EncryptionOutcome ID _) := by
  unfold EncryptionGroup.create
  rw [if_pos hweld]
  exact nofun

/-! ## Who is cut off -/

def generatedOn (platform : Platform ID) (env : Surroundings ID OP C φ) (y : SpacesState ID OP C)
    (action : GroupAction ID C) (currentMembers nextMembers : List ID) : List GroupSecret :=
  if isRemoval action then
    generatedBy platform env.encryption 0 (withMembers y.encryptionY nextMembers) env.rng
      (removedSecretMembers currentMembers nextMembers)
  else []

/-- A member before the change is none after it. -/
def SomebodyLost (currentMembers nextMembers : List ID) : Prop :=
  ∃ id ∈ currentMembers, id ∉ nextMembers

/-- The latest secret has been made in this call, and only members after it are sent anything. -/
def CutsOff (generated : List GroupSecret) (secrets : SecretBundleState)
    (directMessages : List (EncryptionDirectMessage ID)) (nextMembers : List ID) : Prop :=
  (∃ s ∈ generated, secrets.latest = some s) ∧ ∀ dm ∈ directMessages, dm.recipient ∈ nextMembers

omit [Placeholders ID OP] [DecidableEq OP] in
theorem removedSecretMembers_ne_nil :
    removedSecretMembers currentMembers nextMembers ≠ [] ↔
      SomebodyLost currentMembers nextMembers := by
  rw [← length_pos_iff, length_pos_iff_exists_mem]
  simp [SomebodyLost]

/-- Whoever loses access is cut off exactly if the change is a removal or demotion and timestamps
have not run out. -/
theorem cutsOff_iff (hwelcomed : y.encryptionY.isWelcomed = true)
    (h : Space.processAuthMessage platform env manager y authMessage = .ok (y', message, events))
    {currentMembers nextMembers : List (ID × Access C)}
    (hcurrent : y.groupsY.members (env.auth 0) y.groupId =
      (.ok currentMembers : Outcome (SpaceError ID OP φ) _))
    (hnext : y'.groupsY.members (env.auth 2) y.groupId =
      (.ok nextMembers : Outcome (SpaceError ID OP φ) _))
    (hfresh : platform.checks = false → Fresh platform.primitives y.encryptionY.secrets
      (generatedOn platform env y authMessage.action (secretMembers currentMembers)
        (secretMembers nextMembers))) :
    (SomebodyLost (secretMembers currentMembers) (secretMembers nextMembers) →
        CutsOff (generatedOn platform env y authMessage.action (secretMembers currentMembers)
          (secretMembers nextMembers)) y'.encryptionY.secrets message.directMessages
          (secretMembers nextMembers)) ↔
      (SomebodyLost (secretMembers currentMembers) (secretMembers nextMembers) →
        isRemoval authMessage.action = true ∧
          y.encryptionY.secrets.latestTimestamp.toNat + 1 < 2 ^ 64) := by
  obtain ⟨hpub⟩ := nonempty_published h
  cases hcurrent.symm.trans hpub.current
  rw [hpub.groupsY_eq] at hnext
  cases hnext.symm.trans hpub.next
  rw [hpub.secrets_eq, hpub.directMessages_eq]
  apply imp_congr_right
  intro hlost
  obtain ⟨heq, -, -⟩ | ⟨hadd, hall⟩ | ⟨hrm, hall⟩ | ⟨_, _, -, hcrt, -⟩ :=
    changeSecretMembers_cases hpub.change
  · obtain ⟨id, hid, hnot⟩ := hlost
    exact absurd (heq ▸ hid) hnot
  · simp [CutsOff, generatedOn, isRemoval_of_isAddition hadd]
  · rw [generatedOn, if_pos hrm] at hfresh ⊢
    constructor
    · rintro ⟨⟨s, hs, hlat⟩, -⟩
      refine ⟨hrm, ?_⟩
      by_contra hroom
      have hbound := y.encryptionY.secrets.latestTimestamp.toNat_lt
      have hfull : y.encryptionY.secrets.latestTimestamp.toNat + 1 = 2 ^ 64 := by omega
      obtain ⟨hsame, hzero⟩ := (latest_generatedBy hall hfresh).1 hfull
      -- the latest secret has the highest timestamp, and the new ones have the lowest
      have hlat : y.encryptionY.secrets.latest = some s := hsame.symm.trans hlat
      rw [SecretBundleState.latestTimestamp, hlat] at hfull
      have hzero : s.timestamp.toNat = 0 := congrArg UInt64.toNat (hzero s hs)
      have hfull : s.timestamp.toNat + 1 = 2 ^ 64 := hfull
      omega
    · intro hcond
      refine ⟨(latest_generatedBy hall hfresh).2 hcond.2
        (removedSecretMembers_ne_nil.mpr hlost), ?_⟩
      intro dm hdm
      exact recipient_changeAll_removeMember hall hdm
  · exact absurd hcrt (create_ne_ok hwelcomed)

/-! ## Who is welcomed -/

/-- Everybody else who gains access is sent a message, unless the change is a removal or demotion
and nobody loses access. -/
theorem gained_are_sent_iff (hwelcomed : y.encryptionY.isWelcomed = true)
    (h : Space.processAuthMessage platform env manager y authMessage = .ok (y', message, events))
    {currentMembers nextMembers : List (ID × Access C)}
    (hcurrent : y.groupsY.members (env.auth 0) y.groupId =
      (.ok currentMembers : Outcome (SpaceError ID OP φ) _))
    (hnext : y'.groupsY.members (env.auth 2) y.groupId =
      (.ok nextMembers : Outcome (SpaceError ID OP φ) _)) :
    (∀ id ∈ secretMembers nextMembers, id ∉ secretMembers currentMembers →
        id ≠ y.encryptionY.dcgka.myId → ∃ dm ∈ message.directMessages, dm.recipient = id) ↔
      (isRemoval authMessage.action = true →
        ¬SomebodyLost (secretMembers currentMembers) (secretMembers nextMembers) →
        ∀ id ∈ secretMembers nextMembers, id ≠ y.encryptionY.dcgka.myId →
          id ∈ secretMembers currentMembers) := by
  obtain ⟨hpub⟩ := nonempty_published h
  cases hcurrent.symm.trans hpub.current
  rw [hpub.groupsY_eq] at hnext
  cases hnext.symm.trans hpub.next
  rw [hpub.directMessages_eq]
  obtain ⟨heq, -, -⟩ | ⟨hadd, hall⟩ | ⟨hrm, hall⟩ | ⟨_, _, -, hcrt, -⟩ :=
    changeSecretMembers_cases hpub.change
  · rw [heq]
    constructor
    · intro _ _ _ id hid _
      exact hid
    · intro _ id hid hnot
      exact absurd hid hnot
  · constructor
    · intro _ hrm
      rw [isRemoval_of_isAddition hadd] at hrm
      cases hrm
    · intro _ id hid hnot _
      have hmem : id ∈ addedSecretMembers (secretMembers hpub.currentMembers)
          (secretMembers hpub.nextMembers) := mem_addedSecretMembers.mpr ⟨hid, hnot⟩
      rw [← changeAll_addMember hall] at hmem
      exact mem_map.mp hmem
  · constructor
    · intro hsent _ hkept id hid hme
      have hnone : removedSecretMembers (secretMembers hpub.currentMembers)
          (secretMembers hpub.nextMembers) = [] :=
        not_not.mp (mt removedSecretMembers_ne_nil.mp hkept)
      rw [hnone] at hall
      by_contra hnot
      obtain ⟨dm, hdm, -⟩ := hsent id hid hnot hme
      rw [← (Prod.mk.inj (Outcome.ok.inj hall)).2] at hdm
      cases hdm
    · intro hcond id hid hnot hme
      by_cases hlost : SomebodyLost (secretMembers hpub.currentMembers)
          (secretMembers hpub.nextMembers)
      · apply exists_changeAll_removeMember hall (removedSecretMembers_ne_nil.mpr hlost) hid hme
        intro hrmd
        exact (mem_removedSecretMembers.mp hrmd).2 hid
      · exact absurd (hcond hrm hlost id hid hme) hnot
  · exact absurd hcrt (create_ne_ok hwelcomed)

end Published

/-! ## Concurrent changes -/

section Sample

def sampleFounder (operations : List (Operation Nat Nat Unit)) : SpacesState Nat Nat Unit :=
  .assembleFromStore { sampleSpace with myId := 0, groupsY := sampleGroups operations }
    (TwoParty.sampleManager .alice) sampleKeyRegistry

def sampleCreation : Operation Nat Nat Unit :=
  ⟨1, 0, [], 50, .create [(.individual 0, .manage), (.individual 1, .manage),
    (.individual 3, .read)]⟩

def sampleFounding : SpacesStoreState Nat Nat Unit :=
  { sampleSpace with myId := 0, groupsY := sampleGroups [sampleCreation] }

def sampleRemoval : AuthMessage Nat Nat Unit := ⟨2, 0, [1], 50, .remove (.individual 3)⟩

def sampleRemovalPointer : SpaceMembershipMessage Nat Nat := ⟨13, 1, 50, [], 2, []⟩

abbrev sampleMembers (y : SpacesState Nat Nat Unit) :
    Outcome (SpaceError Nat Nat Empty) (List (Nat × Access Unit)) :=
  y.groupsY.members .reference 50

/-- The first member points at an operation, which changes the members of the space. -/
theorem processAuthMessage_sampleFounder (env : Surroundings Nat Nat Unit Empty)
    (P : SpacesMessage Nat Nat Unit → Prop) (operations : List (Operation Nat Nat Unit))
    (operation : Operation Nat Nat Unit) (current next : List Nat)
    (hcur : (sampleMembers (sampleFounder operations)).Returns fun members =>
      secretMembers members = current)
    (hret : (Space.processAuthMessage samplePlatform env (sampleSpaceManager 0 sampleSpace)
      (sampleFounder operations) operation).Returns fun result => P result.2.1 ∧
        (sampleMembers result.1).Returns fun members => secretMembers members = next) :
    ∃ y' message events currentMembers nextMembers,
      Space.processAuthMessage samplePlatform env (sampleSpaceManager 0 sampleSpace)
        (sampleFounder operations) operation = .ok (y', message, events) ∧
      sampleMembers (sampleFounder operations) = .ok currentMembers ∧
      sampleMembers y' = .ok nextMembers ∧
      secretMembers currentMembers = current ∧ secretMembers nextMembers = next ∧ P message := by
  obtain ⟨currentMembers, hmbrs, hcur⟩ := hcur
  obtain ⟨⟨y', message, events⟩, hok, hmsg, nextMembers, hmembers', hnext⟩ := hret
  exact ⟨y', message, events, currentMembers, nextMembers, hok, hmbrs, hmembers', hcur, hnext, hmsg⟩

/-- The other manager removes the reader, who is cut off. -/
theorem cutsOff_sampleRemoval : ∃ y' message events currentMembers nextMembers,
    Space.processAuthMessage samplePlatform sampleEnv (sampleSpaceManager 0 sampleSpace)
      (sampleFounder [sampleCreation]) ⟨2, 1, [1], 50, .remove (.individual 3)⟩ =
        .ok (y', message, events) ∧
    (sampleFounder [sampleCreation]).groupsY.members .reference 50 =
      (.ok currentMembers : Outcome (SpaceError Nat Nat Empty) _) ∧
    y'.groupsY.members .reference 50 =
      (.ok nextMembers : Outcome (SpaceError Nat Nat Empty) _) ∧
    SomebodyLost (secretMembers currentMembers) (secretMembers nextMembers) ∧
    CutsOff (generatedOn samplePlatform sampleEnv (sampleFounder [sampleCreation])
      (.remove (.individual 3)) (secretMembers currentMembers) (secretMembers nextMembers))
      y'.encryptionY.secrets message.directMessages (secretMembers nextMembers) := by
  obtain ⟨y', message, events, currentMembers, nextMembers, hok, hcur, hnext, hbef, hafter, -⟩ :=
    processAuthMessage_sampleFounder sampleEnv (fun _ => True) [sampleCreation]
      ⟨2, 1, [1], 50, .remove (.individual 3)⟩ [0, 1, 3] [0, 1] (by decide +kernel)
      (by decide +kernel)
  have hlost : SomebodyLost (secretMembers currentMembers) (secretMembers nextMembers) :=
    ⟨3, by rw [hbef]; decide, by rw [hafter]; decide⟩
  refine ⟨y', message, events, currentMembers, nextMembers, hok, hcur, hnext, hlost, ?_⟩
  apply (cutsOff_iff rfl hok hcur hnext (by intro h; cases h)).mpr _ hlost
  intro _
  exact ⟨rfl, by decide +kernel⟩

/-- Two managers add somebody at the same time, and the lower access level is taken: they lose
access to the space by an addition, and no secret is made. -/
theorem lost_by_addition : ∃ y' message events currentMembers nextMembers,
    Space.processAuthMessage samplePlatform sampleEnv (sampleSpaceManager 0 sampleSpace)
      (sampleFounder [sampleCreation, ⟨2, 0, [1], 50, .add (.individual 2) .read⟩])
      ⟨3, 1, [1], 50, .add (.individual 2) .pull⟩ = .ok (y', message, events) ∧
    (sampleFounder [sampleCreation,
      ⟨2, 0, [1], 50, .add (.individual 2) .read⟩]).encryptionY.isWelcomed = true ∧
    (sampleFounder [sampleCreation,
      ⟨2, 0, [1], 50, .add (.individual 2) .read⟩]).groupsY.members .reference 50 =
      (.ok currentMembers : Outcome (SpaceError Nat Nat Empty) _) ∧
    y'.groupsY.members .reference 50 =
      (.ok nextMembers : Outcome (SpaceError Nat Nat Empty) _) ∧
    SomebodyLost (secretMembers currentMembers) (secretMembers nextMembers) ∧
    ¬CutsOff (generatedOn samplePlatform sampleEnv (sampleFounder [sampleCreation,
      ⟨2, 0, [1], 50, .add (.individual 2) .read⟩]) (.add (.individual 2) .pull)
      (secretMembers currentMembers) (secretMembers nextMembers)) y'.encryptionY.secrets
      message.directMessages (secretMembers nextMembers) := by
  obtain ⟨y', message, events, currentMembers, nextMembers, hok, hcur, hnext, hbef, hafter,
      -⟩ := processAuthMessage_sampleFounder sampleEnv (fun _ => True)
    [sampleCreation, ⟨2, 0, [1], 50, .add (.individual 2) .read⟩]
    ⟨3, 1, [1], 50, .add (.individual 2) .pull⟩ [0, 1, 2, 3] [0, 1, 3]
    (by decide +kernel) (by decide +kernel)
  refine ⟨y', message, events, currentMembers, nextMembers, hok, rfl, hcur, hnext, ?_, ?_⟩
  · exact ⟨2, by rw [hbef]; decide, by rw [hafter]; decide⟩
  · rintro ⟨⟨s, hs, -⟩, -⟩
    cases hs

/-- The other manager adds somebody, who is sent the secrets. -/
theorem gained_are_sent_sampleAddition : ∃ y' message events currentMembers nextMembers,
    Space.processAuthMessage samplePlatform sampleEnv (sampleSpaceManager 0 sampleSpace)
      (sampleFounder [sampleCreation]) ⟨2, 1, [1], 50, .add (.individual 2) .read⟩ =
        .ok (y', message, events) ∧
    (sampleFounder [sampleCreation]).groupsY.members .reference 50 =
      (.ok currentMembers : Outcome (SpaceError Nat Nat Empty) _) ∧
    y'.groupsY.members .reference 50 =
      (.ok nextMembers : Outcome (SpaceError Nat Nat Empty) _) ∧
    ∀ id ∈ secretMembers nextMembers, id ∉ secretMembers currentMembers → id ≠ 0 →
      ∃ dm ∈ message.directMessages, dm.recipient = id := by
  obtain ⟨y', message, events, currentMembers, nextMembers, hok, hcur, hnext, -⟩ :=
    processAuthMessage_sampleFounder sampleEnv (fun _ => True) [sampleCreation]
      ⟨2, 1, [1], 50, .add (.individual 2) .read⟩ [0, 1, 3] [0, 1, 2, 3]
      (by decide +kernel) (by decide +kernel)
  refine ⟨y', message, events, currentMembers, nextMembers, hok, hcur, hnext, ?_⟩
  apply (gained_are_sent_iff rfl hok hcur hnext).mpr
  intro hrmv
  cases hrmv

/-- A demotion undoes a removal by the manager who is demoted at the same time: the reader is back
in the space, and is sent nothing. -/
theorem gained_by_demotion : ∃ y' message events currentMembers nextMembers,
    Space.processAuthMessage samplePlatform sampleEnv (sampleSpaceManager 0 sampleSpace)
      (sampleFounder [sampleCreation, ⟨2, 1, [1], 50, .remove (.individual 3)⟩])
      ⟨3, 0, [1], 50, .demote (.individual 1) .read⟩ = .ok (y', message, events) ∧
    (sampleFounder [sampleCreation,
      ⟨2, 1, [1], 50, .remove (.individual 3)⟩]).encryptionY.isWelcomed = true ∧
    (sampleFounder [sampleCreation,
      ⟨2, 1, [1], 50, .remove (.individual 3)⟩]).groupsY.members .reference 50 =
      (.ok currentMembers : Outcome (SpaceError Nat Nat Empty) _) ∧
    y'.groupsY.members .reference 50 =
      (.ok nextMembers : Outcome (SpaceError Nat Nat Empty) _) ∧
    3 ∈ secretMembers nextMembers ∧ 3 ∉ secretMembers currentMembers ∧
    ¬∃ dm ∈ message.directMessages, dm.recipient = 3 := by
  obtain ⟨y', message, events, currentMembers, nextMembers, hok, hcur, hnext, hbef, hafter,
      hnone⟩ := processAuthMessage_sampleFounder sampleEnv (·.directMessages = [])
    [sampleCreation, ⟨2, 1, [1], 50, .remove (.individual 3)⟩]
    ⟨3, 0, [1], 50, .demote (.individual 1) .read⟩ [0, 1] [0, 1, 3]
    (by decide +kernel) (by decide +kernel)
  refine ⟨y', message, events, currentMembers, nextMembers, hok, rfl, hcur, hnext, ?_, ?_, ?_⟩
  · rw [hafter]
    decide
  · rw [hbef]
    decide
  · rintro ⟨dm, hdm, -⟩
    rw [hnone] at hdm
    cases hdm

end Sample

end P2Panda.Spaces
