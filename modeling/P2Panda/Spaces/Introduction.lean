import P2Panda.Spaces.Joining

/-!
# Who introduces secrets

A pointer may be published by anybody who knows its auth message. What it carries for the local
actor goes through the key agreement into the bundle of the space.
-/

namespace P2Panda.Spaces

open P2Panda.Library Outcome P2Panda.Auth P2Panda.Auth.Group EncryptionOrdererState
open P2Panda.Encryption P2Panda.Encryption.DataScheme EncryptionGroup

variable {ID OP C φ : Type} [LinearOrder ID] [Placeholders ID OP]
  {message : EncryptionMessage ID OP}

/-! ## What is taken from messages -/

section Taken

variable (checks : Bool) (c : DataPrimitives) (codec : SecretCodec)
  (env : DataScheme.Surroundings ID)

/-- The senders of control messages, with what the key agreement takes from each. -/
def taken : EncryptionGroupState ID OP → List (EncryptionMessage ID OP) →
    List (ID × GroupSecretOutput)
  | _, [] => []
  | y, message :: messages =>
    match GroupMessage.content message with
    | .ok (.control controlMessage) =>
      match (Dcgka.process checks c codec env y.dcgka
        (EncryptionGroup.processInput y message controlMessage) :
        Outcome (EncryptionDcgkaError ID) _) with
      | .ok (dcgka, output) =>
        (GroupMessage.sender message, output) ::
          taken (afterControl c env y dcgka output) messages
      | _ => []
    | _ => taken y messages

variable {checks c codec env} {y y' : EncryptionGroupState ID OP}
  {messages : List (EncryptionMessage ID OP)} {outputs : List GroupOutput}

/-- What is in the bundle after some messages was in it before or taken from one of them. -/
theorem contains_processAll
    (h : processAll checks c codec env y messages = (.ok (y', outputs) : EncryptionOutcome ID _))
    {id : GroupSecretId} :
    y'.secrets.contains id = true ↔ y.secrets.contains id = true ∨
      ∃ entry ∈ taken checks c codec env y messages, entry.2.Carries c id := by
  induction messages generalizing y outputs with
  | nil =>
    cases h
    simp [taken]
  | cons message messages ih =>
    obtain ⟨⟨y1, output⟩, hrdy, h⟩ := bind_eq_ok.mp h
    obtain ⟨⟨y2, outputs'⟩, hall, h⟩ := bind_eq_ok.mp h
    cases h
    rw [ih hall, taken]
    obtain ⟨controlMessage, dcgka, learned, hcont, hproc, rfl⟩ | ⟨_, _, _, hcont, rfl⟩ :=
      processReady_eq_ok hrdy
    · rw [hcont]
      dsimp only
      rw [hproc, afterControl_secrets, contains_learn, or_assoc]
      simp
    · rw [hcont]

theorem taken_congr (hid : y.myId = y'.myId) (hdcgka : y.dcgka = y'.dcgka) :
    taken checks c codec env y messages = taken checks c codec env y' messages := by
  induction messages generalizing y y' with
  | nil => rfl
  | cons message messages ih =>
    have hinp (controlMessage : ControlMessage ID) : processInput y message controlMessage =
          processInput y' message controlMessage := by
      rw [processInput, processInput, hid]
    rw [taken, taken]
    split
    · rw [hdcgka, hinp]
      split
      · congr 1
        exact ih hid rfl
      · rfl
    · exact ih hid hdcgka

omit [Placeholders ID OP] in
/-- The key agreement takes nothing without a direct message. -/
theorem process_eq_none {dcgka dcgka' : EncryptionDcgkaState ID}
    {input : ProcessInput ID OP (EncryptionMembershipState ID)} {output : GroupSecretOutput}
    (h : Dcgka.process checks c codec env dcgka input =
      (.ok (dcgka', output) : Outcome (EncryptionDcgkaError ID) _))
    (hnone : input.directMessage = none) : output = .none := by
  obtain ⟨seq, sender, controlMessage, directMessage⟩ := input
  cases hnone
  cases controlMessage with
  | create initialMembers =>
    obtain ⟨dgm, -, h⟩ := bind_eq_ok.mp h
    cases h
    rfl
  | update =>
    cases h
    rfl
  | remove removed =>
    obtain ⟨dgm, -, h⟩ := bind_eq_ok.mp h
    cases h
    rfl
  | add added =>
    obtain ⟨dgm, -, h⟩ := bind_eq_ok.mp h
    dsimp only at h
    split_ifs at h
    cases h
    rfl

def EncryptionMessage.IsFor (me : ID) (message : EncryptionMessage ID OP) : Prop :=
  ∃ directMessage ∈ GroupMessage.directMessages message, directMessage.recipient = me

/-- What is taken comes from a message with a direct message for us. -/
theorem exists_of_mem_taken {entry : ID × GroupSecretOutput}
    (h : entry ∈ taken checks c codec env y messages) {id : GroupSecretId}
    (hcarries : entry.2.Carries c id) :
    ∃ message ∈ messages, entry.1 = GroupMessage.sender message ∧ message.IsFor y.myId := by
  induction messages generalizing y with
  | nil => cases h
  | cons message messages ih =>
    rw [taken] at h
    split at h
    · split at h
      · rename_i dcgka output hproc
        rcases List.mem_cons.mp h with rfl | h
        · refine ⟨message, .head _, rfl, ?_⟩
          by_contra hfor
          have hnone : (GroupMessage.directMessages message).find?
              (fun directMessage => directMessage.recipient = y.myId) = none := by
            simpa [EncryptionMessage.IsFor] using hfor
          rw [process_eq_none hproc hnone] at hcarries
          exact hcarries
        · obtain ⟨m, hm, hsender, hfor⟩ := ih h
          exact ⟨m, .tail _ hm, hsender, hfor⟩
      · cases h
    · obtain ⟨m, hm, hsender, hfor⟩ := ih h
      exact ⟨m, .tail _ hm, hsender, hfor⟩

end Taken

/-! ## What is processed when a message arrives -/

section Arrival

variable [DecidableEq OP]

def EncryptionOrdererState.waiting (y : EncryptionOrdererState ID OP) :
    List (EncryptionMessage ID OP) :=
  y.queue.filterMap y.messages.lookup

def EncryptionOrdererState.ready (y : EncryptionOrdererState ID OP) :
    List (EncryptionMessage ID OP) :=
  if y.isWelcomed then inOrder y.waiting else []

def EncryptionOrdererState.drained (y : EncryptionOrdererState ID OP) :
    EncryptionOrdererState ID OP :=
  if y.isWelcomed then { y with queue := [] } else y

def arrived (y : EncryptionGroupState ID OP) (message : EncryptionMessage ID OP)
    (content : GroupMessageContent ID) : EncryptionOrdererState ID OP :=
  let orderer := y.orderer.enqueue (GroupMessage.id message) message
  if !y.isWelcomed && EncryptionGroup.isCreateOrWelcome y content then
    { orderer with welcomeMessage := some message }
  else orderer

def joined (y : EncryptionGroupState ID OP) (content : GroupMessageContent ID) : Bool :=
  y.isWelcomed || EncryptionGroup.isCreateOrWelcome y content

def processedOn (y : EncryptionGroupState ID OP) (message : EncryptionMessage ID OP)
    (content : GroupMessageContent ID) : List (EncryptionMessage ID OP) :=
  if joined y content then (arrived y message content).ready else []

def ordererOn (y : EncryptionGroupState ID OP) (message : EncryptionMessage ID OP)
    (content : GroupMessageContent ID) : EncryptionOrdererState ID OP :=
  if joined y content then (arrived y message content).drained else arrived y message content

variable {checks : Bool} {c : DataPrimitives} {codec : SecretCodec}
  {env : DataScheme.Surroundings ID} {fuel : Nat} {y y' : EncryptionGroupState ID OP}
  {outputs : List GroupOutput}

omit [LinearOrder ID] [Placeholders ID OP] in
theorem EncryptionOrdererState.Waiting.eq_waiting {y : EncryptionOrdererState ID OP}
    {messages : List (EncryptionMessage ID OP)} (h : y.Waiting messages) :
    y.waiting = messages := by
  have hmap : y.waiting = (y.queue.map y.messages.lookup).filterMap id := by
    rw [List.filterMap_map]
    rfl
  rw [hmap, h, List.filterMap_map]
  exact List.filterMap_some

omit [LinearOrder ID] in
/-- If the queue can be collected, every id in it is of a forged message. -/
theorem waiting_of_collectReady {y : EncryptionOrdererState ID OP}
    {controlMessages applicationMessages : List (EncryptionMessage ID OP)}
    (hwel : y.welcomeMessage.isSome)
    (h : (collectReady fuel y controlMessages applicationMessages : EncryptionOutcome ID _).IsOk) :
    ∃ messages, y.Waiting messages ∧ (∀ m ∈ messages, m.isForged = true) ∧
      messages.length < fuel := by
  induction fuel generalizing y controlMessages applicationMessages with
  | zero => exact absurd h (not_isOk_panic _)
  | succ fuel ih =>
    rw [collectReady] at h
    cases hq : y.queue with
    | nil => exact ⟨[], by rw [Waiting, hq]; rfl, by simp, by simp⟩
    | cons id queue =>
      cases hlook : y.messages.lookup id with
      | none =>
        rw [nextReadyMessage_of_queue_cons hwel hq, hlook] at h
        exact absurd h (not_isOk_panic _)
      | some message =>
        rw [nextReadyMessage_of_queue_cons hwel hq, hlook] at h
        have hstep : message.isForged = true ∧ ∃ controlMessages applicationMessages,
            (collectReady fuel { y with queue := queue } controlMessages
              applicationMessages : EncryptionOutcome ID _).IsOk := by
          cases message with
          | args args => exact absurd h (not_isOk_panic _)
          | forged author operationId args =>
            cases args with
            | system dependencies controlMessage directMessages => exact ⟨rfl, _, _, h⟩
            | application dependencies groupSecretId nonce ciphertext =>
              exact ⟨rfl, _, _, h⟩
        obtain ⟨hforg, _, _, hrest⟩ := hstep
        obtain ⟨messages, hwait, hall, hlen⟩ := ih (by exact hwel) hrest
        refine ⟨message :: messages, ?_, ?_, Nat.succ_lt_succ hlen⟩
        · rw [Waiting, hq, List.map_cons, hlook]
          exact congrArg _ hwait
        · intro m hm
          cases hm with
          | head => exact hforg
          | tail _ hm => exact hall m hm

theorem processQueue_eq_ok
    (h : processQueue checks c codec env fuel y = (.ok (y', outputs) : EncryptionOutcome ID _)) :
    processAll checks c codec env { y with orderer := y.orderer.drained }
      y.orderer.ready = (.ok (y', outputs) : EncryptionOutcome ID _) := by
  rw [ready, drained]
  cases hwel : y.orderer.isWelcomed with
  | true =>
    obtain ⟨collected, hcollect, -⟩ := bind_eq_ok.mp h
    obtain ⟨messages, hwait, hforg, hlen⟩ := waiting_of_collectReady hwel ⟨collected, hcollect⟩
    rw [processQueue_eq hwel hwait hforg hlen] at h
    rw [hwait.eq_waiting]
    exact h
  | false =>
    have hnone : y.orderer.welcomeMessage = none := by
      rwa [← Option.not_isSome_iff_eq_none, Bool.not_eq_true]
    cases fuel with
    | zero => cases h
    | succ fuel =>
      rw [processQueue, collectReady, nextReadyMessage_of_not_welcomed hnone] at h
      exact h

/-- A message has arrived: everything in the queue has been processed, or nothing. -/
theorem receive_eq_ok
    (h : receive checks c codec env fuel y message = (.ok (y', outputs) : EncryptionOutcome ID _)) :
    ∃ content, GroupMessage.content message = .ok content ∧
      processAll checks c codec env
        { y with orderer := ordererOn y message content } (processedOn y message content) =
        (.ok (y', outputs) : EncryptionOutcome ID _) := by
  obtain ⟨content, hcont, h⟩ := bind_eq_ok.mp h
  refine ⟨content, mapErr_eq_ok.mp hcont, ?_⟩
  split at h
  · cases h
  · obtain ⟨orderer, hq, h⟩ := bind_eq_ok.mp h
    cases hq
    by_cases hweld : y.isWelcomed = true
    · rw [if_pos (by exact hweld)] at h
      simpa [ordererOn, processedOn, arrived, joined, hweld, enqueue] using processQueue_eq_ok h
    · rw [if_neg (by exact hweld)] at h
      by_cases hjoins : isCreateOrWelcome y content = true
      · rw [if_pos (by exact hjoins)] at h
        obtain ⟨orderer, hset, h⟩ := bind_eq_ok.mp h
        cases hset
        simpa [ordererOn, processedOn, arrived, joined, hweld, hjoins,
          enqueue] using processQueue_eq_ok h
      · rw [if_neg (by exact hjoins)] at h
        have hjoined : ¬joined y content = true := by simp [joined, hweld, hjoins]
        rw [ordererOn, processedOn, if_neg hjoined, if_neg hjoined, arrived,
          if_neg (by simp [hjoins])]
        exact h

omit [LinearOrder ID] [Placeholders ID OP] in
theorem mem_waiting_enqueue {y : EncryptionOrdererState ID OP} {id : OP}
    {m : EncryptionMessage ID OP} (h : m ∈ (y.enqueue id message).waiting) :
    m = message ∨ m ∈ y.waiting := by
  obtain ⟨id', hid', hlook⟩ := List.mem_filterMap.mp h
  have hlook : (y.messages.insert id message).lookup id' = some m := hlook
  rw [HashMap.lookup_insert_ite] at hlook
  split_ifs at hlook with heq
  · exact .inl (Option.some.inj hlook).symm
  · rcases List.mem_append.mp hid' with hid' | hid'
    · exact .inr (List.mem_filterMap.mpr ⟨id', hid', hlook⟩)
    · exact absurd (List.mem_singleton.mp hid') heq

theorem mem_processedOn {content : GroupMessageContent ID} {m : EncryptionMessage ID OP}
    (h : m ∈ processedOn y message content) : m = message ∨ m ∈ y.orderer.waiting := by
  unfold processedOn ready at h
  split_ifs at h
  · have hsame : (arrived y message content).waiting =
        (y.orderer.enqueue (GroupMessage.id message) message).waiting := by
      unfold arrived
      split_ifs <;> rfl
    rw [mem_inOrder, hsame] at h
    exact mem_waiting_enqueue h
  · cases h
  · cases h

theorem contains_receive {content : GroupMessageContent ID}
    (h : receive checks c codec env fuel y message = (.ok (y', outputs) : EncryptionOutcome ID _))
    (hcont : GroupMessage.content message = .ok content) {id : GroupSecretId} :
    y'.secrets.contains id = true ↔ y.secrets.contains id = true ∨
      ∃ entry ∈ taken checks c codec env y (processedOn y message content),
        entry.2.Carries c id := by
  obtain ⟨content', hcontent', hall⟩ := receive_eq_ok h
  cases hcont.symm.trans hcontent'
  have htaken : taken checks c codec env { y with orderer := ordererOn y message content }
      (processedOn y message content) =
        taken checks c codec env y (processedOn y message content) := taken_congr rfl rfl
  rw [contains_processAll hall, htaken]

end Arrival

/-! ## Pointers -/

section Pointers

variable [DecidableEq OP] [Conditions C] {platform : Platform ID} {env : Surroundings ID OP C φ}
  {manager : Manager ID OP C} {id : OP} {spaceMessage : SpaceMembershipMessage ID OP}
  {authMessage : AuthMessage ID OP C} {events : List (Event ID OP C)} {me : ID}
  {currentMembers nextMembers : List ID} {y y1 : SpacesState ID OP C}

def pointer (me : ID) (spaceMessage : SpaceMembershipMessage ID OP)
    (authMessage : AuthMessage ID OP C) (currentMembers nextMembers : List ID) :
    EncryptionMessage ID OP :=
  .forged spaceMessage.author spaceMessage.id (.system spaceMessage.spaceDependencies
    (EncryptionMessage.controlMessage me authMessage.action
      (spaceMessage.directMessages.any fun message => message.recipient = me)
      currentMembers nextMembers) spaceMessage.directMessages)

omit [Placeholders ID OP] [Conditions C] in
theorem fromMembership_eq_ok {ε : Type}
    (h : EncryptionMessage.fromMembership spaceMessage me authMessage currentMembers nextMembers =
      (.ok message : Outcome ε _)) :
    message = pointer me spaceMessage authMessage currentMembers nextMembers := by
  unfold EncryptionMessage.fromMembership at h
  split at h
  · cases h
  · cases h
    rfl

def withMembers (y : EncryptionGroupState ID OP) (members : List ID) : EncryptionGroupState ID OP :=
  { y with dcgka := { y.dcgka with dgm := ⟨members⟩ } }

/-- What is taken from a pointer, and from the messages which have waited for it. -/
def takenOn (platform : Platform ID) (env : DataScheme.Surroundings ID) (me : ID)
    (y : EncryptionGroupState ID OP) (spaceMessage : SpaceMembershipMessage ID OP)
    (authMessage : AuthMessage ID OP C) (currentMembers nextMembers : List ID) :
    List (ID × GroupSecretOutput) :=
  let message := pointer me spaceMessage authMessage currentMembers nextMembers
  if spaceMessage.directMessages.any fun message => message.recipient = me then
    taken platform.checks platform.primitives platform.codec env (withMembers y nextMembers)
      (processedOn (withMembers y nextMembers) message (.control
        (EncryptionMessage.controlMessage me authMessage.action true currentMembers nextMembers)))
  else []

structure Handled (platform : Platform ID) (env : Surroundings ID OP C φ) (me : ID)
    (y : SpacesState ID OP C) (spaceMessage : SpaceMembershipMessage ID OP)
    (authMessage : AuthMessage ID OP C) (y' : SpacesState ID OP C)
    (events : List (Event ID OP C)) where
  currentMembers : List (ID × Access C)
  currentAncestors : List ID
  groupsY : AuthGroupState ID OP C
  nextMembers : List (ID × Access C)
  received : SpacesState ID OP C
  applicationEvents : List (Event ID OP C)
  spaceEvents : List (SpaceEvent ID OP C)
  notSeen : y.encryptionY.orderer.hasSeen spaceMessage.id = false
  current : y.groupsY.members (env.auth 0) y.groupId =
    (.ok currentMembers : Outcome (SpaceError ID OP φ) _)
  ancestors : y.groupsY.ancestors (env.auth 1) y.groupId =
    (.ok currentAncestors : Outcome (SpaceError ID OP φ) _)
  processed : Space.processPointer env y authMessage = .ok groupsY
  next : groupsY.members (env.auth 3) y.groupId =
    (.ok nextMembers : Outcome (SpaceError ID OP φ) _)
  receive : Space.receiveMembership platform env me
    { y with
      groupsY := groupsY
      encryptionY := withMembers y.encryptionY (secretMembers nextMembers) }
    spaceMessage authMessage (secretMembers currentMembers) (secretMembers nextMembers) =
      .ok (received, applicationEvents)
  generate : Space.generateSpaceEvents (fun n => env.auth (n + 4)) me
    (Space.addDependency env.order received spaceMessage.id spaceMessage.spaceDependencies)
    authMessage spaceMessage currentMembers currentAncestors =
      (.ok spaceEvents : Outcome (SpaceError ID OP φ) _)
  state : y' =
    { Space.addDependency env.order received spaceMessage.id spaceMessage.spaceDependencies with
      removed := received.removed ∪ Space.removedBy currentMembers spaceEvents }
  events_eq : events = spaceEvents.map .spaces ++ applicationEvents

theorem nonempty_handled {y' : SpacesState ID OP C}
    (h : Space.handleMembershipMessage platform env manager id spaceMessage authMessage =
      .ok (some (y', events))) :
    Nonempty (Handled platform env manager.actorId
      (Space.getOrInitState platform manager id spaceMessage.groupId) spaceMessage authMessage y'
      events) := by
  dsimp only [Space.handleMembershipMessage] at h
  split at h
  · cases h
  · rename_i hseen
    obtain ⟨currentMembers, hcur, h⟩ := bind_eq_ok.mp h
    obtain ⟨currentAncestors, hanc, h⟩ := bind_eq_ok.mp h
    obtain ⟨groupsY, hgroups, h⟩ := bind_eq_ok.mp h
    obtain ⟨nextMembers, hnext, h⟩ := bind_eq_ok.mp h
    obtain ⟨⟨received, applicationEvents⟩, hrcv, h⟩ := bind_eq_ok.mp h
    obtain ⟨spaceEvents, hevs, h⟩ := bind_eq_ok.mp h
    cases h
    exact ⟨currentMembers, currentAncestors, groupsY, nextMembers, received, applicationEvents,
      spaceEvents, eq_false_of_ne_true hseen, hcur, hanc, hgroups, hnext, hrcv,
      hevs, rfl, rfl⟩

omit [Conditions C] in
theorem receiveMembership_eq_ok
    (h : Space.receiveMembership platform env me y spaceMessage authMessage currentMembers
      nextMembers = .ok (y1, events)) :
    ∃ encryptionY, y1 = { y with encryptionY := encryptionY } ∧
      if spaceMessage.directMessages.any fun message => message.recipient = me then
        ∃ outputs, receive platform.checks platform.primitives platform.codec
          (env.encryption 0) (Space.rounds y.encryptionY) y.encryptionY
          (pointer me spaceMessage authMessage currentMembers nextMembers) =
          (.ok (encryptionY, outputs) : EncryptionOutcome ID _)
      else encryptionY = y.encryptionY := by
  unfold Space.receiveMembership at h
  split_ifs at h with hmine
  · obtain ⟨message, hmsg, h⟩ := bind_eq_ok.mp h
    obtain rfl := fromMembership_eq_ok hmsg
    obtain ⟨⟨encryptionY, outputs⟩, hgrp, h⟩ := bind_eq_ok.mp h
    cases h
    refine ⟨encryptionY, rfl, ?_⟩
    rw [if_pos hmine]
    exact ⟨outputs, mapErr_eq_ok.mp hgrp⟩
  · cases h
    refine ⟨y.encryptionY, rfl, ?_⟩
    rw [if_neg hmine]

omit [Conditions C] in
theorem groupsY_receiveMembership
    (h : Space.receiveMembership platform env me y spaceMessage authMessage currentMembers
      nextMembers = .ok (y1, events)) : y1.groupsY = y.groupsY := by
  obtain ⟨encryptionY, rfl, -⟩ := receiveMembership_eq_ok h
  rfl

theorem Handled.groupsY_eq {y y' : SpacesState ID OP C}
    (h : Handled platform env me y spaceMessage authMessage y' events) :
    y'.groupsY = h.groupsY :=
  (congrArg SpacesState.groupsY h.state).trans (groupsY_receiveMembership h.receive)

/-- What is in the bundle of a space after a pointer was in it before or has been taken in this
call. -/
theorem Handled.contains_iff {y y' : SpacesState ID OP C}
    (h : Handled platform env me y spaceMessage authMessage y' events) {id : GroupSecretId} :
    y'.encryptionY.secrets.contains id = true ↔ y.encryptionY.secrets.contains id = true ∨
      ∃ entry ∈ takenOn platform (env.encryption 0) me y.encryptionY spaceMessage authMessage
        (secretMembers h.currentMembers) (secretMembers h.nextMembers),
        entry.2.Carries platform.primitives id := by
  have hsecs : y'.encryptionY.secrets = h.received.encryptionY.secrets :=
    congrArg (fun y => y.encryptionY.secrets) h.state
  obtain ⟨encryptionY, hrecv, hrcv⟩ := receiveMembership_eq_ok h.receive
  rw [hsecs, hrecv, takenOn]
  split_ifs at hrcv with hmine
  · obtain ⟨outputs, hgrp⟩ := hrcv
    rw [contains_receive hgrp rfl, hmine]
    rfl
  · rw [hrcv, if_neg hmine]
    simp [withMembers]

/-- Every new secret was sent by one of some members. -/
def IntroducedBy (c : DataPrimitives) (members : List ID) (log : List (ID × GroupSecretOutput))
    (before after : SecretBundleState) : Prop :=
  ∀ id, after.contains id = true → before.contains id = false →
    ∃ entry ∈ log, entry.2.Carries c id ∧ entry.1 ∈ members

/-- If a pointer has a direct message for us, it is from one of some members, and so is what waits
in the queue with a direct message for us. -/
def SentBy (members : List ID) (me : ID) (y : EncryptionGroupState ID OP)
    (spaceMessage : SpaceMembershipMessage ID OP) : Prop :=
  (∃ directMessage ∈ spaceMessage.directMessages, directMessage.recipient = me) →
    spaceMessage.author ∈ members ∧ ∀ message ∈ y.orderer.waiting, message.IsFor y.myId →
      GroupMessage.sender message ∈ members

omit [Conditions C] in
theorem SentBy.mem_of_takenOn {members : List ID} {y : EncryptionGroupState ID OP}
    (h : SentBy members me y spaceMessage) {entry : ID × GroupSecretOutput}
    (hentry : entry ∈ takenOn platform (env.encryption 0) me y spaceMessage authMessage
      currentMembers nextMembers) {id : GroupSecretId}
    (hcarries : entry.2.Carries platform.primitives id) : entry.1 ∈ members := by
  rw [takenOn] at hentry
  split_ifs at hentry with hmine
  · obtain ⟨hauthor, hwaiting⟩ := h (by simpa using hmine)
    obtain ⟨message, hmem, hsender, hfor⟩ := exists_of_mem_taken hentry hcarries
    rw [hsender]
    rcases mem_processedOn hmem with rfl | hmem
    · exact hauthor
    · exact hwaiting message hmem hfor
  · cases hentry

end Pointers

/-! ## A stranger -/

section Sample

open TwoParty

def samplePlatform : Platform Nat where
  checks := true
  primitives := sampleDataPrimitives
  codec := sampleSecretCodec
  encodeKeyBundle _ := some []
  asBytes _ := []
  verify _ _ _ := true
  verifyingKey _ := 50

def sampleEnv : Surroundings Nat Nat Unit Empty where
  auth _ := .reference
  encryption _ := sampleEncryptionEnv
  clock := some 5
  rng := ⟨false, List.replicate 800 9⟩
  forge n _ := .ok (n + 40)
  order := .increasing id Function.injective_id

def sampleGroups (operations : List (Operation Nat Nat Unit)) : AuthGroupState Nat Nat Unit :=
  match operations.foldlM (GroupCrdt.process .reference) .default with
  | .ok y => y
  | _ => .default

def sampleOperations : List (Operation Nat Nat Unit) :=
  [⟨1, 0, [], 50, .create [(.individual 0, .manage), (.individual 1, .read)]⟩,
    ⟨2, 0, [1], 50, .add (.individual 2) .read⟩]

def sampleSpace : SpacesStoreState Nat Nat Unit where
  myId := 1
  spaceId := 60
  groupId := 50
  groupsY := sampleGroups sampleOperations
  isWelcomed := true
  secrets := SecretBundle.fromSecrets sampleDataPrimitives sampleEncryptionEnv.secrets
    [⟨⟨Vector.replicate 32 8⟩, 5⟩]
  orderer := { EncryptionOrdererState.new with welcomeMessage := some sampleWelcome }
  twoParty := ∅
  removed := ∅

def sampleSpaceManager (me : Nat) (space : SpacesStoreState Nat Nat Unit) :
    Manager Nat Nat Unit where
  actorId := me
  identitySecret := sampleKey 3
  store := {
    groups := some space.groupsY
    spaces := (∅ : HashMap Nat (SpacesStoreState Nat Nat Unit)).insert space.spaceId space
    messages := ∅
    prekeySecrets := some (sampleManager .alice).prekeys
    keyRegistry := some sampleKeyRegistry }

def sampleDirectMessage : List (EncryptionDirectMessage Nat) :=
  match (Dcgka.add true sampleDataPrimitives sampleSecretCodec sampleEncryptionEnv
    (sampleMember 3).dcgka 1 (SecretBundle.fromSecrets sampleDataPrimitives
      sampleEncryptionEnv.secrets [⟨⟨Vector.replicate 32 7⟩, 6⟩]) ⟨false, List.replicate 400 7⟩ :
      Outcome (EncryptionDcgkaError Nat) _) with
  | .ok (_, output, _) => output.directMessages
  | _ => []

def samplePointer (author : Nat) : SpaceMembershipMessage Nat Nat :=
  ⟨13, author, 50, [], 2, sampleDirectMessage⟩

def sampleAddition : AuthMessage Nat Nat Unit := ⟨2, 0, [1], 50, .add (.individual 2) .read⟩

def sampleSpaceState : SpacesState Nat Nat Unit :=
  Space.getOrInitState samplePlatform (sampleSpaceManager 1 sampleSpace) 60 50

theorem members_sampleSpaceState : ∃ members, sampleSpaceState.groupsY.members .reference 50 =
    (.ok members : Outcome (SpaceError Nat Nat Empty) _) ∧ secretMembers members = [0, 1, 2] := by
  have hret : (sampleSpaceState.groupsY.members .reference 50 :
      Outcome (SpaceError Nat Nat Empty) _).Returns fun members =>
        secretMembers members = [0, 1, 2] := by
    decide +kernel
  exact hret

theorem processPointer_sampleSpaceState :
    Space.processPointer sampleEnv sampleSpaceState sampleAddition =
      .ok sampleSpaceState.groupsY := by
  have hprocd : (sampleSpaceState.groupsY.operations.lookup 2).isSome = true := by
    decide +kernel
  exact if_pos hprocd

theorem handle_samplePointer (author : Nat) (hauthor : author = 0 ∨ author = 3) : ∃ y' events,
    Space.handleMembershipMessage samplePlatform sampleEnv (sampleSpaceManager 1 sampleSpace) 60
      (samplePointer author) sampleAddition = .ok (some (y', events)) ∧
    y'.groupsY = sampleSpaceState.groupsY ∧
    y'.encryptionY.secrets.contains (Vector.replicate 32 7) = true := by
  have hret : ∀ author ∈ [0, 3], (Space.handleMembershipMessage samplePlatform sampleEnv
      (sampleSpaceManager 1 sampleSpace) 60 (samplePointer author) sampleAddition).Returns
      fun result => (result.any fun result =>
        result.1.encryptionY.secrets.contains (Vector.replicate 32 7)) = true := by
    decide +kernel
  obtain ⟨result, hok, hcontains⟩ := hret author (by simpa using hauthor)
  cases result with
  | none => cases hcontains
  | some result =>
    obtain ⟨hhdld⟩ := nonempty_handled hok
    have hgroups := hhdld.processed.symm.trans processPointer_sampleSpaceState
    exact ⟨result.1, result.2, hok, hhdld.groupsY_eq.trans (Outcome.ok.inj hgroups), hcontains⟩

end Sample

end P2Panda.Spaces
