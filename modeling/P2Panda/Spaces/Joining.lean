import P2Panda.Encryption.DataScheme.SecretBundle
import P2Panda.Spaces.Space

/-!
# Joining a space

What arrives before the local actor has been welcomed waits in a queue. The welcome processes all of
it in the same call: control messages first, then application messages.
-/

namespace P2Panda.Spaces

open P2Panda.Library Outcome P2Panda.Auth.Group List EncryptionOrdererState
open P2Panda.Encryption P2Panda.Encryption.DataScheme EncryptionGroup
open P2Panda.Core (Bytes)

variable {ID OP C φ : Type} {message : EncryptionMessage ID OP}
  {messages : List (EncryptionMessage ID OP)}

/-! ## The queue -/

namespace EncryptionMessage

def isControl : EncryptionMessage ID OP → Bool
  | .forged _ _ (.system ..) => true
  | _ => false

def isApplication : EncryptionMessage ID OP → Bool
  | .forged _ _ (.application ..) => true
  | _ => false

def isForged : EncryptionMessage ID OP → Bool
  | .forged .. => true
  | .args _ => false

theorem isForged_of_isApplication (h : message.isApplication = true) : message.isForged = true := by
  cases message with
  | args args => cases h
  | forged author operationId args => rfl

theorem isForged_of_isControl (h : message.isControl = true) : message.isForged = true := by
  cases message with
  | args args => cases h
  | forged author operationId args => rfl

theorem isControl_of_isApplication (h : message.isApplication = true) :
    message.isControl = false := by
  cases message with
  | args args => cases h
  | forged author operationId args =>
    cases args with
    | system dependencies controlMessage directMessages => cases h
    | application dependencies groupSecretId nonce ciphertext => rfl

end EncryptionMessage

namespace EncryptionOrdererState

variable [DecidableEq OP]

def Waiting (y : EncryptionOrdererState ID OP) (messages : List (EncryptionMessage ID OP)) :
    Prop :=
  y.queue.map y.messages.lookup = messages.map some

theorem Waiting.length {y : EncryptionOrdererState ID OP} (h : y.Waiting messages) :
    y.queue.length = messages.length := by
  have hlen := congrArg List.length h
  rwa [length_map, length_map] at hlen

def enqueue (y : EncryptionOrdererState ID OP) (id : OP) (message : EncryptionMessage ID OP) :
    EncryptionOrdererState ID OP :=
  { y with messages := y.messages.insert id message, queue := y.queue ++ [id] }

theorem Waiting.enqueue {y : EncryptionOrdererState ID OP} (h : y.Waiting messages) {id : OP}
    (hid : id ∉ y.queue) (message : EncryptionMessage ID OP) :
    (y.enqueue id message).Waiting (messages ++ [message]) := by
  have hold : y.queue.map (y.messages.insert id message).lookup = messages.map some := by
    refine (map_congr_left ?_).trans h
    intro id' hid'
    exact Finmap.lookup_insert_of_ne _ fun heq => hid (heq ▸ hid')
  have hnew : (y.messages.insert id message).lookup id = some message := Finmap.lookup_insert _
  show (y.queue ++ [id]).map (y.messages.insert id message).lookup = _
  rw [map_append, map_append, hold, map_singleton, map_singleton, hnew]

variable [Placeholders ID OP] {y : EncryptionOrdererState ID OP}

theorem nextReadyMessage_of_not_welcomed (hwel : y.welcomeMessage = none) :
    MessageOrdering.nextReadyMessage y = .ok (y, none) := by
  show (if y.welcomeMessage.isNone then _ else _) = _
  rw [hwel]
  rfl

theorem nextReadyMessage_of_queue_nil (hq : y.queue = []) :
    MessageOrdering.nextReadyMessage y = .ok (y, none) := by
  show (if y.welcomeMessage.isNone then _ else _) = _
  split
  · rfl
  · rw [hq]

theorem nextReadyMessage_of_queue_cons (hwel : y.welcomeMessage.isSome) {id : OP}
    {queue : List OP} (hq : y.queue = id :: queue) :
    MessageOrdering.nextReadyMessage y =
      (do
        let message ← expect "ids map consistently to messages" (y.messages.lookup id)
        return ({ y with queue := queue }, some message)) := by
  show (if y.welcomeMessage.isNone then _ else _) = _
  rw [if_neg (by simpa [Option.isSome_iff_ne_none] using hwel), hq]

variable {ρ δ : Type}

theorem collectReady_eq (hwel : y.welcomeMessage.isSome) (hwait : y.Waiting messages)
    (hforg : ∀ m ∈ messages, m.isForged = true) {fuel : Nat} (hfuel : messages.length < fuel)
    (controlMessages applicationMessages : List (EncryptionMessage ID OP)) :
    (collectReady fuel y controlMessages applicationMessages :
        Outcome (DataScheme.GroupError ID ρ δ Empty) _) =
      .ok ({ y with queue := [] }, controlMessages ++ messages.filter (·.isControl),
        applicationMessages ++ messages.filter fun m => !m.isControl) := by
  induction messages generalizing y fuel controlMessages applicationMessages with
  | nil =>
    cases fuel with
    | zero => exact absurd hfuel (Nat.not_lt_zero _)
    | succ fuel =>
      have hq : y.queue = [] := map_eq_nil_iff.mp hwait
      rw [collectReady, nextReadyMessage_of_queue_nil hq]
      simp [← hq]
  | cons message messages ih =>
    cases fuel with
    | zero => exact absurd hfuel (Nat.not_lt_zero _)
    | succ fuel =>
      obtain ⟨id, queue, hq, hlook, hrest⟩ := map_eq_cons_iff.mp hwait
      obtain ⟨hmsg, hforg⟩ := forall_mem_cons.mp hforg
      have ih := fun controlMessages applicationMessages =>
        ih (y := { y with queue := queue }) hwel hrest hforg
          (Nat.lt_of_succ_lt_succ hfuel) controlMessages applicationMessages
      rw [collectReady, nextReadyMessage_of_queue_cons hwel hq, hlook]
      cases message with
      | args args => cases hmsg
      | forged author operationId args =>
        cases args with
        | system dependencies controlMessage directMessages =>
          have hstep := ih (controlMessages ++
            [.forged author operationId (.system dependencies controlMessage
              directMessages)]) applicationMessages
          rw [append_assoc] at hstep
          exact hstep
        | application dependencies groupSecretId nonce ciphertext =>
          have hstep := ih controlMessages (applicationMessages ++
            [.forged author operationId (.application dependencies groupSecretId nonce ciphertext)])
          rw [append_assoc] at hstep
          exact hstep

end EncryptionOrdererState

/-! ## Processing the queue -/

def inOrder (messages : List (EncryptionMessage ID OP)) : List (EncryptionMessage ID OP) :=
  messages.filter (·.isControl) ++ messages.filter fun m => !m.isControl

@[simp] theorem mem_inOrder :
    message ∈ inOrder messages ↔ message ∈ messages := by
  unfold inOrder
  cases h : message.isControl <;> simp [h]

theorem inOrder_concat (happ : ∀ m ∈ messages, m.isApplication = true)
    (hctrl : message.isControl = true) :
    inOrder (messages ++ [message]) = message :: messages := by
  have hnone : messages.filter (·.isControl) = [] := by
    rw [filter_eq_nil_iff]
    intro m hm
    rw [EncryptionMessage.isControl_of_isApplication (happ m hm)]
    exact Bool.false_ne_true
  have hall : (messages.filter fun m => !m.isControl) = messages := by
    rw [filter_eq_self]
    intro m hm
    rw [EncryptionMessage.isControl_of_isApplication (happ m hm)]
    rfl
  rw [inOrder, filter_append, filter_append, hnone, hall]
  simp [hctrl]

def decrypts (c : DataPrimitives) (secrets : SecretBundleState) : EncryptionMessage ID OP → Bool
  | .forged _ _ (.application _ groupSecretId nonce ciphertext) =>
    (secrets.get groupSecretId).any fun groupSecret =>
      (c.xAeadDecrypt groupSecret.secret.bytes ciphertext nonce []).isSome
  | _ => false

section Queue

variable {checks : Bool} {c : DataPrimitives} {codec : SecretCodec}
  {env : DataScheme.Surroundings ID} [LinearOrder ID] [Placeholders ID OP]
  {y : EncryptionGroupState ID OP}

/-- The group after a control message: we have joined it if we are among its members. -/
def afterControl (c : DataPrimitives) (env : DataScheme.Surroundings ID)
    (y : EncryptionGroupState ID OP) (dcgka : EncryptionDcgkaState ID)
    (output : GroupSecretOutput) : EncryptionGroupState ID OP :=
  { y with
    dcgka := dcgka
    secrets := EncryptionGroup.learn c env y.secrets output
    isWelcomed := y.isWelcomed || decide (y.myId ∈ dcgka.dgm.members.toFinset) }

omit [Placeholders ID OP] in
@[simp] theorem afterControl_secrets {dcgka : EncryptionDcgkaState ID}
    {output : GroupSecretOutput} : (afterControl c env y dcgka output).secrets =
      learn c env y.secrets output := rfl

theorem processReady_control {controlMessage : ControlMessage ID}
    (hcont : GroupMessage.content message = .ok (.control controlMessage)) :
    processReady checks c codec env y message = ((do
      let (dcgka, output) ← (Dcgka.process checks c codec env y.dcgka
        (processInput y message controlMessage)).mapErr .dcgka
      let y := afterControl c env y dcgka output
      let ejected := y.isWelcomed && !decide (y.myId ∈ dcgka.dgm.members)
      return (y, if ejected then some .removed else none)) : EncryptionOutcome ID _) := by
  have hcont : content message = (.ok (.control controlMessage) : EncryptionOutcome ID _) := by
    rw [content, hcont]
    rfl
  have hmbrs (z : EncryptionGroupState ID OP) : members OP z =
      (.ok z.dcgka.dgm.members.toFinset : EncryptionOutcome ID _) := rfl
  rw [processReady, hcont, ok_bind]
  dsimp only
  rw [processRemote, bind_assoc]
  congr 1
  simp only [Outcome.pure_eq, ok_bind, hmbrs, mem_toFinset, afterControl]

theorem processReady_of_application {groupSecretId : GroupSecretId} {nonce : XAeadNonce}
    {ciphertext : Bytes}
    (hcont : GroupMessage.content message = .ok (.application groupSecretId nonce ciphertext)) :
    processReady checks c codec env y message = ((do
      let plaintext ← decrypt c y nonce groupSecretId ciphertext
      return (y, some (.application plaintext))) : EncryptionOutcome ID _) := by
  have hcont : content message =
      (.ok (.application groupSecretId nonce ciphertext) : EncryptionOutcome ID _) := by
    rw [content, hcont]
    rfl
  rw [processReady, hcont]
  rfl

theorem processReady_eq_ok {y' : EncryptionGroupState ID OP} {output : Option GroupOutput}
    (h : processReady checks c codec env y message = (.ok (y', output) : EncryptionOutcome ID _)) :
    (∃ controlMessage dcgka learned,
      GroupMessage.content message = .ok (.control controlMessage) ∧
      Dcgka.process checks c codec env y.dcgka
          (processInput y message controlMessage) =
        (.ok (dcgka, learned) : Outcome (EncryptionDcgkaError ID) _) ∧
      y' = afterControl c env y dcgka learned) ∨
    ∃ groupSecretId nonce ciphertext,
      GroupMessage.content message = .ok (.application groupSecretId nonce ciphertext) ∧
      y' = y := by
  cases hcont : GroupMessage.content message with
  | ok content =>
    cases content with
    | control controlMessage =>
      rw [processReady_control hcont] at h
      obtain ⟨⟨dcgka, learned⟩, hproc, h⟩ := bind_eq_ok.mp h
      cases h
      exact Or.inl ⟨controlMessage, dcgka, learned, rfl, mapErr_eq_ok.mp hproc, rfl⟩
    | application groupSecretId nonce ciphertext =>
      rw [processReady_of_application hcont] at h
      obtain ⟨plaintext, -, h⟩ := bind_eq_ok.mp h
      cases h
      exact Or.inr ⟨groupSecretId, nonce, ciphertext, rfl, rfl⟩
  | err error => exact error.elim
  | panic m =>
    rw [processReady, content, hcont] at h
    cases h

variable (checks c codec env y) in
theorem processReady_application (happ : message.isApplication = true) :
    if decrypts c y.secrets message then
      ∃ plaintext, processReady checks c codec env y message =
        (.ok (y, some (.application plaintext)) : EncryptionOutcome ID _)
    else ∃ error, processReady checks c codec env y message =
      (.err error : EncryptionOutcome ID _) := by
  cases message with
  | args args => cases happ
  | forged author operationId args =>
    cases args with
    | system dependencies controlMessage directMessages => cases happ
    | application dependencies groupSecretId nonce ciphertext =>
      rw [processReady_of_application rfl, decrypts, decrypt]
      cases hsec : y.secrets.get groupSecretId with
      | none => exact ⟨_, rfl⟩
      | some groupSecret =>
        dsimp only [Option.any_some, decryptData]
        split
        · rename_i hplain
          obtain ⟨plaintext, hplain⟩ := Option.isSome_iff_exists.mp hplain
          exact ⟨plaintext, by rw [hplain]; rfl⟩
        · rename_i hplain
          rw [Option.not_isSome_iff_eq_none] at hplain
          exact ⟨_, by rw [hplain]; rfl⟩

variable (checks c codec env y) in
theorem processAll_applications (happ : ∀ m ∈ messages, m.isApplication = true) :
    if messages.all (decrypts c y.secrets) then
      ∃ outputs, processAll checks c codec env y messages =
        (.ok (y, outputs) : EncryptionOutcome ID _)
    else ∃ error, processAll checks c codec env y messages =
      (.err error : EncryptionOutcome ID _) := by
  induction messages with
  | nil => exact ⟨[], rfl⟩
  | cons message messages ih =>
    obtain ⟨hmsg, happ⟩ := forall_mem_cons.mp happ
    have hrdy := processReady_application checks c codec env y hmsg
    have ih := ih happ
    rw [all_cons, processAll]
    cases hdecs : decrypts c y.secrets message with
    | false =>
      rw [hdecs] at hrdy
      obtain ⟨error, hrdy⟩ := hrdy
      rw [hrdy]
      exact ⟨error, rfl⟩
    | true =>
      rw [hdecs] at hrdy
      obtain ⟨plaintext, hrdy⟩ := hrdy
      rw [hrdy, Bool.true_and]
      split at ih
      · rename_i hall
        obtain ⟨outputs, hrest⟩ := ih
        simp only [ok_bind, hall, hrest, if_true]
        exact ⟨_, rfl⟩
      · rename_i hall
        obtain ⟨error, hrest⟩ := ih
        simp only [ok_bind, hall, hrest]
        exact ⟨error, rfl⟩

variable [DecidableEq OP]

theorem processQueue_eq (hwel : y.orderer.welcomeMessage.isSome)
    (hwait : y.orderer.Waiting messages) (hforg : ∀ m ∈ messages, m.isForged = true)
    {fuel : Nat} (hfuel : messages.length < fuel) :
    processQueue checks c codec env fuel y =
      (processAll checks c codec env
        { y with orderer := { y.orderer with queue := [] } } (inOrder messages) :
        EncryptionOutcome ID _) := by
  rw [processQueue, collectReady_eq hwel hwait hforg hfuel]
  rfl

end Queue

/-! ## The welcome -/

section Welcome

variable {checks : Bool} {c : DataPrimitives} {codec : SecretCodec}
  {env : DataScheme.Surroundings ID} [LinearOrder ID] [Placeholders ID OP]

/-- A "create" or "add" message lets us join: its direct message is accepted, and we are a member
afterwards. -/
structure Welcomes (checks : Bool) (c : DataPrimitives) (codec : SecretCodec)
    (env : DataScheme.Surroundings ID) (y : EncryptionGroupState ID OP)
    (message : EncryptionMessage ID OP) (controlMessage : ControlMessage ID)
    (dcgka : EncryptionDcgkaState ID) (output : GroupSecretOutput) : Prop where
  isControl : message.isControl = true
  content : GroupMessage.content message = .ok (.control controlMessage)
  joins : EncryptionGroup.isCreateOrWelcome y (.control controlMessage) = true
  accepted : Dcgka.process checks c codec env y.dcgka
    (EncryptionGroup.processInput y message controlMessage) =
      (.ok (dcgka, output) : Outcome (EncryptionDcgkaError ID) _)
  isMember : y.myId ∈ dcgka.dgm.members

variable {y : EncryptionGroupState ID OP} {messages : List (EncryptionMessage ID OP)}
  {welcome : EncryptionMessage ID OP} {controlMessage : ControlMessage ID}
  {dcgka : EncryptionDcgkaState ID} {output : GroupSecretOutput}

theorem Welcomes.content_eq
    (h : Welcomes checks c codec env y welcome controlMessage dcgka output) :
    EncryptionGroup.content welcome = (.ok (.control controlMessage) : EncryptionOutcome ID _) := by
  rw [EncryptionGroup.content, h.content]
  rfl

theorem Welcomes.processReady
    (h : Welcomes checks c codec env y welcome controlMessage dcgka output)
    (orderer : EncryptionOrdererState ID OP) :
    processReady checks c codec env { y with orderer := orderer } welcome =
      (.ok (afterControl c env { y with orderer := orderer } dcgka output, none) :
        EncryptionOutcome ID _) := by
  have hacc : Dcgka.process checks c codec env y.dcgka (processInput
      { y with orderer := orderer } welcome controlMessage) =
      .ok (dcgka, output) := h.accepted
  rw [processReady_control h.content]
  simp [hacc, afterControl, h.isMember]

variable [DecidableEq OP]

def welcomedOrderer (y : EncryptionGroupState ID OP) (welcome : EncryptionMessage ID OP) :
    EncryptionOrdererState ID OP :=
  { y.orderer.enqueue (GroupMessage.id welcome) welcome with
    queue := []
    welcomeMessage := some welcome }

/-- The queue is processed when the welcome arrives: the welcome first, then what has waited. -/
theorem Welcomes.receive_eq (h : Welcomes checks c codec env y welcome controlMessage dcgka output)
    (hnew : y.isWelcomed = false) (hwait : y.orderer.Waiting messages)
    (happ : ∀ m ∈ messages, m.isApplication = true)
    (hid : GroupMessage.id welcome ∉ y.orderer.queue) :
    receive checks c codec env (Space.rounds y) y welcome =
      ((do
        let (y, outputs) ← processAll checks c codec env (afterControl c env
          { y with orderer := welcomedOrderer y welcome } dcgka output) messages
        return (y, outputs)) : EncryptionOutcome ID _) := by
  have hq : MessageOrdering.queue y.orderer welcome =
      .ok (y.orderer.enqueue (GroupMessage.id welcome) welcome) := rfl
  have hsetWelcome (o : EncryptionOrdererState ID OP) : MessageOrdering.setWelcome o welcome =
      .ok { o with welcomeMessage := some welcome } := rfl
  rw [receive, h.content_eq, ok_bind, if_neg (by simp [hnew]), hq]
  simp only [mapErr_ok, ok_bind]
  rw [if_neg (by simp [hnew]), if_pos (by exact h.joins), hsetWelcome]
  simp only [mapErr_ok, ok_bind]
  have hforg : ∀ m ∈ messages ++ [welcome], m.isForged = true := by
    intro m hm
    rw [mem_append, mem_singleton] at hm
    cases hm with
    | inl hm => exact EncryptionMessage.isForged_of_isApplication (happ m hm)
    | inr hm => exact hm ▸ EncryptionMessage.isForged_of_isControl h.isControl
  have hfuel : (messages ++ [welcome]).length < Space.rounds y := by
    rw [Space.rounds, hwait.length]
    simp
  have hwaiting' : Waiting
      { y.orderer.enqueue (GroupMessage.id welcome) welcome with welcomeMessage := some welcome }
      (messages ++ [welcome]) := hwait.enqueue hid welcome
  rw [processQueue_eq rfl hwaiting' hforg hfuel, inOrder_concat happ h.isControl,
    processAll, h.processReady]
  rfl

/-- The group is established, with the secrets of the welcome, exactly if every message which has
waited can be decrypted with the secrets we know now. -/
theorem receive_welcome_iff
    (h : Welcomes checks c codec env y welcome controlMessage dcgka output)
    (hnew : y.isWelcomed = false) (hwaiting : y.orderer.Waiting messages)
    (happ : ∀ m ∈ messages, m.isApplication = true)
    (hid : GroupMessage.id welcome ∉ y.orderer.queue) :
    ((EncryptionGroup.receive checks c codec env (Space.rounds y) y welcome :
        EncryptionOutcome ID _).Returns fun result =>
      result.1.isWelcomed = true ∧
        ∀ id, output.Carries c id → result.1.secrets.contains id = true) ↔
      ∀ m ∈ messages, decrypts c (EncryptionGroup.learn c env y.secrets output) m = true := by
  have hall := processAll_applications checks c codec env
    (afterControl c env { y with orderer := welcomedOrderer y welcome } dcgka output) happ
  rw [afterControl_secrets] at hall
  rw [h.receive_eq hnew hwaiting happ hid, ← all_eq_true]
  constructor
  · rintro ⟨result, hok, -⟩
    by_contra hnot
    rw [if_neg hnot] at hall
    obtain ⟨error, herror⟩ := hall
    rw [herror] at hok
    cases hok
  · intro hdecs
    rw [if_pos hdecs] at hall
    obtain ⟨outputs, hok⟩ := hall
    rw [hok]
    refine ⟨_, rfl, by simp [afterControl, h.isMember], ?_⟩
    intro id hid
    exact contains_learn.mpr (Or.inr hid)

end Welcome

/-! ## A group of members with the same keys -/

section Sample

open TwoParty

def sampleLongTermBundle : LongTermKeyBundle :=
  ⟨samplePrimitives.verifyingKey (sampleKey 3), samplePrekey .alice, sampleSignature⟩

def sampleKeyRegistry : KeyRegistryState Nat where
  identities := ∅
  onetimeBundles := ∅
  longtermBundles := [0, 1, 2, 3].foldl
    (fun bundles id => bundles.insert id [sampleLongTermBundle]) ∅

instance : Placeholders Nat Nat := ⟨0, 0⟩

def sampleMember (id : Nat) : EncryptionGroupState Nat Nat :=
  EncryptionGroup.init id (sampleManager .alice) sampleKeyRegistry .default .new

def sampleWelcome : EncryptionMessage Nat Nat :=
  match (EncryptionGroup.create true sampleDataPrimitives sampleSecretCodec sampleEncryptionEnv
    (sampleMember 0) [0, 1] ⟨false, List.replicate 400 8⟩ : EncryptionOutcome Nat _) with
  | .ok (_, .args args, _) => .forged 0 1 args
  | _ => .args (.system [] .update [])

def sampleApplication (byte : UInt8) : EncryptionMessage Nat Nat :=
  .forged 0 2 (.application [1] (Vector.replicate 32 byte) (Vector.replicate 24 0)
    (List.replicate 33 byte))

def sampleJoiner (byte : UInt8) : EncryptionGroupState Nat Nat :=
  { sampleMember 1 with orderer :=
      EncryptionOrdererState.new.enqueue 2 (sampleApplication byte) }

theorem welcomes_sampleJoiner (byte : UInt8) : ∃ dcgka output,
    Welcomes true sampleDataPrimitives sampleSecretCodec sampleEncryptionEnv (sampleJoiner byte)
      sampleWelcome (.create [0, 1]) dcgka output ∧
      output.Carries sampleDataPrimitives (Vector.replicate 32 8) ∧
      decrypts sampleDataPrimitives (EncryptionGroup.learn sampleDataPrimitives sampleEncryptionEnv
        (sampleJoiner byte).secrets output) (sampleApplication 8) = true := by
  have hacc : (Dcgka.process true sampleDataPrimitives sampleSecretCodec sampleEncryptionEnv
      (sampleMember 1).dcgka (processInput (sampleMember 1) sampleWelcome
        (.create [0, 1])) : Outcome (EncryptionDcgkaError Nat) _).Returns fun result =>
      1 ∈ result.1.dgm.members ∧
        result.2.Carries sampleDataPrimitives (Vector.replicate 32 8) ∧
        decrypts sampleDataPrimitives (EncryptionGroup.learn sampleDataPrimitives
          sampleEncryptionEnv (sampleMember 1).secrets result.2) (sampleApplication 8) = true := by
    decide +kernel
  obtain ⟨⟨dcgka, output⟩, hacc, hmbr, hlearned⟩ := hacc
  exact ⟨dcgka, output, ⟨by decide +kernel, by decide +kernel, rfl, hacc, hmbr⟩, hlearned⟩

theorem waiting_sampleJoiner (byte : UInt8) :
    (sampleJoiner byte).orderer.Waiting [sampleApplication byte] := by
  have hnil : (new : EncryptionOrdererState Nat Nat).Waiting [] := rfl
  exact hnil.enqueue not_mem_nil (sampleApplication byte)

theorem not_mem_queue_sampleJoiner (byte : UInt8) :
    GroupMessage.id sampleWelcome ∉ (sampleJoiner byte).orderer.queue := by
  have hid : GroupMessage.id sampleWelcome ∉ [2] := by
    decide +kernel
  exact hid

/-- A message encrypted with a secret of the welcome does not keep us from joining. -/
theorem receive_welcome_sampleJoiner :
    (EncryptionGroup.receive true sampleDataPrimitives sampleSecretCodec sampleEncryptionEnv
      (Space.rounds (sampleJoiner 8)) (sampleJoiner 8) sampleWelcome :
      EncryptionOutcome Nat _).Returns fun result => result.1.isWelcomed = true ∧
        result.1.secrets.contains (Vector.replicate 32 8) = true := by
  obtain ⟨dcgka, output, hwelcomes, hcarries, hdecrypts⟩ := welcomes_sampleJoiner 8
  obtain ⟨result, hok, hwelcomed, hcontains⟩ := (receive_welcome_iff hwelcomes rfl
    (waiting_sampleJoiner 8) (by simp [sampleApplication, EncryptionMessage.isApplication])
    (not_mem_queue_sampleJoiner 8)).mpr (forall_mem_singleton.mpr hdecrypts)
  exact ⟨result, hok, hwelcomed, hcontains _ hcarries⟩

/-- Another member has published a message encrypted with a secret we do not know: the welcome
fails. -/
theorem receive_welcome_unknown_secret :
    (∃ dcgka output, Welcomes true sampleDataPrimitives sampleSecretCodec sampleEncryptionEnv
        (sampleJoiner 9) sampleWelcome (.create [0, 1]) dcgka output ∧
        output.Carries sampleDataPrimitives (Vector.replicate 32 8)) ∧
      (sampleJoiner 9).isWelcomed = false ∧
      (sampleJoiner 9).orderer.Waiting [sampleApplication 9] ∧
      (sampleApplication 9).isApplication = true ∧
      ¬(EncryptionGroup.receive true sampleDataPrimitives sampleSecretCodec sampleEncryptionEnv
        (Space.rounds (sampleJoiner 9)) (sampleJoiner 9) sampleWelcome :
        EncryptionOutcome Nat _).IsOk := by
  obtain ⟨dcgka, output, hwelcomes, hcarries, -⟩ := welcomes_sampleJoiner 9
  refine ⟨⟨dcgka, output, hwelcomes, hcarries⟩, rfl, waiting_sampleJoiner 9, rfl, ?_⟩
  decide +kernel

end Sample

end P2Panda.Spaces
