import P2Panda.Encryption.MessageScheme.Dcgka

/-!
# What the handlers change

Messages over two-party channels leave the secrets and the group alone, a step of a ratchet touches
one entry, and a control message has one way to change the group.
-/

namespace P2Panda.Encryption.MessageScheme.Dcgka

open P2Panda.Library Outcome P2Panda.Core

variable {ID OP P D Y ρ δ ε : Type} [KeyRegistry P ID ρ] [PreKeyManager Y ε]
variable {checks : Bool} {c : Primitives} {codec : PlaintextCodec} {env : Surroundings ID}
  {y y' : DcgkaState ID OP P D Y} {sender : ID} {directMessage : Option (DirectMessage ID D)}
  {output : ProcessOutput ID OP D} {y'' : DcgkaState ID OP P D Y}

variable (ID OP ρ δ) in
abbrev Result (α : Type) := Outcome (DcgkaError ID OP ρ δ) α

structure SameGroup (y y' : DcgkaState ID OP P D Y) : Prop where
  myId : y'.myId = y.myId
  dgm : y'.dgm = y.dgm

theorem SameGroup.refl (y : DcgkaState ID OP P D Y) : SameGroup y y := ⟨rfl, rfl⟩

theorem SameGroup.trans (h : SameGroup y y') (h' : SameGroup y' y'') : SameGroup y y'' :=
  ⟨h'.myId.trans h.myId, h'.dgm.trans h.dgm⟩

variable [DecidableEq ID] {plaintext : Bytes} {rng rng' : Rng} {ciphertext : TwoPartyMessage}
  {recipients : List ID} {directMessages : List (DirectMessage ID D)} {secret : ChainSecret}

theorem sameGroup_twoPartyState {id : ID} {twoParty : TwoPartyState OneTimeKeyBundle}
    (h : twoPartyState y id = (.ok (y', twoParty) : Result ID OP ρ δ _)) : SameGroup y y' := by
  unfold twoPartyState at h
  split at h
  · cases h
    exact ⟨rfl, rfl⟩
  · obtain ⟨⟨pki, bundle⟩, _, h⟩ := bind_eq_ok.mp h
    cases bundle with
    | none => cases h
    | some bundle =>
      cases h
      exact ⟨rfl, rfl⟩

theorem sameGroup_encryptTo {recipient : ID}
    (h : encryptTo checks c codec env y recipient plaintext rng =
      (.ok (y', ciphertext, rng') : Result ID OP ρ δ _)) :
    SameGroup y y' := by
  obtain ⟨⟨y1, twoParty⟩, hst, h⟩ := bind_eq_ok.mp h
  obtain ⟨⟨twoParty', message, rng1⟩, _, h⟩ := bind_eq_ok.mp h
  cases h
  exact (sameGroup_twoPartyState hst).trans ⟨rfl, rfl⟩

theorem sameGroup_decryptFrom (h : decryptFrom checks c codec y sender ciphertext =
      (.ok (y', plaintext) : Result ID OP ρ δ _)) : SameGroup y y' := by
  obtain ⟨⟨y1, twoParty⟩, hst, h⟩ := bind_eq_ok.mp h
  obtain ⟨⟨twoParty', myKeys, message⟩, _, h⟩ := bind_eq_ok.mp h
  cases h
  exact (sameGroup_twoPartyState hst).trans ⟨rfl, rfl⟩

theorem sameGroup_encryptToAll {content : TwoPartyMessage → DirectMessageContent D}
    (h : encryptToAll checks c codec env content plaintext y rng recipients =
      (.ok (y', directMessages, rng') : Result ID OP ρ δ _)) : SameGroup y y' := by
  induction recipients generalizing y rng directMessages with
  | nil =>
    cases h
    exact .refl _
  | cons recipient recipients ih =>
    obtain ⟨⟨y1, ciphertext, rng1⟩, hfst, h⟩ := bind_eq_ok.mp h
    obtain ⟨⟨y2, rest, rng2⟩, hrest, h⟩ := bind_eq_ok.mp h
    cases h
    exact (sameGroup_encryptTo hfst).trans (ih hrest)

theorem sameGroup_generateSeed (h : generateSeed checks c codec env y recipients rng =
      (.ok (y', directMessages, rng') : Result ID OP ρ δ _)) : SameGroup y y' := by
  obtain ⟨⟨seed, rng1⟩, -, h⟩ := bind_eq_ok.mp h
  have hsame := sameGroup_encryptToAll h
  exact ⟨hsame.myId, hsame.dgm⟩

theorem sameGroup_updateRatchet {member : ID} {update : UpdateSecret}
    (h : updateRatchet c y member secret = (.ok (y', update) : Result ID OP ρ δ _)) :
    SameGroup y y' := by
  obtain ⟨_, _, h⟩ := bind_eq_ok.mp h
  cases h
  exact ⟨rfl, rfl⟩

theorem sameGroup_updateSender
    (h : updateSender c y sender secret = (.ok (y', output) : Result ID OP ρ δ _)) :
    SameGroup y y' := by
  obtain ⟨⟨y1, update⟩, hrat, h⟩ := bind_eq_ok.mp h
  cases h
  exact sameGroup_updateRatchet hrat

theorem sameGroup_obtainSeed {seed : Option NextSeed}
    (h : obtainSeed checks c codec y sender recipients directMessage =
      (.ok (y', seed) : Result ID OP ρ δ _)) :
    SameGroup y y' := by
  unfold obtainSeed at h
  split at h
  · obtain ⟨_, _, h⟩ := bind_eq_ok.mp h
    cases h
    exact ⟨rfl, rfl⟩
  split at h
  · split at h
    · split at h
      · split at h
        · cases h
        · obtain ⟨⟨y1, plaintext⟩, hdec, h⟩ := bind_eq_ok.mp h
          obtain ⟨_, _, h⟩ := bind_eq_ok.mp h
          cases h
          exact sameGroup_decryptFrom hdec
      · cases h
    · cases h
  · cases h
    exact ⟨rfl, rfl⟩

theorem sameGroup_receiveRatchet
    (h : receiveRatchet checks c codec y sender directMessage = (.ok y' : Result ID OP ρ δ _)) :
    SameGroup y y' := by
  unfold receiveRatchet at h
  split at h
  · split at h
    · split at h
      · cases h
      · obtain ⟨⟨y1, plaintext⟩, hdec, h⟩ := bind_eq_ok.mp h
        obtain ⟨secret, _, h⟩ := bind_eq_ok.mp h
        cases h
        have hsame := sameGroup_decryptFrom hdec
        exact ⟨hsame.myId, hsame.dgm⟩
    · cases h
  · cases h
    exact ⟨rfl, rfl⟩

variable [DecidableEq OP] {seq : OP}

theorem sameGroup_insertMemberSecrets {seed : NextSeed}
    (h : insertMemberSecrets c sender seq seed y recipients = (.ok y' : Result ID OP ρ δ _)) :
    SameGroup y y' := by
  induction recipients generalizing y with
  | nil =>
    cases h
    exact ⟨rfl, rfl⟩
  | cons recipient recipients ih =>
    obtain ⟨secret, _, h⟩ := bind_eq_ok.mp h
    have hrest := ih h
    exact ⟨hrest.myId, hrest.dgm⟩

theorem sameGroup_updateForAdd {added : ID} {isMember : Bool} {update : Option UpdateSecret}
    (h : updateForAdd c y sender seq added isMember = (.ok (y', update) : Result ID OP ρ δ _)) :
    SameGroup y y' := by
  unfold updateForAdd at h
  split at h
  · obtain ⟨⟨y1, secret⟩, hratchet1, h⟩ := bind_eq_ok.mp h
    obtain ⟨⟨y2, secret'⟩, hratchet2, h⟩ := bind_eq_ok.mp h
    cases h
    have hsame1 := sameGroup_updateRatchet hratchet1
    have hsame2 := sameGroup_updateRatchet hratchet2
    exact ⟨hsame2.myId.trans hsame1.myId, hsame2.dgm.trans hsame1.dgm⟩
  · cases h
    exact ⟨rfl, rfl⟩

theorem sameGroup_forwardSecret {members : List ID}
    (h : forwardSecret checks c codec env y sender seq members rng =
      (.ok (y', directMessages, rng') : Result ID OP ρ δ _)) : SameGroup y y' := by
  unfold forwardSecret at h
  split at h
  · cases h
    exact .refl y
  · split at h
    · exact sameGroup_encryptToAll h
    · cases h

variable [AckedGroupMembership D ID OP δ]

section Ack

variable {ack : ID × OP}

theorem dgm_processAck
    (h : processAck checks c codec y sender ack directMessage = .ok (y', output)) :
    y'.myId = y.myId ∧ recordAck y sender ack.2 = (.ok y'.dgm : Result ID OP ρ δ D) := by
  obtain ⟨dgm, hdgm, h⟩ := bind_eq_ok.mp h
  rw [hdgm]
  suffices hrest : y'.myId = y.myId ∧ y'.dgm = dgm by
    rw [hrest.2]
    exact ⟨hrest.1, rfl⟩
  dsimp only at h
  split at h
  · cases h
    exact ⟨rfl, rfl⟩
  · have hsame := sameGroup_updateSender h
    exact ⟨hsame.myId, hsame.dgm⟩
  · split at h
    · split at h
      · cases h
        exact ⟨rfl, rfl⟩
      · obtain ⟨⟨y1, plaintext⟩, hdec, h⟩ := bind_eq_ok.mp h
        obtain ⟨secret, _, h⟩ := bind_eq_ok.mp h
        have hsame := (sameGroup_decryptFrom hdec).trans (sameGroup_updateSender h)
        exact ⟨hsame.myId, hsame.dgm⟩
    · cases h

theorem sameGroup_processAck_own (h : processAck checks c codec y y.myId ack directMessage =
    .ok (y', output)) : SameGroup y y' := by
  obtain ⟨hid, hdgm⟩ := dgm_processAck h
  have hown : recordAck y y.myId ack.2 = (.ok y.dgm : Result ID OP ρ δ D) :=
    if_neg fun hcond => hcond.2.2 rfl
  exact ⟨hid, (Outcome.ok.inj (hown.symm.trans hdgm)).symm⟩

end Ack

variable {rng : Rng}

theorem sameGroup_processSeed
    (h : processSeed checks c codec env y sender seq directMessage rng = .ok (y', output)) :
    SameGroup y y' := by
  obtain ⟨view, _, h⟩ := bind_eq_ok.mp h
  obtain ⟨⟨y1, seed⟩, hseed, h⟩ := bind_eq_ok.mp h
  have hsame1 := sameGroup_obtainSeed hseed
  cases seed with
  | none =>
    cases h
    exact hsame1
  | some seed =>
    obtain ⟨y2, hins, h⟩ := bind_eq_ok.mp h
    obtain ⟨key, _, h⟩ := bind_eq_ok.mp h
    obtain ⟨secret, _, h⟩ := bind_eq_ok.mp h
    obtain ⟨⟨y3, update⟩, hrat, h⟩ := bind_eq_ok.mp h
    have hsame3 := (hsame1.trans (sameGroup_insertMemberSecrets hins)).trans
      (sameGroup_updateRatchet hrat)
    dsimp only at h
    split at h
    · cases h
      exact hsame3
    · obtain ⟨view, _, h⟩ := bind_eq_ok.mp h
      obtain ⟨⟨y4, messages, rng1⟩, hfwd, h⟩ := bind_eq_ok.mp h
      obtain ⟨⟨y5, output'⟩, hack, h⟩ := bind_eq_ok.mp h
      cases h
      exact (hsame3.trans (sameGroup_forwardSecret hfwd)).trans
        (sameGroup_processAck_own hack)

theorem dgm_bind_processSeed {call : Outcome δ D}
    (h : (call.mapErr .dgmOperation >>= fun dgm => processSeed checks c codec env
      { y with dgm := dgm } sender seq directMessage rng) = .ok (y', output)) :
    y'.myId = y.myId ∧ call = .ok y'.dgm := by
  obtain ⟨dgm, hcall, h⟩ := bind_eq_ok.mp h
  have hsame := sameGroup_processSeed h
  rw [hsame.dgm]
  exact ⟨hsame.myId, mapErr_eq_ok.mp hcall⟩

omit [DecidableEq OP] in
theorem dgm_processAddAck {ack : ID × OP}
    (h : processAddAck checks c codec y sender ack directMessage = .ok (y', output)) :
    y'.myId = y.myId ∧ AckedGroupMembership.ack y.dgm sender ack.2 = .ok y'.dgm := by
  obtain ⟨dgm, hdgm, h⟩ := bind_eq_ok.mp h
  obtain ⟨y1, hrcv, h⟩ := bind_eq_ok.mp h
  obtain ⟨view, _, h⟩ := bind_eq_ok.mp h
  have hsame1 := sameGroup_receiveRatchet hrcv
  have hsame : SameGroup y1 y' := by
    split at h
    · exact sameGroup_updateSender h
    · cases h
      exact ⟨rfl, rfl⟩
  rw [hsame.dgm, hsame1.dgm, hsame.myId, hsame1.myId]
  exact ⟨rfl, mapErr_eq_ok.mp hdgm⟩

theorem dgm_processWelcome {history : D}
    (h : processWelcome checks c codec y sender seq history ciphertext = .ok (y', output)) :
    y'.myId = y.myId ∧
      ∃ dgm, AckedGroupMembership.fromWelcome ID OP y.dgm history = .ok dgm ∧
        AckedGroupMembership.add dgm sender y.myId seq = .ok y'.dgm := by
  obtain ⟨dgm, hwel, h⟩ := bind_eq_ok.mp h
  obtain ⟨dgm', hadd, h⟩ := bind_eq_ok.mp h
  obtain ⟨⟨y1, plaintext⟩, hdec, h⟩ := bind_eq_ok.mp h
  obtain ⟨secret, _, h⟩ := bind_eq_ok.mp h
  obtain ⟨⟨y2, update⟩, hratchet2, h⟩ := bind_eq_ok.mp h
  obtain ⟨⟨y3, update'⟩, hratchet3, h⟩ := bind_eq_ok.mp h
  obtain ⟨⟨y4, output'⟩, hack, h⟩ := bind_eq_ok.mp h
  obtain ⟨me, _, h⟩ := bind_eq_ok.mp h
  cases h
  have hsame1 := sameGroup_decryptFrom hdec
  have hsame2 := sameGroup_updateRatchet hratchet2
  have hsame3 := sameGroup_updateRatchet hratchet3
  have hsame4 := sameGroup_processAck_own hack
  rw [hsame4.myId, hsame4.dgm, hsame3.myId, hsame3.dgm]
  rw [hsame2.myId, hsame2.dgm]
  rw [hsame1.myId, hsame1.dgm]
  exact ⟨rfl, dgm, mapErr_eq_ok.mp hwel, mapErr_eq_ok.mp hadd⟩

/-- How a control message changes `dgm` to `dgm'`. -/
def Changes (me sender : ID) (seq : OP) (directMessage : Option (DirectMessage ID D))
    (dgm dgm' : D) : ControlMessage ID OP → Prop
  | .create initialMembers => AckedGroupMembership.create OP me initialMembers = .ok dgm'
  | .ack _ ackSeq =>
    dgm' = dgm ∨ AckedGroupMembership.isAdd ID dgm ackSeq ∧
      AckedGroupMembership.isRemove ID dgm ackSeq ∧ sender ≠ me ∧
        AckedGroupMembership.ack dgm sender ackSeq = .ok dgm'
  | .update => dgm' = dgm
  | .remove removed => AckedGroupMembership.remove dgm sender removed seq = .ok dgm'
  | .add added =>
    if added = me then
      ∃ ciphertext history merged, directMessage = some ⟨me, .welcome ciphertext history⟩ ∧
        AckedGroupMembership.fromWelcome ID OP dgm history = .ok merged ∧
          AckedGroupMembership.add merged sender me seq = .ok dgm'
    else
      ∃ extended, AckedGroupMembership.add dgm sender added seq = .ok extended ∧
        if sender = me then dgm' = extended
        else AckedGroupMembership.ack extended me seq = .ok dgm'
  | .addAck _ ackSeq => AckedGroupMembership.ack dgm sender ackSeq = .ok dgm'

theorem changes_processAdd {added : ID}
    (h : processAdd checks c codec env y sender seq added directMessage rng = .ok (y', output)) :
    y'.myId = y.myId ∧ Changes y.myId sender seq directMessage y.dgm y'.dgm (.add added) := by
  unfold processAdd at h
  split at h
  · rename_i hme
    split at h
    · rename_i directMessage
      split at h
      · rename_i ciphertext history hcont
        split at h
        · cases h
        · rename_i hrecipient
          obtain ⟨hid, dgm, hwel, hadd⟩ := dgm_processWelcome h
          refine ⟨hid, ?_⟩
          rw [Changes, if_pos hme]
          obtain ⟨recipient, content⟩ := directMessage
          dsimp only at hcont hrecipient
          rw [hcont, not_not.mp hrecipient]
          exact ⟨ciphertext, history, dgm, rfl, hwel, hadd⟩
      · cases h
    · cases h
  · rename_i hoth
    obtain ⟨dgm, hadd, h⟩ := bind_eq_ok.mp h
    obtain ⟨view, _, h⟩ := bind_eq_ok.mp h
    obtain ⟨⟨y1, update⟩, hupd, h⟩ := bind_eq_ok.mp h
    have hsame := sameGroup_updateForAdd hupd
    rw [Changes, if_neg hoth]
    dsimp only at h
    rw [hsame.myId] at h
    split at h
    · rename_i hsndr
      cases h
      exact ⟨hsame.myId, dgm, mapErr_eq_ok.mp hadd, by rw [if_pos hsndr, hsame.dgm]⟩
    · rename_i hsndr
      split at h
      · obtain ⟨⟨y2, ciphertext, rng'⟩, henc, h⟩ := bind_eq_ok.mp h
        obtain ⟨⟨y3, output'⟩, hack, h⟩ := bind_eq_ok.mp h
        cases h
        have hsame2 := hsame.trans (sameGroup_encryptTo henc)
        obtain ⟨hid, hack⟩ := dgm_processAddAck hack
        rw [hsame2.dgm, hsame2.myId] at hack
        refine ⟨hid.trans hsame2.myId, dgm, mapErr_eq_ok.mp hadd, ?_⟩
        rw [if_neg hsndr]
        exact hack
      · cases h

theorem changes_processRemote {input : ProcessInput ID OP D}
    (h : processRemote checks c codec env y input rng = .ok (y', output)) :
    input.sender ≠ y.myId ∧ y'.myId = y.myId ∧
      Changes y.myId input.sender input.seq input.directMessage y.dgm y'.dgm
        input.controlMessage := by
  obtain ⟨seq, sender, message, directMessage⟩ := input
  unfold processRemote at h
  split at h
  · cases h
  · rename_i hsndr
    refine ⟨hsndr, ?_⟩
    cases message with
    | create initialMembers => exact dgm_bind_processSeed h
    | ack ackSender ackSeq =>
      obtain ⟨hid, hack⟩ := dgm_processAck h
      refine ⟨hid, ?_⟩
      unfold recordAck at hack
      split at hack
      · rename_i hcond
        exact .inr ⟨hcond.1, hcond.2.1, hsndr, mapErr_eq_ok.mp hack⟩
      · exact .inl (Outcome.ok.inj hack).symm
    | update =>
      have hsame := sameGroup_processSeed h
      exact ⟨hsame.myId, hsame.dgm⟩
    | remove removed => exact dgm_bind_processSeed h
    | add added => exact changes_processAdd h
    | addAck ackSender ackSeq => exact dgm_processAddAck h

theorem changes_processLocal {input output : OperationOutput ID OP D}
    (h : processLocal checks c codec env y seq input rng = .ok (y', output)) :
    y'.myId = y.myId ∧ Changes y.myId y.myId seq none y.dgm y'.dgm input.controlMessage := by
  obtain ⟨message, directMessages⟩ := input
  obtain ⟨⟨y1, processed⟩, hown, h⟩ := bind_eq_ok.mp h
  have hst : y1 = y' := by
    dsimp only at h
    split at h
    · cases h
    split at h
    · cases h
    obtain ⟨_, _, h⟩ := bind_eq_ok.mp h
    cases h
    rfl
  rw [hst] at hown
  cases message with
  | create initialMembers => exact dgm_bind_processSeed hown
  | update =>
    have hsame := sameGroup_processSeed hown
    exact ⟨hsame.myId, hsame.dgm⟩
  | remove removed => exact dgm_bind_processSeed hown
  | add added => exact changes_processAdd hown
  | _ => cases hown

end P2Panda.Encryption.MessageScheme.Dcgka
