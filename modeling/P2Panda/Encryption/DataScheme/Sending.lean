import P2Panda.Encryption.DataScheme.Group

/-!
# Sending and receiving secrets

Operations send something to every recipient and keep the view of the members. Whoever processes a
control message takes what comes out of the channel.
-/

namespace P2Panda.Encryption.DataScheme

open P2Panda.Library Outcome P2Panda.Core

variable {ID OP P D Y ρ δ ε : Type} [DecidableEq ID] [PreKeyRegistry P ID ρ]

namespace Dcgka

variable {checks : Bool} {c : DataPrimitives} {codec : SecretCodec} {env : Surroundings ID}
  [PreKeyManager Y ε] {y y' : DcgkaState ID P D Y} {recipient : ID} {plaintext : Bytes}
  {rng rng' : Rng} {ciphertext : TwoPartyMessage} {groupSecret : GroupSecret} {recipients : List ID}
  {directMessages : List (DirectMessage ID D)}

theorem encryptTo_eq_ok
    (h : encryptTo checks c codec env y recipient plaintext rng =
      (.ok (y', ciphertext, rng') : Outcome (DcgkaError ID ρ δ) _)) :
    y'.dgm = y.dgm ∧ y'.myId = y.myId := by
  obtain ⟨⟨y1, twoParty⟩, hchan, h⟩ := bind_eq_ok.mp h
  obtain ⟨_, -, h⟩ := bind_eq_ok.mp h
  cases h
  unfold channelTo at hchan
  split at hchan
  · cases hchan
    exact ⟨rfl, rfl⟩
  · obtain ⟨⟨pki, bundle⟩, -, hchan⟩ := bind_eq_ok.mp hchan
    cases bundle with
    | none => cases hchan
    | some bundle =>
      cases hchan
      exact ⟨rfl, rfl⟩

theorem sendGroupSecret_eq_ok (h : sendGroupSecret checks c codec env groupSecret y rng recipients =
      (.ok (y', directMessages, rng') : Outcome (DcgkaError ID ρ δ) _)) :
    (y'.dgm = y.dgm ∧ y'.myId = y.myId) ∧
      directMessages.map DirectMessage.recipient = recipients.filter (· ≠ y.myId) := by
  induction recipients generalizing y rng directMessages with
  | nil =>
    cases h
    exact ⟨⟨rfl, rfl⟩, rfl⟩
  | cons recipient recipients ih =>
    unfold sendGroupSecret at h
    split at h
    · rename_i hme
      rw [List.filter_cons_of_neg (by simpa using hme)]
      exact ih h
    · rename_i hme
      obtain ⟨plaintext, -, h⟩ := bind_eq_ok.mp h
      obtain ⟨⟨y1, ciphertext, rng1⟩, henc, h⟩ := bind_eq_ok.mp h
      obtain ⟨⟨y2, directMessages', rng2⟩, hrest, h⟩ := bind_eq_ok.mp h
      cases h
      obtain ⟨hdgm, hid⟩ := encryptTo_eq_ok henc
      obtain ⟨⟨hdgm', hid'⟩, hrecipients⟩ := ih hrest
      rw [hid] at hrecipients
      rw [List.filter_cons_of_pos (by simpa using hme), List.map_cons, hrecipients]
      exact ⟨⟨hdgm'.trans hdgm, hid'.trans hid⟩, rfl⟩

variable {sender : ID} {directMessage : Option (DirectMessage ID D)} {output : GroupSecretOutput}

omit [PreKeyRegistry P ID ρ] in
theorem decryptFrom_eq_ok
    (h : decryptFrom checks c codec y sender ciphertext =
      (.ok (y', plaintext) : Outcome (DcgkaError ID ρ δ) _)) :
    (y'.dgm = y.dgm ∧ y'.myId = y.myId) ∧ ∃ twoParty myKeys, TwoParty.receive checks
      c.toPrimitives codec.toPlaintextCodec ((y.twoParty.lookup sender).getD
        TwoParty.initToReceive) y.myKeys ciphertext = .ok (twoParty, myKeys, plaintext) := by
  obtain ⟨⟨twoParty, myKeys, plaintext'⟩, hrcv, h⟩ := bind_eq_ok.mp h
  cases h
  exact ⟨⟨rfl, rfl⟩, twoParty, myKeys, mapErr_eq_ok.mp hrcv⟩

variable (checks c codec) in
/-- A plaintext comes out of the channel from the sender to us. -/
def Received (y : DcgkaState ID P D Y) (sender : ID) (message : DirectMessage ID D)
    (plaintext : Bytes) : Prop :=
  message.recipient = y.myId ∧ ∃ twoParty myKeys, TwoParty.receive checks c.toPrimitives
    codec.toPlaintextCodec ((y.twoParty.lookup sender).getD TwoParty.initToReceive) y.myKeys
    message.content.ciphertext = .ok (twoParty, myKeys, plaintext)

omit [PreKeyRegistry P ID ρ] in
theorem processSecret_eq_ok
    (h : processSecret checks c codec y sender directMessage =
      (.ok (y', output) : Outcome (DcgkaError ID ρ δ) _)) :
    (y'.dgm = y.dgm ∧ y'.myId = y.myId) ∧
      (output = .none ∨ ∃ message ∈ directMessage, ∃ plaintext,
        Received checks c codec y sender message plaintext ∧
        ∃ secret, codec.secretFromBytes plaintext = some secret ∧ output = .secret secret) := by
  unfold processSecret at h
  split at h
  · cases h
    exact ⟨⟨rfl, rfl⟩, Or.inl rfl⟩
  · split at h
    · rename_i message content ciphertext hcont
      split_ifs at h with hmine
      obtain ⟨⟨y1, plaintext⟩, hdec, h⟩ := bind_eq_ok.mp h
      dsimp only at h
      split at h
      · rename_i secret hsec
        cases h
        obtain ⟨hkept, hrcv⟩ := decryptFrom_eq_ok hdec
        refine ⟨hkept, Or.inr ⟨message, rfl, plaintext, ⟨not_not.mp hmine, ?_⟩, secret, hsec, rfl⟩⟩
        rw [hcont]
        exact hrcv
      · cases h
    · cases h

end Dcgka

end P2Panda.Encryption.DataScheme
