import P2Panda.Encryption.DataScheme.Group

/-!
# Received messages do not panic

Whatever direct message arrives, the key agreement ends with a result or an error, apart from the
index of a two-party channel that does not fit its type.
-/

namespace P2Panda.Encryption

open P2Panda.Library Outcome P2Panda.Core PanicsOnly

def addOverflow : String := "attempt to add with overflow"

variable {message : String}

theorem panicsOnly_hkdf (derive : Hkdf) (N : Nat) (salt ikm : Bytes) (info : Option Bytes) :
    (hkdf derive N salt ikm info).PanicsOnly message := by
  unfold hkdf
  split <;> simp

/-- Verifying signatures returns or fails. -/
def Primitives.Verifies (c : Primitives) : Prop :=
  ∀ bytes key signature m, c.xeddsaVerify bytes key signature ≠ .panic m

theorem panicsOnly_verifyPrekey {c : Primitives} (hc : c.Verifies) (clock : Clock)
    (identityKey : PublicKey) (prekey : PreKey) (signature : XSignature) :
    (verifyPrekey c clock identityKey prekey signature).PanicsOnly message := by
  have hlifetime : (prekey.lifetime.verify clock).PanicsOnly message := by
    unfold Lifetime.verify
    split
    · split <;> simp
    · exact panicsOnly_err _ _
  apply (hlifetime.mapErr _).bind
  intro _ _
  apply PanicsOnly.mapErr
  exact fun m h => absurd h (hc _ _ _ m)

theorem panicsOnly_aeadDecrypt (c : Primitives) (key : AeadKey) (ciphertext : Bytes)
    (nonce : AeadNonce) (aad : Option Bytes) :
    (aeadDecrypt c key ciphertext nonce aad).PanicsOnly message := by
  unfold aeadDecrypt
  split <;> simp

theorem panicsOnly_hpkeOpen (c : Primitives) (input : HpkeCiphertext) (key : SecretKey)
    (info aad : Option Bytes) : (hpkeOpen c input key info aad).PanicsOnly message := by
  unfold hpkeOpen
  split <;> simp

theorem panicsOnly_x3dhDecrypt (c : Primitives) (ciphertext : X3dhCiphertext)
    (identitySecret prekeySecret : SecretKey) (onetimeSecret : Option SecretKey) :
    (x3dhDecrypt c ciphertext identitySecret prekeySecret onetimeSecret).PanicsOnly message := by
  refine bind (.mapErr ?_ _) fun _ _ => ?_
  · apply (panicsOnly_hkdf _ _ _ _ _).bind
    intro _ _
    apply (panicsOnly_hkdf _ _ _ _ _).bind
    intro _ _
    exact panicsOnly_ok _ _
  · exact (panicsOnly_aeadDecrypt c _ _ _ _).mapErr _

structure ManagerReturns (Y : Type) {ε : Type} [PreKeyManager Y ε] : Prop where
  prekeySecret : ∀ (y : Y) (id : PreKeyId) m, PreKeyManager.prekeySecret y id ≠ .panic m
  useOnetimeSecret : ∀ (y : Y) (id : OneTimePreKeyId) m,
    PreKeyManager.useOnetimeSecret y id ≠ .panic m

namespace TwoParty

variable {KB Y ε : Type} [PreKeyManager Y ε] {checks : Bool} {c : Primitives}
  {codec : PlaintextCodec}

theorem panicsOnly_decrypt (hmgr : ManagerReturns Y) (y : TwoPartyState KB) (manager : Y)
    (ciphertext : TwoPartyCiphertext) (keyUsed : KeyUsed) :
    (decrypt checks c y manager ciphertext keyUsed).PanicsOnly addOverflow := by
  unfold decrypt
  split
  · refine bind ?_ fun _ _ => ?_
    · unfold onetimeSecret
      split
      · apply PanicsOnly.mapErr
        exact fun m h => absurd h (hmgr.useOnetimeSecret _ _ m)
      · exact panicsOnly_ok _ _
    · refine bind (.mapErr ?_ _) fun _ _ => ?_
      · exact fun m h => absurd h (hmgr.prekeySecret _ _ m)
      · apply ((panicsOnly_x3dhDecrypt c _ _ _ _).mapErr _).bind
        intro _ _
        exact panicsOnly_ok _ _
  · split
    · apply ((panicsOnly_hpkeOpen c _ _ _ _).mapErr _).bind
      intro _ _
      exact panicsOnly_ok _ _
    · exact panicsOnly_err _ _
  · split
    · apply ((panicsOnly_hpkeOpen c _ _ _ _).mapErr _).bind
      intro _ _
      apply (panicsOnly_addU64 checks _ _).bind
      intro _ _
      exact panicsOnly_ok _ _
    · exact panicsOnly_err _ _
  · exact panicsOnly_err _ _

theorem panicsOnly_receive (hmgr : ManagerReturns Y) (y : TwoPartyState KB) (manager : Y)
    (message : TwoPartyMessage) :
    (receive checks c codec y manager message).PanicsOnly addOverflow := by
  apply (panicsOnly_decrypt hmgr y manager _ _).bind
  intro _ _
  dsimp only
  split <;> simp

end TwoParty

namespace DataScheme

structure MembershipReturns (D ID OP : Type) {δ : Type} [GroupMembership D ID OP δ] : Prop where
  create : ∀ (id : ID) (members : List ID) m,
    (GroupMembership.create OP id members : Outcome δ D) ≠ .panic m
  fromWelcome : ∀ (id : ID) (history : D) m,
    (GroupMembership.fromWelcome OP id history : Outcome δ D) ≠ .panic m
  add : ∀ (y : D) (sender added : ID) (seq : OP) m,
    GroupMembership.add y sender added seq ≠ .panic m
  remove : ∀ (y : D) (sender removed : ID) (seq : OP) m,
    GroupMembership.remove y sender removed seq ≠ .panic m

namespace Dcgka

variable {ID OP P D Y ρ δ ε : Type} [DecidableEq ID] [GroupMembership D ID OP δ]
  [PreKeyManager Y ε] {checks : Bool} {c : DataPrimitives} {codec : SecretCodec}
  {env : Surroundings ID}

omit [GroupMembership D ID OP δ] in
theorem panicsOnly_decryptFrom (hmgr : ManagerReturns Y) (y : DcgkaState ID P D Y)
    (sender : ID) (ciphertext : TwoPartyMessage) :
    (decryptFrom checks c codec y sender ciphertext :
      Outcome (DcgkaError ID ρ δ) _).PanicsOnly addOverflow := by
  apply ((TwoParty.panicsOnly_receive hmgr _ _ ciphertext).mapErr _).bind
  intro _ _
  exact panicsOnly_ok _ _

omit [GroupMembership D ID OP δ] in
theorem panicsOnly_processSecret (hmgr : ManagerReturns Y) (y : DcgkaState ID P D Y)
    (sender : ID) (directMessage : Option (DirectMessage ID D)) :
    (processSecret checks c codec y sender directMessage :
      Outcome (DcgkaError ID ρ δ) _).PanicsOnly addOverflow := by
  unfold processSecret
  split
  · exact panicsOnly_ok _ _
  · split
    · split
      · exact panicsOnly_err _ _
      · apply (panicsOnly_decryptFrom hmgr y sender _).bind
        intro _ _
        dsimp only
        split <;> simp
    · exact panicsOnly_err _ _

theorem panicsOnly_processWelcome (hmgr : ManagerReturns Y) (hdgm : MembershipReturns D ID OP)
    (y : DcgkaState ID P D Y) (sender : ID) (ciphertext : TwoPartyMessage) (history : D) :
    (processWelcome OP checks c codec env y sender ciphertext history :
      Outcome (DcgkaError ID ρ δ) _).PanicsOnly addOverflow := by
  refine bind (.mapErr ?_ _) fun _ _ => ?_
  · exact fun m h => absurd h (hdgm.fromWelcome _ _ m)
  · apply (panicsOnly_decryptFrom hmgr _ sender ciphertext).bind
    intro _ _
    dsimp only
    split <;> simp

theorem panicsOnly_processAdd (hmgr : ManagerReturns Y) (hdgm : MembershipReturns D ID OP)
    (y : DcgkaState ID P D Y) (sender : ID) (seq : OP) (added : ID)
    (directMessage : Option (DirectMessage ID D)) :
    (processAdd checks c codec env y sender seq added directMessage :
      Outcome (DcgkaError ID ρ δ) _).PanicsOnly addOverflow := by
  refine bind (.mapErr ?_ _) fun _ _ => ?_
  · exact fun m h => absurd h (hdgm.add _ _ _ _ m)
  · dsimp only
    split
    · split
      · exact panicsOnly_err _ _
      · split
        · split
          · exact panicsOnly_err _ _
          · exact panicsOnly_processWelcome hmgr hdgm _ _ _ _
        · exact panicsOnly_err _ _
    · exact panicsOnly_ok _ _

theorem panicsOnly_process (hmgr : ManagerReturns Y) (hdgm : MembershipReturns D ID OP)
    (y : DcgkaState ID P D Y) (input : ProcessInput ID OP D) :
    (process checks c codec env y input :
      Outcome (DcgkaError ID ρ δ) _).PanicsOnly addOverflow := by
  unfold process
  split
  · refine bind (.mapErr ?_ _) fun _ _ => ?_
    · exact fun m h => absurd h (hdgm.create _ _ m)
    · exact panicsOnly_processSecret hmgr _ _ _
  · exact panicsOnly_processSecret hmgr _ _ _
  · refine bind (.mapErr ?_ _) fun _ _ => ?_
    · exact fun m h => absurd h (hdgm.remove _ _ _ _ m)
    · exact panicsOnly_processSecret hmgr _ _ _
  · exact panicsOnly_processAdd hmgr hdgm _ _ _ _ _

end Dcgka

end DataScheme

end P2Panda.Encryption
