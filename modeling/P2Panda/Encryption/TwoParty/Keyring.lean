import P2Panda.Encryption.TwoParty.TwoParty

/-!
# Which key opens a message

What a party can decrypt depends on its own keys, the last key it was given and its key manager: its
keyring. A message is described by what is left of the keyring once it is opened.
-/

namespace P2Panda.Encryption.TwoParty

open P2Panda.Library Outcome P2Panda.Core UInt64

variable {KB Y ε : Type} [PreKeyManager Y ε]
variable {checks : Bool} {c : Primitives} {codec : PlaintextCodec} {clock : Clock}
  {y' : TwoPartyState KB} {message : TwoPartyMessage} {bytes : Bytes}
  {ciphertext : TwoPartyCiphertext} {plaintext : Bytes}

/-! ## Removing keys -/

theorem lookup_foldl_erase (l : List Nat) (keys : HashMap UInt64 SecretKey) (j : UInt64) :
    (l.foldl (fun keys i => keys.erase (UInt64.ofNat i)) keys).lookup j =
      if ∃ i ∈ l, UInt64.ofNat i = j then none else keys.lookup j := by
  induction l generalizing keys with
  | nil => simp
  | cons a l ih =>
    rw [List.foldl_cons, ih, HashMap.lookup_erase_ite]
    split_ifs <;> grind

theorem lookup_removeKeys (keys : HashMap UInt64 SecretKey) (first last j : UInt64) :
    (removeKeys keys first last).lookup j =
      if first ≤ j ∧ j < last then none else keys.lookup j := by
  rw [removeKeys, lookup_foldl_erase]
  have hiff : (∃ i ∈ List.range' first.toNat (last.toNat - first.toNat), UInt64.ofNat i = j) ↔
      first ≤ j ∧ j < last := by
    rw [le_iff_toNat_le, lt_iff_toNat_lt]
    constructor
    · rintro ⟨i, hi, rfl⟩
      rw [List.mem_range'_1] at hi
      have hlast := last.toNat_lt
      rw [toNat_ofNat_of_lt' (by change i < 2 ^ 64; omega)]
      omega
    · rintro ⟨hfst, hlast⟩
      refine ⟨j.toNat, ?_, UInt64.ofNat_toNat⟩
      rw [List.mem_range'_1]
      omega
  simp only [hiff]

/-! ## Keys used with HPKE -/

section Hpke

variable {y : TwoPartyState KB} {manager : Y} {manager' : Y}

theorem receive_of_decrypt (hcdc : codec.Lawful) {p : TwoPartyPlaintext} {y1 : TwoPartyState KB}
    (hbts : codec.toBytes p = some bytes)
    (h : decrypt checks c y manager message.ciphertext message.keyUsed =
      .ok (y1, manager', bytes)) :
    receive checks c codec y manager message =
      .ok ({ y1 with
        theirVerifyingKey := some p.senderNewVerifyingKey
        theirNextKeyUsed := .ownKey p.senderNextIndex
        ourReceivedSecretKey := some p.receiverNewSecret }, manager', p.plaintext) := by
  rw [receive, h, ok_bind]
  dsimp only
  rw [hcdc hbts]
  rfl

/-- Only a message for an own key changes the state: it removes the keys up to this one. -/
theorem state_of_decrypt {keyUsed : KeyUsed}
    (h : decrypt checks c y manager ciphertext keyUsed = .ok (y', manager', bytes)) :
    y' = y ∨ ∃ i s next, y.ourSecretKeys.lookup i = some s ∧
      addU64 checks i 1 = (.ok next : Outcome TwoPartyError UInt64) ∧
      y' = { y with
        ourSecretKeys := removeKeys y.ourSecretKeys y.ourMinKeyIndex next
        ourMinKeyIndex := next } := by
  unfold decrypt at h
  split at h
  · obtain ⟨_, _, h⟩ := bind_eq_ok.mp h
    obtain ⟨_, _, h⟩ := bind_eq_ok.mp h
    obtain ⟨_, _, h⟩ := bind_eq_ok.mp h
    cases h
    exact Or.inl rfl
  · split at h
    · obtain ⟨_, _, h⟩ := bind_eq_ok.mp h
      cases h
      exact Or.inl rfl
    · cases h
  · split at h
    · rename_i s hs
      obtain ⟨_, _, h⟩ := bind_eq_ok.mp h
      obtain ⟨next, hnext, h⟩ := bind_eq_ok.mp h
      cases h
      exact Or.inr ⟨_, s, next, hs, hnext, rfl⟩
    · cases h
  · cases h

theorem decrypt_of_receive
    (h : receive checks c codec y manager message = .ok (y', manager', plaintext)) :
    ∃ y1 bytes used key received,
      decrypt checks c y manager message.ciphertext message.keyUsed = .ok (y1, manager', bytes) ∧
      y' = { y1 with
        theirVerifyingKey := key
        theirNextKeyUsed := used
        ourReceivedSecretKey := received } := by
  obtain ⟨⟨y1, manager1, bytes⟩, hdec, h⟩ := bind_eq_ok.mp h
  dsimp only at h
  split at h
  · cases h
    exact ⟨_, _, _, _, _, hdec, rfl⟩
  · cases h

theorem next_of_receive
    (h : receive checks c codec y manager message = .ok (y', manager', plaintext)) :
    y'.ourNextKeyIndex = y.ourNextKeyIndex := by
  obtain ⟨y1, _, _, _, _, hdec, rfl⟩ := decrypt_of_receive h
  obtain rfl | ⟨_, _, _, _, _, rfl⟩ := state_of_decrypt hdec <;> rfl

variable {ciphertext : HpkeCiphertext}

theorem decrypt_receivedKey (hc : c.Ideal) {s : SecretKey} {entropy bytes : Bytes}
    (hrecv : y.ourReceivedSecretKey = some s)
    (hseal : hpkeSeal c entropy (c.verifyingKey s) none none bytes = .ok ciphertext) :
    decrypt checks c y manager (.hpke ciphertext) .receivedKey = .ok (y, manager, bytes) := by
  simp only [decrypt, hrecv, hpkeOpen_of_hpkeSeal hc hseal, mapErr_ok, ok_bind, Outcome.pure_eq]

theorem decrypt_ownKey (hc : c.Ideal) {i : UInt64} {s : SecretKey} {entropy bytes : Bytes}
    (hi : i < y.ourNextKeyIndex) (hown : y.ourSecretKeys.lookup i = some s)
    (hseal : hpkeSeal c entropy (c.verifyingKey s) none none bytes = .ok ciphertext) :
    decrypt checks c y manager (.hpke ciphertext) (.ownKey i) =
      .ok ({ y with
        ourSecretKeys := removeKeys y.ourSecretKeys y.ourMinKeyIndex (i + 1)
        ourMinKeyIndex := i + 1 }, manager, bytes) := by
  have hlt : i.toNat + (1 : UInt64).toNat < 2 ^ 64 := by
    rw [lt_iff_toNat_lt] at hi
    have hnext := y.ourNextKeyIndex.toNat_lt
    change i.toNat + 1 < 2 ^ 64
    omega
  simp only [decrypt, hown, hpkeOpen_of_hpkeSeal hc hseal, mapErr_ok,
    ok_bind, Outcome.pure_eq, addU64_of_lt hlt]

structure InRange (y : TwoPartyState KB) : Prop where
  min_le : y.ourMinKeyIndex ≤ y.ourNextKeyIndex
  keys : ∀ i s, y.ourSecretKeys.lookup i = some s →
    y.ourMinKeyIndex ≤ i ∧ i < y.ourNextKeyIndex

theorem toNat_add_one {i n : UInt64} (hi : i < n) : (i + 1).toNat = i.toNat + 1 := by
  rw [lt_iff_toNat_lt] at hi
  have hn := n.toNat_lt
  change (i.toNat + 1) % 2 ^ 64 = i.toNat + 1
  omega

theorem add_one_le_iff {i j n : UInt64} (hi : i < n) : i + 1 ≤ j ↔ i < j := by
  rw [le_iff_toNat_le, toNat_add_one hi]
  exact Nat.succ_le_iff

theorem InRange.lookup_removeKeys {i : UInt64} (hy : InRange y) (hi : i < y.ourNextKeyIndex)
    (j : UInt64) :
    (removeKeys y.ourSecretKeys y.ourMinKeyIndex (i + 1)).lookup j =
      if j ≤ i then none else y.ourSecretKeys.lookup j := by
  have hsucc : j < i + 1 ↔ j ≤ i := by
    rw [← UInt64.not_le, add_one_le_iff hi, UInt64.not_lt]
  rw [TwoParty.lookup_removeKeys]
  simp only [hsucc]
  by_cases hj : j ≤ i
  · rw [if_pos hj]
    cases hlook : y.ourSecretKeys.lookup j with
    | none => exact ite_self _
    | some s => exact if_pos ⟨(hy.keys j s hlook).1, hj⟩
  · rw [if_neg hj, if_neg (fun h => hj h.2)]

end Hpke

/-! ## Keyrings -/

structure Keyring (Y : Type) where
  own : UInt64 → Option SecretKey
  received : Option SecretKey
  manager : Y

namespace Keyring

variable {k : Keyring Y} {n i : UInt64} {s : SecretKey}

def insert (k : Keyring Y) (n : UInt64) (s : SecretKey) : Keyring Y :=
  { k with own := fun j => if j = n then some s else k.own j }

def drop (k : Keyring Y) (i : UInt64) : Keyring Y :=
  { k with own := fun j => if j ≤ i then none else k.own j }

def give (k : Keyring Y) (s : SecretKey) : Keyring Y := { k with received := some s }

def Below (k : Keyring Y) (n : UInt64) : Prop := ∀ i s, k.own i = some s → i < n

theorem own_insert_self : (k.insert n s).own n = some s := if_pos rfl

theorem own_insert_of_lt (hi : i < n) : (k.insert n s).own i = k.own i := by
  apply if_neg
  intro heq
  rw [heq] at hi
  exact UInt64.lt_irrefl n hi

theorem insert_drop (hi : i < n) : (k.drop i).insert n s = (k.insert n s).drop i := by
  unfold insert drop
  congr 1
  funext j
  dsimp only
  by_cases hj : j = n
  · rw [if_pos hj, if_neg, if_pos hj]
    rw [hj]
    exact UInt64.not_le.mpr hi
  · rw [if_neg hj, if_neg hj]

end Keyring

def keyring (y : TwoPartyState KB) (manager : Y) : Keyring Y :=
  ⟨fun i => y.ourSecretKeys.lookup i, y.ourReceivedSecretKey, manager⟩

variable [KeyBundle KB]

variable (KB c codec) in
/-- A keyring opens a message with some payload, and what is left of it. -/
inductive Opens : Keyring Y → TwoPartyMessage → TwoPartyPlaintext → Keyring Y → Prop
  | preKey {k : Keyring Y} {y' : Y} {b : KB} {s clock bytes sender rng ciphertext rng' p} :
      Holds c k.manager b → onetimeSecret k.manager (KeyBundle.onetimePrekeyId b) = .ok (y', s) →
      codec.toBytes p = some bytes →
      x3dhEncrypt c clock bytes sender b rng = .ok (ciphertext, rng') →
      Opens k ⟨.preKey ciphertext, .preKey⟩ p
        (Keyring.give { k with manager := y' } p.receiverNewSecret)
  | receivedKey {k : Keyring Y} {s entropy bytes ciphertext p} :
      k.received = some s → codec.toBytes p = some bytes →
      hpkeSeal c entropy (c.verifyingKey s) none none bytes = .ok ciphertext →
      Opens k ⟨.hpke ciphertext, .receivedKey⟩ p (k.give p.receiverNewSecret)
  | ownKey {k : Keyring Y} {i s entropy bytes ciphertext p} :
      k.own i = some s → codec.toBytes p = some bytes →
      hpkeSeal c entropy (c.verifyingKey s) none none bytes = .ok ciphertext →
      Opens k ⟨.hpke ciphertext, .ownKey i⟩ p ((k.drop i).give p.receiverNewSecret)

section Opens

variable {k k' : Keyring Y} {message : TwoPartyMessage} {p : TwoPartyPlaintext}
  (h : Opens KB c codec k message p k')

include h

theorem Opens.received_eq : k'.received = some p.receiverNewSecret := by
  cases h <;> rfl

theorem Opens.own_subset {i : UInt64} {s : SecretKey} (hi : k'.own i = some s) :
    k.own i = some s := by
  cases h with
  | preKey => exact hi
  | receivedKey => exact hi
  | ownKey =>
    dsimp only [Keyring.give, Keyring.drop] at hi
    split_ifs at hi
    exact hi

theorem Opens.own_of_lt {j : UInt64} {s : SecretKey} (hj : k.own j = some s)
    (hlt : ∀ i, message.keyUsed = .ownKey i → i < j) :
    k'.own j = some s := by
  cases h with
  | preKey => exact hj
  | receivedKey => exact hj
  | ownKey => exact (if_neg (UInt64.not_le.mpr (hlt _ rfl))).trans hj

theorem Opens.own_used {i : UInt64} (hi : message.keyUsed = .ownKey i) : k'.own i = none := by
  cases h with
  | preKey => cases hi
  | receivedKey => cases hi
  | ownKey =>
    cases hi
    exact if_pos (UInt64.le_refl _)

theorem Opens.below {n : UInt64} (hk : k.Below n) : k'.Below n :=
  fun i s hi => hk i s (h.own_subset hi)

theorem Opens.insert {n : UInt64} (hk : k.Below n) (s : SecretKey) :
    Opens KB c codec (k.insert n s) message p (k'.insert n s) := by
  cases h with
  | preKey hholds honetime hbts henc => exact .preKey hholds honetime hbts henc
  | receivedKey hrecv hbts hseal => exact .receivedKey hrecv hbts hseal
  | @ownKey i _ _ _ _ _ hown hbts hseal =>
    have hi : i < n := hk i _ hown
    have hcomm : ((k.drop i).give p.receiverNewSecret).insert n s =
        ((k.insert n s).drop i).give p.receiverNewSecret := by
      rw [← Keyring.insert_drop hi]
      rfl
    rw [hcomm]
    exact .ownKey ((Keyring.own_insert_of_lt hi).trans hown) hbts hseal

end Opens

/-! ## One-time secrets -/

section Onetime

variable {y y' : Y} {b : KB} {s : Option SecretKey}

theorem exists_onetimeSecret (h : Holds c y b) :
    ∃ y' s, onetimeSecret y (KeyBundle.onetimePrekeyId b) = .ok (y', s) := by
  cases hid : KeyBundle.onetimePrekeyId b with
  | none => exact ⟨y, none, rfl⟩
  | some id =>
    obtain ⟨y', s, huse, _⟩ := h.onetime id hid
    rw [onetimeSecret, huse]
    exact ⟨y', some s, rfl⟩

theorem secrets_of_onetimeSecret (h : Holds c y b)
    (honetime : onetimeSecret y (KeyBundle.onetimePrekeyId b) = .ok (y', s)) :
    c.verifyingKey (PreKeyManager.identitySecret y') = KeyBundle.identityKey b ∧
      (∃ s', PreKeyManager.prekeySecret y' (KeyBundle.signedPrekey b) = .ok s' ∧
        c.verifyingKey s' = KeyBundle.signedPrekey b) ∧
      KeyBundle.onetimePrekey b = s.map c.verifyingKey := by
  cases hid : KeyBundle.onetimePrekeyId b with
  | none =>
    rw [hid] at honetime
    cases honetime
    exact ⟨h.identity, h.prekey, h.longterm hid⟩
  | some id =>
    obtain ⟨y'', s'', huse, hkey, hident, hprekey⟩ := h.onetime id hid
    rw [hid, onetimeSecret, huse] at honetime
    cases honetime
    rw [hident, hprekey]
    exact ⟨h.identity, h.prekey, hkey⟩

end Onetime

/-! ## Receiving -/

variable {y : TwoPartyState KB} {manager : Y} {rng rng' : Rng} {entropy : Bytes}

structure Received (y y' : TwoPartyState KB) (p : TwoPartyPlaintext) : Prop where
  used : y'.theirNextKeyUsed = .ownKey p.senderNextIndex
  verifyingKey : y'.theirVerifyingKey = some p.senderNewVerifyingKey
  next : y'.ourNextKeyIndex = y.ourNextKeyIndex
  inRange : InRange y'

theorem decrypt_preKey (hc : c.Ideal) {b : KB} {y' : Y} {s : Option SecretKey} {sender : SecretKey}
    {ciphertext : X3dhCiphertext} (hholds : Holds c manager b)
    (honetime : onetimeSecret manager (KeyBundle.onetimePrekeyId b) = .ok (y', s))
    (henc : x3dhEncrypt c clock bytes sender b rng = .ok (ciphertext, rng')) :
    decrypt checks c y manager (.preKey ciphertext) .preKey = .ok (y, y', bytes) := by
  obtain ⟨hprekeyId, honetimeId⟩ := prekeyId_of_x3dhEncrypt henc
  obtain ⟨hident, ⟨prekeySecret, hprekeySecret, hprekey⟩, hsec⟩ :=
    secrets_of_onetimeSecret hholds honetime
  have hdec := x3dhDecrypt_of_x3dhEncrypt hc hident hprekey hsec henc
  rw [← honetimeId] at honetime
  rw [← hprekeyId] at hprekeySecret
  simp only [decrypt, honetime, ok_bind, hprekeySecret, mapErr_ok, hdec, Outcome.pure_eq]

variable {k : Keyring Y}

theorem receive_of_opens (hc : c.Ideal) (hcdc : codec.Lawful) (hy : InRange y)
    {p : TwoPartyPlaintext} (h : Opens KB c codec (keyring y manager) message p k) :
    ∃ y' manager', receive checks c codec y manager message = .ok (y', manager', p.plaintext) ∧
      keyring y' manager' = k ∧ Received y y' p := by
  cases h with
  | preKey hholds honetime hbts henc =>
    refine ⟨_, _, receive_of_decrypt hcdc hbts (decrypt_preKey hc hholds honetime henc),
      rfl, ⟨rfl, rfl, rfl, ⟨hy.min_le, hy.keys⟩⟩⟩
  | receivedKey hrecv hbts hseal =>
    refine ⟨_, _, receive_of_decrypt hcdc hbts (decrypt_receivedKey hc hrecv hseal),
      rfl, ⟨rfl, rfl, rfl, ⟨hy.min_le, hy.keys⟩⟩⟩
  | @ownKey i _ _ _ _ _ hown hbts hseal =>
    have hi : i < y.ourNextKeyIndex := (hy.keys i _ hown).2
    refine ⟨_, _, receive_of_decrypt hcdc hbts (decrypt_ownKey hc hi hown hseal),
      ?_, ⟨rfl, rfl, rfl, ⟨?_, ?_⟩⟩⟩
    · have hlook := hy.lookup_removeKeys hi
      unfold keyring Keyring.give Keyring.drop
      congr 1
      funext j
      exact hlook j
    · exact (add_one_le_iff hi).mpr hi
    · intro j s hj
      rw [hy.lookup_removeKeys hi] at hj
      split_ifs at hj with hle
      exact ⟨(add_one_le_iff hi).mpr (UInt64.not_le.mp hle), (hy.keys j s hj).2⟩

/-! ## Sending -/

/-- The next message is encrypted under a key of the keyring. -/
inductive Addressed (c : Primitives) (y : TwoPartyState KB) (k : Keyring Y) : Prop
  | preKey (b : KB) : y.theirNextKeyUsed = .preKey → y.theirVerifyingKey = none →
      y.theirPrekeyBundle = some b → Holds c k.manager b → Addressed c y k
  | receivedKey (s : SecretKey) : y.theirNextKeyUsed = .receivedKey →
      y.theirVerifyingKey = some (c.verifyingKey s) → k.received = some s → Addressed c y k
  | ownKey (i : UInt64) (s : SecretKey) : y.theirNextKeyUsed = .ownKey i →
      y.theirVerifyingKey = some (c.verifyingKey s) → k.own i = some s → Addressed c y k

structure Sent (checks : Bool) (c : Primitives) (y y' : TwoPartyState KB) (p : TwoPartyPlaintext)
    (s : SecretKey) : Prop where
  index : p.senderNextIndex = y.ourNextKeyIndex
  key : p.senderNewVerifyingKey = c.verifyingKey s
  keys : y'.ourSecretKeys = y.ourSecretKeys.insert y.ourNextKeyIndex s
  received : y'.ourReceivedSecretKey = y.ourReceivedSecretKey
  min : y'.ourMinKeyIndex = y.ourMinKeyIndex
  next : addU64 checks y.ourNextKeyIndex 1 =
    (.ok y'.ourNextKeyIndex : Outcome TwoPartyError UInt64)
  used : y'.theirNextKeyUsed = .receivedKey
  verifyingKey : y'.theirVerifyingKey = some (c.verifyingKey p.receiverNewSecret)

theorem eq_of_encrypt
    (h : encrypt c clock y manager bytes rng entropy = .ok (y', ciphertext, rng')) :
    ∃ o, y' = { y with theirPrekeyBundle := o } := by
  unfold encrypt at h
  split at h
  · split at h
    · obtain ⟨_, _, h⟩ := bind_eq_ok.mp h
      cases h
      exact ⟨none, rfl⟩
    · cases h
  · obtain ⟨_, _, h⟩ := bind_eq_ok.mp h
    cases h
    exact ⟨_, rfl⟩

theorem opens_of_encrypt {p : TwoPartyPlaintext} (hk : Addressed c y k)
    (hbts : codec.toBytes p = some bytes)
    (h : encrypt c clock y manager bytes rng entropy = .ok (y', ciphertext, rng')) :
    ∃ k', Opens KB c codec k ⟨ciphertext, y.theirNextKeyUsed⟩ p k' := by
  unfold encrypt at h
  cases hk with
  | preKey b hused hkey hbndl hholds =>
    obtain ⟨m, s, honetime⟩ := exists_onetimeSecret hholds
    rw [hkey] at h
    rw [hbndl] at h
    obtain ⟨⟨x3dh, rng1⟩, henc, h⟩ := bind_eq_ok.mp h
    cases h
    rw [hused]
    exact ⟨_, .preKey hholds honetime hbts (mapErr_eq_ok.mp henc)⟩
  | receivedKey s hused hkey hrecv =>
    rw [hkey] at h
    obtain ⟨sealed, hseal, h⟩ := bind_eq_ok.mp h
    cases h
    rw [hused]
    exact ⟨_, .receivedKey hrecv hbts (mapErr_eq_ok.mp hseal)⟩
  | ownKey i s hused hkey hown =>
    rw [hkey] at h
    obtain ⟨sealed, hseal, h⟩ := bind_eq_ok.mp h
    cases h
    rw [hused]
    exact ⟨_, .ownKey hown hbts (mapErr_eq_ok.mp hseal)⟩

theorem sent_of_send
    (h : send checks c codec clock y manager plaintext rng entropy = .ok (y', message, rng')) :
    ∃ p s bytes rng1 y1, p.plaintext = plaintext ∧ codec.toBytes p = some bytes ∧
      encrypt c clock y manager bytes rng1 entropy = .ok (y1, message.ciphertext, rng') ∧
      message.keyUsed = y.theirNextKeyUsed ∧ Sent checks c y y' p s ∧
      generateKeys rng = .ok (s, p.receiverNewSecret, rng1) := by
  obtain ⟨⟨ours, theirs, rng1⟩, hkeys, h⟩ := bind_eq_ok.mp h
  dsimp only at h
  split at h
  · rename_i bytes hbts
    obtain ⟨⟨y1, ciphertext, rng2⟩, henc, h⟩ := bind_eq_ok.mp h
    obtain ⟨next, hnext, h⟩ := bind_eq_ok.mp h
    obtain ⟨o, rfl⟩ := eq_of_encrypt henc
    cases h
    exact ⟨_, ours, bytes, rng1, _, rfl, hbts, henc, rfl,
      ⟨rfl, rfl, rfl, rfl, rfl, hnext, rfl, rfl⟩, hkeys⟩
  · cases h

theorem opens_of_send (hk : Addressed c y k)
    (h : send checks c codec clock y manager plaintext rng entropy = .ok (y', message, rng')) :
    ∃ p s k' rng1, p.plaintext = plaintext ∧ message.keyUsed = y.theirNextKeyUsed ∧
      Opens KB c codec k message p k' ∧ Sent checks c y y' p s ∧
      generateKeys rng = .ok (s, p.receiverNewSecret, rng1) := by
  obtain ⟨p, s, bytes, rng1, y1, hplain, hbts, henc, hused, hsent⟩ := sent_of_send h
  obtain ⟨k', hopens⟩ := opens_of_encrypt hk hbts henc
  rw [← hused] at hopens
  exact ⟨p, s, k', rng1, hplain, hused, hopens, hsent⟩

end P2Panda.Encryption.TwoParty
