import P2Panda.Encryption.TwoParty.Keyring

/-!
# Places of keys

A secret key is in one place only: an own key of a party, the key it was given last, or in a message
on its way. Receiving moves the keys on, and the one which opened the message is left behind.
-/

namespace P2Panda.Encryption.TwoParty

open P2Panda.Library P2Panda.Core List

inductive Place where
  | own (i : UInt64)
  | received
  | incoming (n : Nat)
  deriving DecidableEq

/-- Where a key is before a message is received. -/
def Place.before : Place → Place
  | own i => own i
  | received => incoming 0
  | incoming n => incoming (n + 1)

theorem Place.before_injective : Function.Injective Place.before := by
  intro a b h
  cases a <;> cases b <;> cases h <;> rfl

def usedPlace : KeyUsed → Option Place
  | .preKey => none
  | .receivedKey => some .received
  | .ownKey i => some (.own i)

/-- Keys at some places, all known and no two the same. -/
structure Apart (known : List PublicKey) (keys : Place → Option PublicKey) : Prop where
  known : ∀ a key, keys a = some key → key ∈ known
  eq : ∀ a b key, keys a = some key → keys b = some key → a = b

/-- What an event does with fresh keys and a spent place: each other key moves, or one is added. -/
inductive Moves (fresh : List PublicKey) (spent : Option Place)
    (keys keys' : Place → Option PublicKey) : Prop
  | move (f : Place → Place) : Function.Injective f →
      (∀ a key, keys' a = some key → keys (f a) = some key ∧ spent ≠ some (f a)) →
      Moves fresh spent keys keys'
  | add (a₀ : Place) (key₀ : PublicKey) : spent = none → key₀ ∈ fresh →
      (∀ a key, keys' a = some key → a = a₀ ∧ key = key₀ ∨ keys a = some key) →
      Moves fresh spent keys keys'

namespace Moves

variable {known fresh : List PublicKey} {spent : Option Place}
  {keys keys' : Place → Option PublicKey}

theorem refl : Moves fresh none keys keys :=
  .move id Function.injective_id fun _ _ h => ⟨h, (Option.some_ne_none _).symm⟩

theorem apart (h : Moves fresh spent keys keys') (hapart : Apart known keys)
    (hfresh : known.Disjoint fresh) : Apart (known ++ fresh) keys' := by
  cases h with
  | move f hf hkeys =>
    constructor
    · exact fun a key ha => mem_append_left _ (hapart.known _ _ (hkeys a key ha).1)
    · exact fun a b key ha hb => hf (hapart.eq _ _ key (hkeys a key ha).1 (hkeys b key hb).1)
  | add a0 key0 _ hkey0 hkeys =>
    have hnew : ∀ a, keys a ≠ some key0 := fun a ha => hfresh (hapart.known a key0 ha) hkey0
    constructor
    · intro a key ha
      obtain ⟨-, rfl⟩ | hold := hkeys a key ha
      · exact mem_append_right _ hkey0
      · exact mem_append_left _ (hapart.known a key hold)
    · intro a b key ha hb
      obtain ⟨rfl, rfl⟩ | hold := hkeys a key ha
      · obtain ⟨rfl, -⟩ | hold := hkeys b _ hb
        · rfl
        · exact absurd hold (hnew b)
      · obtain ⟨-, rfl⟩ | hold' := hkeys b key hb
        · exact absurd hold (hnew a)
        · exact hapart.eq a b key hold hold'

theorem gone (h : Moves fresh spent keys keys') {key : PublicKey}
    (hgone : ∀ a, keys a ≠ some key) (hfresh : key ∉ fresh) (a : Place) : keys' a ≠ some key := by
  intro ha
  cases h with
  | move f _ hkeys => exact hgone _ (hkeys a key ha).1
  | add a0 key0 _ hkey0 hkeys =>
    obtain ⟨-, rfl⟩ | hold := hkeys a key ha
    · exact hfresh hkey0
    · exact hgone a hold

theorem gone_spent {place : Place} (h : Moves fresh (some place) keys keys')
    (hapart : Apart known keys) {key : PublicKey} (hplace : keys place = some key) (a : Place) :
    keys' a ≠ some key := by
  intro ha
  cases h with
  | move f _ hkeys =>
    obtain ⟨hkey, hne⟩ := hkeys a key ha
    exact hne (congrArg some (hapart.eq _ _ key hplace hkey))
  | add _ _ hnone => cases hnone

end Moves

variable {KB Y ε : Type} [KeyBundle KB] [PreKeyManager Y ε]
variable {checks : Bool} {c : Primitives} {codec : PlaintextCodec}

/-- The key pairs a party holds, and those on their way to it. -/
def places (c : Primitives) (y : TwoPartyState KB) (contents : List TwoPartyPlaintext) :
    Place → Option PublicKey
  | .own i => (y.ourSecretKeys.lookup i).map c.verifyingKey
  | .received => y.ourReceivedSecretKey.map c.verifyingKey
  | .incoming n => contents[n]?.map fun x => c.verifyingKey x.receiverNewSecret

variable {y y₁ : TwoPartyState KB} {contents : List TwoPartyPlaintext} {x : TwoPartyPlaintext}
  {s : SecretKey} {manager manager1 : Y} {message : TwoPartyMessage}

omit [KeyBundle KB] in
theorem Sent.places_own (h : Sent checks c y y₁ x s) :
    Moves [c.verifyingKey s, c.verifyingKey x.receiverNewSecret] none (places c y contents)
      (places c y₁ contents) := by
  refine .add (.own y.ourNextKeyIndex) (c.verifyingKey s) rfl mem_cons_self ?_
  intro a key ha
  cases a with
  | own i =>
    rw [places, h.keys, HashMap.lookup_insert_ite] at ha
    split_ifs at ha with hi
    · cases ha
      exact Or.inl ⟨congrArg _ hi, rfl⟩
    · exact Or.inr ha
  | received =>
    rw [places, h.received] at ha
    exact Or.inr ha
  | incoming n => exact Or.inr ha

omit [KeyBundle KB] in
theorem places_concat (key : PublicKey) :
    Moves [key, c.verifyingKey x.receiverNewSecret] none (places c y contents)
      (places c y (contents ++ [x])) := by
  refine .add (.incoming contents.length) (c.verifyingKey x.receiverNewSecret) rfl
    (mem_cons_of_mem _ mem_cons_self) ?_
  intro a key ha
  cases a with
  | own i => exact Or.inr ha
  | received => exact Or.inr ha
  | incoming n =>
    rw [places, getElem?_append] at ha
    split_ifs at ha
    · exact Or.inr ha
    · refine Or.inl ?_
      have hlast : n - contents.length = 0 := by
        by_contra hne
        rw [getElem?_eq_none (Nat.one_le_iff_ne_zero.mpr hne)] at ha
        cases ha
      rw [hlast] at ha
      cases ha
      exact ⟨congrArg _ (by omega), rfl⟩

/-- The keys move on when a message is received, all but the one which opens it. -/
theorem Opens.moves (h : Opens KB c codec (keyring y manager) message x (keyring y₁ manager1))
    {a : Place} {key : PublicKey} (ha : places c y₁ contents a = some key) :
    places c y (x :: contents) a.before = some key ∧ usedPlace message.keyUsed ≠ some a.before := by
  cases a with
  | own i =>
    obtain ⟨s, hs, hkey⟩ := Option.map_eq_some_iff.mp ha
    have hown : (keyring y₁ manager1).own i = some s := hs
    refine ⟨Option.map_eq_some_iff.mpr ⟨s, h.own_subset hown, hkey⟩, ?_⟩
    cases hused : message.keyUsed with
    | preKey => simp [usedPlace]
    | receivedKey => simp [usedPlace, Place.before]
    | ownKey j =>
      intro hplace
      cases hplace
      cases hown.symm.trans (h.own_used hused)
  | received =>
    refine ⟨?_, ?_⟩
    · have hrecv : y₁.ourReceivedSecretKey = some x.receiverNewSecret := h.received_eq
      rw [places, hrecv] at ha
      exact ha
    · cases message.keyUsed <;> simp [usedPlace, Place.before]
  | incoming n =>
    refine ⟨ha, ?_⟩
    cases message.keyUsed <;> simp [usedPlace, Place.before]

/-- No own key is missing. -/
def Full (y : TwoPartyState KB) : Prop :=
  ∀ i, y.ourMinKeyIndex ≤ i → i < y.ourNextKeyIndex → (y.ourSecretKeys.lookup i).isSome

omit [KeyBundle KB] in
theorem Full.sent (h : Full y) (hsent : Sent checks c y y₁ x s)
    (hlt : y.ourNextKeyIndex < y₁.ourNextKeyIndex) : Full y₁ := by
  intro i hmin hi
  rw [hsent.min] at hmin
  rw [← overflowing_eq_ok hsent.next, ← UInt64.not_le, add_one_le_iff hlt, UInt64.not_lt] at hi
  rw [hsent.keys, HashMap.lookup_insert_ite]
  split_ifs with heq
  · rfl
  · exact h i hmin (UInt64.lt_of_le_of_ne hi heq)

omit [KeyBundle KB] in
theorem Full.received {plaintext : Bytes} (h : Full y) (hrange : InRange y)
    (hrcv : receive checks c codec y manager message = .ok (y₁, manager1, plaintext)) :
    Full y₁ := by
  obtain ⟨_, _, _, _, _, hdec, rfl⟩ := decrypt_of_receive hrcv
  obtain rfl | ⟨i, s, next, hs, hnext, rfl⟩ := state_of_decrypt hdec
  · exact h
  · have hi := hrange.keys i s hs
    rw [← overflowing_eq_ok hnext]
    intro j hmin hj
    have hlt : i < j := (add_one_le_iff hi.2).mp hmin
    rw [hrange.lookup_removeKeys hi.2, if_neg (UInt64.not_le.mpr hlt)]
    exact h j (UInt64.le_of_lt (UInt64.lt_of_le_of_lt hi.1 hlt)) hj

end P2Panda.Encryption.TwoParty
