import P2Panda.Encryption.MessageScheme.Dcgka
import P2Panda.Encryption.TwoParty.Link

/-!
# Key registry

Public keys of other members: their identity keys, one-time bundles which are handed out once, and
long-term bundles of which the latest is chosen.
-/

namespace P2Panda.Encryption

open P2Panda.Library TwoParty Outcome

structure KeyRegistryState (ID : Type) where
  identities : HashMap ID PublicKey
  onetimeBundles : HashMap ID (List OneTimeKeyBundle)
  longtermBundles : HashMap ID (List LongTermKeyBundle)

inductive KeyRegistryError where
  | keyBundle (error : KeyBundleError)
  | keyBundlesExpired
  deriving DecidableEq, Repr

def laterKeyBundle (clock : Clock) (latest : Option LongTermKeyBundle)
    (bundle : LongTermKeyBundle) : Option LongTermKeyBundle :=
  if (bundle.signedPrekey.lifetime.verify clock).IsOk then
    match latest with
    | some currentBundle =>
      -- lifetimes are compared by their ends
      if bundle.signedPrekey.lifetime.notAfter > currentBundle.signedPrekey.lifetime.notAfter then
        some bundle
      else latest
    | none => some bundle
  else latest

def latestKeyBundle (clock : Clock) (bundles : List LongTermKeyBundle) :
    Option LongTermKeyBundle :=
  bundles.foldl (laterKeyBundle clock) none

namespace KeyRegistry

variable {ID : Type} [DecidableEq ID]

def init : KeyRegistryState ID := ⟨∅, ∅, ∅⟩

def addIdentity (y : KeyRegistryState ID) (id : ID) (identityKey : PublicKey) :
    Outcome KeyRegistryError (KeyRegistryState ID) :=
  if (y.identities.lookup id).any fun existing => decide (existing ≠ identityKey) then
    .panic "assertion `left == right` failed"
  else .ok { y with identities := y.identities.insert id identityKey }

def addLongtermBundle (c : Primitives) (clock : Clock) (y : KeyRegistryState ID) (id : ID)
    (keyBundle : LongTermKeyBundle) : Outcome KeyRegistryError (KeyRegistryState ID) := do
  (KeyBundle.verify c clock keyBundle).mapErr .keyBundle
  let y ← addIdentity y id keyBundle.identityKey
  return { y with
    longtermBundles := y.longtermBundles.andModifyOrInsert id (· ++ [keyBundle]) [keyBundle] }

def addOnetimeBundle (c : Primitives) (clock : Clock) (y : KeyRegistryState ID) (id : ID)
    (keyBundle : OneTimeKeyBundle) : Outcome KeyRegistryError (KeyRegistryState ID) := do
  (KeyBundle.verify c clock keyBundle).mapErr .keyBundle
  let y ← addIdentity y id keyBundle.identityKey
  return { y with
    onetimeBundles := y.onetimeBundles.andModifyOrInsert id (· ++ [keyBundle]) [keyBundle] }

def removeExpired (c : Primitives) (clock : Clock) (y : KeyRegistryState ID) :
    KeyRegistryState ID where
  identities := y.identities
  longtermBundles := y.longtermBundles.modifyAll y.longtermBundles.keys
    (List.filter fun bundle => (KeyBundle.verify c clock bundle).IsOk)
  onetimeBundles := y.onetimeBundles.modifyAll y.onetimeBundles.keys
    (List.filter fun bundle => (KeyBundle.verify c clock bundle).IsOk)

def onetimeKeyBundle (y : KeyRegistryState ID) (id : ID) :
    KeyRegistryState ID × Option OneTimeKeyBundle :=
  ({ y with onetimeBundles := y.onetimeBundles.andModify id List.dropLast },
    (y.onetimeBundles.lookup id).bind List.getLast?)

def longtermKeyBundle (clock : Clock) (y : KeyRegistryState ID) (id : ID) :
    Outcome KeyRegistryError (KeyRegistryState ID × Option LongTermKeyBundle) :=
  match y.longtermBundles.lookup id with
  | none => .ok (y, none)
  | some bundles =>
    let validBundle := latestKeyBundle clock bundles
    -- Even though key bundles are available we couldn't find any non-expired ones.
    if bundles ≠ [] ∧ validBundle = none then .err .keyBundlesExpired else .ok (y, validBundle)

def identityKey (y : KeyRegistryState ID) (id : ID) : Option PublicKey := y.identities.lookup id

end KeyRegistry

instance {ID : Type} [DecidableEq ID] :
    MessageScheme.KeyRegistry (KeyRegistryState ID) ID Empty where
  identityKey y id := .ok (KeyRegistry.identityKey y id)
  keyBundle y id := .ok (KeyRegistry.onetimeKeyBundle y id)

/-- A call which adds a bundle, and its time. -/
inductive Registration (ID : Type) where
  | longterm (clock : Clock) (id : ID) (keyBundle : LongTermKeyBundle)
  | onetime (clock : Clock) (id : ID) (keyBundle : OneTimeKeyBundle)

namespace Registration

variable {ID : Type}

def id : Registration ID → ID
  | longterm _ id _ => id
  | onetime _ id _ => id

def identityKey : Registration ID → PublicKey
  | longterm _ _ keyBundle => keyBundle.identityKey
  | onetime _ _ keyBundle => keyBundle.identityKey

def Verifies (c : Primitives) : Registration ID → Prop
  | longterm clock _ keyBundle => KeyBundle.verify c clock keyBundle = .ok ()
  | onetime clock _ keyBundle => KeyBundle.verify c clock keyBundle = .ok ()

variable [DecidableEq ID]

def apply (c : Primitives) (y : KeyRegistryState ID) :
    Registration ID → Outcome KeyRegistryError (KeyRegistryState ID)
  | longterm clock id keyBundle => KeyRegistry.addLongtermBundle c clock y id keyBundle
  | onetime clock id keyBundle => KeyRegistry.addOnetimeBundle c clock y id keyBundle

end Registration

namespace KeyRegistry

variable {ID : Type} [DecidableEq ID] {c : Primitives} {y y' : KeyRegistryState ID}
  {id : ID} {key : PublicKey} {registration : Registration ID}
  {registrations : List (Registration ID)}

/-- No call panics, and the identity keys stay as they are. -/
def Tolerates (c : Primitives) : KeyRegistryState ID → List (Registration ID) → Prop
  | _, [] => True
  | y, registration :: registrations =>
    match registration.apply c y with
    | .ok y' => (∀ id key, y.identities.lookup id = some key → y'.identities.lookup id = some key) ∧
      Tolerates c y' registrations
    | .err _ => Tolerates c y registrations
    | .panic _ => False

/-- The identity key is the registered one, if there is one. -/
def Matches (y : KeyRegistryState ID) (id : ID) (key : PublicKey) : Prop :=
  ∀ existing, y.identities.lookup id = some existing → existing = key

theorem addIdentity_of_matches (h : Matches y id key) :
    addIdentity y id key = .ok { y with identities := y.identities.insert id key } := by
  unfold Matches at h
  apply if_neg
  simpa [Option.any_eq_true] using h

theorem addIdentity_of_not_matches (h : ¬Matches y id key) :
    addIdentity y id key = .panic "assertion `left == right` failed" := by
  unfold Matches at h
  apply if_pos
  simpa [Option.any_eq_true] using h

theorem apply_of_verifies (y : KeyRegistryState ID) (h : registration.Verifies c) :
    ∃ store : KeyRegistryState ID → KeyRegistryState ID,
      (∀ y, (store y).identities = y.identities) ∧
      registration.apply c y =
        (addIdentity y registration.id registration.identityKey >>= fun y => .ok (store y)) := by
  cases registration with
  | longterm clock id keyBundle =>
    rw [Registration.apply, addLongtermBundle, h]
    refine ⟨_, ?_, rfl⟩
    exact fun _ => rfl
  | onetime clock id keyBundle =>
    rw [Registration.apply, addOnetimeBundle, h]
    refine ⟨_, ?_, rfl⟩
    exact fun _ => rfl

theorem lookup_of_matches (h : Matches y id key)
    (hids : y'.identities = y.identities.insert id key) {id' : ID} {key' : PublicKey}
    (hlook : y.identities.lookup id' = some key') : y'.identities.lookup id' = some key' := by
  rw [hids, HashMap.lookup_insert_ite]
  split_ifs with heq
  · subst heq
    rw [h key' hlook]
  · exact hlook

theorem matches_of_matches (h : Matches y id key)
    (hids : y'.identities = y.identities.insert id key) {id' : ID} {key' : PublicKey} :
    Matches y' id' key' ↔ Matches y id' key' ∧ (id = id' → key = key') := by
  unfold Matches
  rw [hids, HashMap.lookup_insert_ite]
  split_ifs with heq
  · subst heq
    constructor
    · intro hkey
      cases hkey key rfl
      exact ⟨h, fun _ => rfl⟩
    · rintro ⟨-, hkey⟩ _ ⟨⟩
      exact hkey rfl
  · exact (and_iff_left fun heq' => absurd heq'.symm heq).symm

theorem tolerates_cons_of_matches (hvfy : registration.Verifies c)
    (h : Matches y registration.id registration.identityKey) :
    ∃ y' : KeyRegistryState ID,
      y'.identities = y.identities.insert registration.id registration.identityKey ∧
      (Tolerates c y (registration :: registrations) ↔ Tolerates c y' registrations) := by
  obtain ⟨store, hstore, happly⟩ := apply_of_verifies y hvfy
  rw [addIdentity_of_matches h] at happly
  refine ⟨store { y with identities := y.identities.insert _ _ }, hstore _, ?_⟩
  rw [Tolerates, happly]
  exact and_iff_right fun _ _ => lookup_of_matches h (hstore _)

theorem not_tolerates_cons (hvfy : registration.Verifies c)
    (h : ¬Matches y registration.id registration.identityKey) :
    ¬Tolerates c y (registration :: registrations) := by
  obtain ⟨store, -, happly⟩ := apply_of_verifies y hvfy
  rw [addIdentity_of_not_matches h] at happly
  rw [Tolerates, happly]
  exact id

/-- Verified bundles are tolerated just if all bundles of a member have the same identity key, the
one which is registered for them. -/
theorem tolerates_iff (c : Primitives) (y : KeyRegistryState ID)
    (registrations : List (Registration ID)) (h : ∀ r ∈ registrations, r.Verifies c) :
    Tolerates c y registrations ↔ (∀ r ∈ registrations, Matches y r.id r.identityKey) ∧
      registrations.Pairwise fun r r' => r.id = r'.id → r.identityKey = r'.identityKey := by
  induction registrations generalizing y with
  | nil => simp [Tolerates]
  | cons registration registrations ih =>
    rw [List.forall_mem_cons] at h
    rw [List.forall_mem_cons, List.pairwise_cons]
    by_cases hmtch : Matches y registration.id registration.identityKey
    · obtain ⟨y', hids, hstep⟩ := tolerates_cons_of_matches h.1 hmtch
      rw [hstep, ih y' h.2]
      simp only [matches_of_matches hmtch hids, forall_and, hmtch, true_and, and_assoc]
    · exact iff_of_false (not_tolerates_cons h.1 hmtch) fun hall => hmtch hall.1.1

def sampleRegistration (id : Nat) (byte : UInt8) : Registration Nat :=
  .longterm (some 5) id
    ⟨samplePrimitives.verifyingKey (sampleKey byte), samplePrekey .alice, sampleSignature⟩

theorem verifies_sampleRegistration (id : Nat) (byte : UInt8) :
    (sampleRegistration id byte).Verifies samplePrimitives := rfl

theorem matches_init (id : ID) (key : PublicKey) : Matches init id key := by
  rintro _ ⟨⟩

/-- A peer announces another identity key for a member who is known. -/
theorem not_tolerates_second_identity :
    let registrations := [sampleRegistration 0 1, sampleRegistration 0 2]
    (∀ r ∈ registrations, r.Verifies samplePrimitives) ∧
      ¬Tolerates samplePrimitives init registrations := by
  refine ⟨by simp [verifies_sampleRegistration], fun h => ?_⟩
  obtain ⟨y, hids, hstep⟩ :=
    tolerates_cons_of_matches (verifies_sampleRegistration 0 1) (matches_init _ _)
  refine not_tolerates_cons (verifies_sampleRegistration 0 2) (fun hmtch => ?_) (hstep.mp h)
  have hsame := hmtch _ (by rw [hids]; exact Finmap.lookup_insert _)
  exact absurd hsame (by decide)

theorem tolerates_two_members :
    let registrations := [sampleRegistration 0 1, sampleRegistration 1 2]
    (∀ r ∈ registrations, r.Verifies samplePrimitives) ∧
      Tolerates samplePrimitives init registrations := by
  intro registrations
  have hvfy : ∀ r ∈ registrations, r.Verifies samplePrimitives := by
    simp [registrations, verifies_sampleRegistration]
  refine ⟨hvfy, (tolerates_iff _ _ _ hvfy).mpr ⟨fun _ _ => matches_init _ _, ?_⟩⟩
  simp [registrations, sampleRegistration, Registration.id]

/-- The one-time bundles added and handed out up to a state. A call which fails or finds no bundle
changes nothing. -/
inductive Serves (c : Primitives) : KeyRegistryState ID →
    List (ID × OneTimeKeyBundle) → List (ID × OneTimeKeyBundle) → Prop
  | init : Serves c init [] []
  | addOnetime {y y' added handed clock id b} : Serves c y added handed →
      addOnetimeBundle c clock y id b = .ok y' → Serves c y' ((id, b) :: added) handed
  | addLongterm {y y' added handed clock id b} : Serves c y added handed →
      addLongtermBundle c clock y id b = .ok y' → Serves c y' added handed
  | removeExpired {y added handed} (clock : Clock) :
      Serves c y added handed → Serves c (removeExpired c clock y) added handed
  | handOut {y y' added handed id b} : Serves c y added handed →
      onetimeKeyBundle y id = (y', some b) → Serves c y' added ((id, b) :: handed)

def kept (y : KeyRegistryState ID) (id : ID) : List OneTimeKeyBundle :=
  (y.onetimeBundles.lookup id).getD []

theorem onetimeBundles_addIdentity (h : addIdentity y id key = .ok y') :
    y'.onetimeBundles = y.onetimeBundles := by
  unfold addIdentity at h
  split_ifs at h
  cases h
  rfl

variable {clock : Clock} {b : OneTimeKeyBundle}

theorem kept_addOnetimeBundle (h : addOnetimeBundle c clock y id b = .ok y') (id' : ID) :
    kept y' id' = if id' = id then kept y id ++ [b] else kept y id' := by
  obtain ⟨-, -, h⟩ := bind_eq_ok.mp h
  obtain ⟨z, hz, ⟨⟩⟩ := bind_eq_ok.mp h
  simp only [kept, onetimeBundles_addIdentity hz, HashMap.lookup_andModifyOrInsert]
  split_ifs
  · cases y.onetimeBundles.lookup id <;> rfl
  · rfl

theorem kept_addLongtermBundle {b : LongTermKeyBundle}
    (h : addLongtermBundle c clock y id b = .ok y') : kept y' = kept y := by
  obtain ⟨-, -, h⟩ := bind_eq_ok.mp h
  obtain ⟨z, hz, ⟨⟩⟩ := bind_eq_ok.mp h
  unfold kept
  rw [← onetimeBundles_addIdentity hz]

theorem kept_removeExpired (id : ID) :
    (kept (removeExpired c clock y) id).Sublist (kept y id) := by
  unfold kept
  cases h : (removeExpired c clock y).onetimeBundles.lookup id with
  | none => exact List.nil_sublist _
  | some bundles =>
    obtain ⟨before, hlook, rfl⟩ := HashMap.lookup_modifyAll h
    rw [hlook]
    split_ifs
    · exact List.filter_sublist
    · exact List.Sublist.refl _

theorem kept_onetimeKeyBundle (h : onetimeKeyBundle y id = (y', some b)) (id' : ID) :
    kept y id' = if id' = id then kept y' id ++ [b] else kept y' id' := by
  obtain ⟨rfl, hpop⟩ := Prod.mk.inj h
  obtain ⟨bundles, hlook, hlast⟩ := Option.bind_eq_some_iff.mp hpop
  simp only [kept, HashMap.lookup_andModify]
  split_ifs with heq
  · rw [heq, hlook]
    exact (List.dropLast_append_getLast? b hlast).symm
  · rfl

/-- No one-time bundle is handed out more often than it was added. -/
theorem count_handed_le {added handed : List (ID × OneTimeKeyBundle)}
    (h : Serves c y added handed) (id : ID) (b : OneTimeKeyBundle) :
    handed.count (id, b) + (kept y id).count b ≤ added.count (id, b) := by
  induction h with
  | init => exact Nat.zero_le _
  | addOnetime _ hadd ih =>
    rw [kept_addOnetimeBundle hadd]
    grind
  | addLongterm _ hadd ih => rwa [kept_addLongtermBundle hadd]
  | removeExpired clock _ ih =>
    exact (Nat.add_le_add_left ((kept_removeExpired id).count_le b) _).trans ih
  | handOut _ hout ih =>
    rw [kept_onetimeKeyBundle hout] at ih
    grind

theorem count_handed_le_sample : ∃ (b : OneTimeKeyBundle) (y : KeyRegistryState Nat),
    Serves samplePrimitives y [(0, b)] [(0, b)] ∧ b ∉ kept y 0 := by
  obtain ⟨y, hadd, hout⟩ : ∃ y, addOnetimeBundle samplePrimitives (some 5) init 0
      (sampleBundle .alice) = .ok y ∧ (onetimeKeyBundle y 0).2 = some (sampleBundle .alice) :=
    ⟨_, rfl, rfl⟩
  have h := (Serves.init.addOnetime hadd).handOut (Prod.ext rfl hout)
  have hle := count_handed_le h 0 (sampleBundle .alice)
  rw [List.count_singleton_self] at hle
  exact ⟨_, _, h, List.count_eq_zero.mp (by omega)⟩

end KeyRegistry

end P2Panda.Encryption
