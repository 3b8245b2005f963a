import P2Panda.Spaces.Introduction
import P2Panda.Spaces.Manager

/-!
# Registering members

Members are registered with key material from another channel. The errors of the verification are
dropped, and a second identity key panics.
-/

namespace P2Panda.Spaces.Manager

open P2Panda.Library Outcome P2Panda.Encryption KeyRegistry

variable {ID OP C φ : Type} [LinearOrder ID] [DecidableEq OP]
  (platform : Platform ID) (env : Surroundings ID OP C φ) (manager : Manager ID OP C)
  (member : Member ID)

def Registered : Prop :=
  ∃ bundles, manager.keyRegistry.longtermBundles.lookup member.id = some bundles ∧
    member.keyBundle ∈ bundles

/-- The call returns normally just if the member verifies and its bundle is registered afterwards.
Otherwise it returns an error, and the key registry stays. -/
def ReportsTruth : Prop :=
  let (result, manager') := manager.registerMember platform env member
  (result = .ok () ↔ member.verify platform env.clock = .ok () ∧ manager'.Registered member) ∧
  (result ≠ .ok () → (∃ e, result = .err e) ∧ manager'.keyRegistry = manager.keyRegistry)

variable {platform env manager member}

theorem verify_keyBundle_of_verify (h : member.verify platform env.clock = .ok ()) :
    KeyBundle.verify platform.primitives.toPrimitives env.clock member.keyBundle = .ok () := by
  obtain ⟨_, -, h⟩ := bind_eq_ok.mp h
  split at h
  · cases h
  · split_ifs at h
    exact mapErr_eq_ok.mp h

theorem processMember_of_matches (hver : member.verify platform env.clock = .ok ())
    (h : KeyRegistry.Matches manager.keyRegistry member.id member.keyBundle.identityKey) :
    ∃ pki, manager.processMember platform env member = .ok (pki, .member member) ∧
      ∃ bundles, pki.longtermBundles.lookup member.id = some bundles ∧
        member.keyBundle ∈ bundles := by
  rw [processMember, hver, addLongtermBundle, verify_keyBundle_of_verify hver,
    mapErr_ok, mapErr_ok, addIdentity_of_matches h]
  refine ⟨_, rfl, _, (HashMap.lookup_andModifyOrInsert ..).trans (if_pos rfl), ?_⟩
  cases manager.keyRegistry.longtermBundles.lookup member.id <;> simp

theorem processMember_of_not_matches (hver : member.verify platform env.clock = .ok ())
    (h : ¬KeyRegistry.Matches manager.keyRegistry member.id member.keyBundle.identityKey) :
    ∃ m, manager.processMember platform env member = .panic m := by
  rw [processMember, hver, addLongtermBundle, verify_keyBundle_of_verify hver,
    mapErr_ok, mapErr_ok, addIdentity_of_not_matches h]
  exact ⟨_, rfl⟩

theorem not_reportsTruth_of_panic {m : String}
    (h : manager.processMember platform env member = .panic m) :
    ¬manager.ReportsTruth platform env member := by
  rw [ReportsTruth, registerMember, h]
  rintro ⟨-, htruth⟩
  obtain ⟨⟨_, herr⟩, -⟩ := htruth (by rintro ⟨⟩)
  cases herr

/-- The result of registering a member is true just if the member verifies, with the identity key
which is registered already, if there is one. -/
theorem reportsTruth_iff (platform : Platform ID) (env : Surroundings ID OP C φ)
    (manager : Manager ID OP C) (member : Member ID) :
    manager.ReportsTruth platform env member ↔
      member.verify platform env.clock = .ok () ∧
      ∀ key, manager.keyRegistry.identities.lookup member.id = some key →
        key = member.keyBundle.identityKey := by
  cases hver : member.verify platform env.clock with
  | ok =>
    by_cases hmtch : Matches manager.keyRegistry member.id member.keyBundle.identityKey
    · obtain ⟨pki, hok, hregd⟩ := processMember_of_matches hver hmtch
      refine iff_of_true ?_ ⟨rfl, hmtch⟩
      rw [ReportsTruth, registerMember, hok]
      exact ⟨iff_of_true rfl ⟨hver, hregd⟩, fun hne => absurd rfl hne⟩
    · obtain ⟨m, hpan⟩ := processMember_of_not_matches hver hmtch
      exact iff_of_false (not_reportsTruth_of_panic hpan) fun h => hmtch h.2
  | err e =>
    refine iff_of_false (fun htruth => ?_) (by rintro ⟨⟨⟩, -⟩)
    rw [ReportsTruth, registerMember, processMember, hver] at htruth
    have := (htruth.1.mp rfl).1
    cases this
  | panic m =>
    have hpan : manager.processMember platform env member = .panic m := by
      rw [processMember, hver]
      rfl
    exact iff_of_false (not_reportsTruth_of_panic hpan) (by rintro ⟨⟨⟩, -⟩)

/-- The bundle of a member has expired. -/
theorem not_reportsTruth_expired :
    ¬(sampleSpaceManager 1 sampleSpace).ReportsTruth samplePlatform
      { sampleEnv with clock := some 20 }
      ⟨0, sampleLongTermBundle, TwoParty.sampleSignature, ⟨Vector.replicate 64 0⟩⟩ := by
  intro htruth
  have := (htruth.1.mp rfl).1
  cases this

end P2Panda.Spaces.Manager
