import P2Panda.Encryption.TwoParty.Link

/-!
# One-time pre-keys

A one-time pre-key gets the next number of a counter. It starts again when a manager is initialised
from stored pre-keys, so only one of these managers may give out numbers.
-/

namespace P2Panda.Encryption.KeyManager

open P2Panda.Library Outcome List

variable {checks : Bool} {c : Primitives} {identitySecret : SecretKey} {s : Session}

/-- What a key manager has issued and used since it was initialised. -/
structure Session where
  state : KeyManagerState
  issued : List OneTimePreKeyId
  used : List OneTimePreKeyId

/-- The sessions of an identity. A failed call leaves the state as it is. -/
inductive Session.Reachable (checks : Bool) (c : Primitives) (identitySecret : SecretKey) :
    Session → Prop
  | init (prekeys : HashMap PreKeyId PreKeyBundle) :
      Reachable checks c identitySecret ⟨initFromPrekeyBundles c identitySecret prekeys, [], []⟩
  | rotate {y y' issued used lifetime rng rng'} :
      Reachable checks c identitySecret ⟨y, issued, used⟩ →
      rotatePrekey c y lifetime rng = .ok (y', rng') →
      Reachable checks c identitySecret ⟨y', issued, used⟩
  | generate {y y' issued used clock order rng b key rng'} :
      Reachable checks c identitySecret ⟨y, issued, used⟩ →
      generateOnetimeBundle checks c clock order y rng = .ok (y', b, rng') →
      b.onetimePrekey = some key →
      Reachable checks c identitySecret ⟨y', issued ++ [key.id], used⟩
  | use {y y' issued used id secret} :
      Reachable checks c identitySecret ⟨y, issued, used⟩ →
      useOnetimeSecret y id = .ok (y', some secret) →
      Reachable checks c identitySecret ⟨y', issued, used ++ [id]⟩
  | removeExpired {y issued used} (clock : Clock) :
      Reachable checks c identitySecret ⟨y, issued, used⟩ →
      Reachable checks c identitySecret ⟨removeExpired clock y, issued, used⟩

/-- No number is issued twice, and no secret given out twice. -/
structure SingleUse (sessions : List Session) : Prop where
  issued : (sessions.flatMap Session.issued).Nodup
  used : (sessions.flatMap Session.used).Nodup

theorem generateOnetimeBundle_eq_ok {y y' : KeyManagerState} {clock : Clock}
    {order : HashOrder PreKeyId} {rng rng' : Rng} {b : OneTimeKeyBundle}
    (h : generateOnetimeBundle checks c clock order y rng = .ok (y', b, rng')) :
    b.onetimePrekey.map OneTimePreKey.id = some y.onetimeNextId ∧
      y'.onetimeNextId = y.onetimeNextId + 1 ∧
      ∃ secret, y'.onetimeSecrets = y.onetimeSecrets.insert y.onetimeNextId secret := by
  obtain ⟨o, -, h⟩ := bind_eq_ok.mp h
  cases o with
  | none => cases h
  | some latest =>
    obtain ⟨⟨bytes, rng1⟩, -, h⟩ := bind_eq_ok.mp h
    dsimp only at h
    split_ifs at h
    obtain ⟨next, hnext, h⟩ := bind_eq_ok.mp h
    cases h
    exact ⟨rfl, (overflowing_eq_ok hnext).symm, _, rfl⟩

theorem Session.Reachable.counted (h : s.Reachable checks c identitySecret) :
    s.issued = (List.range s.issued.length).map UInt64.ofNat ∧
      s.state.onetimeNextId = UInt64.ofNat s.issued.length := by
  induction h with
  | init prekeys => exact ⟨rfl, rfl⟩
  | rotate _ hrotate ih =>
    obtain ⟨prekey, -, hrotate⟩ := bind_eq_ok.mp hrotate
    cases hrotate
    exact ih
  | generate _ hgen hkey ih =>
    obtain ⟨hid, hnext, -⟩ := generateOnetimeBundle_eq_ok hgen
    rw [hkey, Option.map_some, Option.some.injEq] at hid
    rw [length_append, length_singleton, range_succ, map_append, hid, ← ih.1, hnext, ih.2]
    exact ⟨rfl, (UInt64.ofNat_add _ 1).symm⟩
  | use _ huse ih =>
    unfold useOnetimeSecret at huse
    split at huse
    · cases huse
      exact ih
    · cases huse
  | removeExpired clock _ ih => exact ih

/-- When numbers are issued once, a secret is held for those not used. -/
theorem Session.Reachable.once (h : s.Reachable checks c identitySecret)
    (hissued : s.issued.Nodup) :
    s.used.Nodup ∧ s.used ⊆ s.issued ∧ ∀ id secret,
      s.state.onetimeSecrets.lookup id = some secret → id ∈ s.issued ∧ id ∉ s.used := by
  induction h with
  | init prekeys =>
    refine ⟨nodup_nil, nil_subset _, fun id secret hheld => ?_⟩
    cases (Finmap.lookup_empty id).symm.trans hheld
  | rotate _ hrotate ih =>
    obtain ⟨prekey, -, hrotate⟩ := bind_eq_ok.mp hrotate
    cases hrotate
    exact ih hissued
  | generate _ hgen hkey ih =>
    obtain ⟨hid, -, secret, hsecs⟩ := generateOnetimeBundle_eq_ok hgen
    rw [hkey, Option.map_some, Option.some.injEq] at hid
    obtain ⟨hissued, -, hnew⟩ := nodup_append.mp hissued
    obtain ⟨hnd, hsub, hheld⟩ := ih hissued
    refine ⟨hnd, subset_append_of_subset_left _ hsub, fun id secret hlook => ?_⟩
    rw [hsecs, ← hid, HashMap.lookup_insert_ite] at hlook
    split at hlook
    · rename_i heq
      rw [heq]
      refine ⟨mem_append_right _ (mem_singleton_self _), fun hmem => ?_⟩
      exact hnew _ (hsub hmem) _ (mem_singleton_self _) rfl
    · obtain ⟨hmem, hunused⟩ := hheld id secret hlook
      exact ⟨mem_append_left _ hmem, hunused⟩
  | use _ huse ih =>
    obtain ⟨hnd, hsub, hheld⟩ := ih hissued
    unfold useOnetimeSecret at huse
    split at huse
    · rename_i hlook
      cases huse
      obtain ⟨hmem, hunused⟩ := hheld _ _ hlook
      refine ⟨hnd.append (nodup_singleton _) (by simpa using hunused),
        append_subset.mpr ⟨hsub, by simpa using hmem⟩, fun id' secret' hlookup' => ?_⟩
      rw [HashMap.lookup_erase_ite] at hlookup'
      split at hlookup'
      · cases hlookup'
      · rename_i hne
        obtain ⟨hmem', hunused'⟩ := hheld _ _ hlookup'
        exact ⟨hmem', by simp [hunused', hne]⟩
    · cases huse
  | removeExpired clock _ ih =>
    obtain ⟨hnd, hsub, hheld⟩ := ih hissued
    refine ⟨hnd, hsub, fun id secret hlook => ?_⟩
    exact hheld id secret (HashMap.lookup_filter_eq_some.mp hlook).1

theorem nodup_range_map_iff (n : Nat) : ((List.range n).map UInt64.ofNat).Nodup ↔ n ≤ 2 ^ 64 := by
  rw [nodup_map_iff_inj_on nodup_range]
  constructor
  · intro hinj
    by_contra hlt
    have hzero := hinj 0 (mem_range.mpr (by omega)) (2 ^ 64) (mem_range.mpr (by omega)) rfl
    cases hzero
  · intro hle i hi j hj heq
    rw [mem_range] at hi hj
    have hmod := congrArg UInt64.toNat heq
    rwa [UInt64.toNat_ofNat_of_lt' (Nat.lt_of_lt_of_le hi hle),
      UInt64.toNat_ofNat_of_lt' (Nat.lt_of_lt_of_le hj hle)] at hmod

theorem Session.Reachable.nodup_iff (h : s.Reachable checks c identitySecret) :
    s.issued.Nodup ↔ s.issued.length ≤ 2 ^ 64 := by
  rw [h.counted.1, nodup_range_map_iff, length_map, length_range]

theorem Session.Reachable.disjoint_iff {s s' : Session} (h : s.Reachable checks c identitySecret)
    (h' : s'.Reachable checks c identitySecret) :
    s.issued.Disjoint s'.issued ↔ s.issued = [] ∨ s'.issued = [] := by
  have hfst {s : Session} (h : s.Reachable checks c identitySecret) (hne : s.issued ≠ []) :
      0 ∈ s.issued := by
    rw [h.counted.1]
    exact mem_map.mpr ⟨0, mem_range.mpr (length_pos_iff.mpr hne), rfl⟩
  constructor
  · intro hdisj
    by_contra hne
    rw [not_or] at hne
    exact hdisj (hfst h hne.1) (hfst h' hne.2)
  · rintro (hnil | hnil)
    · rw [hnil]
      exact disjoint_nil_left _
    · rw [hnil]
      exact disjoint_nil_right _

/-- One-time pre-keys are used once just if they are issued in one session only, and not more of
them than there are numbers. -/
theorem singleUse_iff (checks : Bool) (c : Primitives) (identitySecret : SecretKey)
    (sessions : List Session) (h : ∀ s ∈ sessions, s.Reachable checks c identitySecret) :
    SingleUse sessions ↔ (∀ s ∈ sessions, s.issued.length ≤ 2 ^ 64) ∧
      sessions.Pairwise fun s s' => s.issued = [] ∨ s'.issued = [] := by
  have hissued : (sessions.flatMap Session.issued).Nodup ↔
      (∀ s ∈ sessions, s.issued.length ≤ 2 ^ 64) ∧
        sessions.Pairwise fun s s' => s.issued = [] ∨ s'.issued = [] := by
    rw [nodup_flatMap]
    refine and_congr (forall₂_congr fun s hs => (h s hs).nodup_iff) ?_
    exact List.Pairwise.iff_of_mem fun hs hs' => (h _ hs).disjoint_iff (h _ hs')
  rw [← hissued]
  refine ⟨SingleUse.issued, fun hnd => ⟨hnd, ?_⟩⟩
  rw [nodup_flatMap] at hnd ⊢
  refine ⟨fun s hs => ((h s hs).once (hnd.1 s hs)).1, ?_⟩
  apply hnd.2.imp_of_mem
  intro s s' hs hs' hdisj id hid hid'
  exact hdisj (((h s hs).once (hnd.1 s hs)).2.1 hid) (((h s' hs').once (hnd.1 s' hs')).2.1 hid')

section Sample

open TwoParty

/-- Two bundles are issued, and one of them is used. -/
theorem exists_reachable_used : ∃ state,
    Session.Reachable true samplePrimitives (sampleKey 3) ⟨state, [0, 1], [0]⟩ := by
  let order : HashOrder PreKeyId := ⟨Finset.toList, Finset.nodup_toList, Finset.mem_toList⟩
  have hents : (sampleManager .alice).prekeys.entries order =
      [((samplePrekey .alice).key, ⟨samplePrekey .alice, sampleSignature, sampleKey 1⟩)] := by
    simp [HashMap.entries, sampleManager]
  have hlat : latest (some 5) order (sampleManager .alice).prekeys =
      .ok (some ⟨samplePrekey .alice, sampleSignature, sampleKey 1⟩) := by
    rw [latest, hents]
    rfl
  -- the pre-keys stay as they are
  have hgen : ∃ y b rng, generateOnetimeBundle true samplePrimitives (some 5) order
      (initFromPrekeyBundles samplePrimitives (sampleKey 3) (sampleManager .alice).prekeys)
      ⟨false, List.replicate 32 1⟩ = .ok (y, b, rng) ∧
        b.onetimePrekey = some ⟨samplePrimitives.verifyingKey (sampleKey 1), 0⟩ ∧
      ∃ y' b' rng', generateOnetimeBundle true samplePrimitives (some 5) order y
        ⟨false, List.replicate 32 2⟩ = .ok (y', b', rng') ∧
          b'.onetimePrekey = some ⟨samplePrimitives.verifyingKey (sampleKey 2), 1⟩ ∧
        ∃ y'' secret, useOnetimeSecret y' 0 = .ok (y'', some secret) := by
    rw [generateOnetimeBundle, initFromPrekeyBundles, hlat]
    refine ⟨_, _, _, rfl, rfl, ?_⟩
    rw [generateOnetimeBundle, hlat]
    exact ⟨_, _, _, rfl, rfl, _, _, rfl⟩
  obtain ⟨y, b, rng, hgen, hkey, y', b', rng', hgen', hkey', y'', secret, huse⟩ := hgen
  exact ⟨y'', .use (.generate (.generate (.init _) hgen hkey) hgen' hkey') huse⟩

/-- A manager is initialised again from the same pre-keys. -/
theorem not_singleUse_restarted : ∃ s : Session,
    s.Reachable true samplePrimitives (sampleKey 3) ∧ ¬SingleUse [s, s] := by
  obtain ⟨state, h⟩ := exists_reachable_used
  refine ⟨_, h, fun hsingle => ?_⟩
  have hnd : ([0, 1, 0, 1] : List OneTimePreKeyId).Nodup := hsingle.issued
  revert hnd
  decide

theorem singleUse_single : ∃ s : Session, s.Reachable true samplePrimitives (sampleKey 3) ∧
    s.issued = [0, 1] ∧ s.used = [0] ∧ SingleUse [s] := by
  obtain ⟨state, h⟩ := exists_reachable_used
  refine ⟨_, h, rfl, rfl, (singleUse_iff true samplePrimitives (sampleKey 3) [_] ?_).mpr ?_⟩
  · exact fun s hs => mem_singleton.mp hs ▸ h
  · simp

end Sample

end P2Panda.Encryption.KeyManager
