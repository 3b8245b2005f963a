import Mathlib.Data.Nat.Digits.Defs
import P2Panda.Encryption.DataScheme.Dcgka
import P2Panda.Encryption.TwoParty.Link

/-!
# Bundles of different members

Members learn the secrets of a group in different orders. Their bundles are the same if a secret
comes with the same timestamp each time.
-/

namespace P2Panda.Encryption.DataScheme

open P2Panda.Library Outcome P2Panda.Core SecretBundle SecretBundleState HashMap Multiset

variable {checks : Bool} {c : DataPrimitives} {order order' : HashOrder GroupSecretId}
  {secret : GroupSecret} {m : HashMap GroupSecretId GroupSecret}

/-! ## Generated secrets -/

section Generated

variable {y : SecretBundleState} {rng rng' : Rng} {now : UInt64}
  {bytes : Vector UInt8 GROUP_SECRET_SIZE}

/-- A secret is generated and becomes the latest one. -/
def BecomesLatest (checks : Bool) (c : DataPrimitives) (clock : Clock)
    (order : HashOrder GroupSecretId) (y : SecretBundleState) (rng : Rng) : Prop :=
  (SecretBundle.generate checks clock y rng).Returns fun (secret, _) =>
    (SecretBundle.insert c order y secret).latest = some secret

theorem generate_eq (hrng : rng.randomArray GROUP_SECRET_SIZE = .ok (bytes, rng')) :
    SecretBundle.generate checks (some now) y rng =
      if now ≤ y.latestTimestamp then do
        let timestamp ← addU64 checks y.latestTimestamp 1
        return (⟨⟨bytes⟩, timestamp⟩, rng')
      else .ok (⟨⟨bytes⟩, now⟩, rng') := by
  rw [generate, GroupSecret.fromRng, hrng]
  rfl

theorem latest_generated_iff (c : DataPrimitives) (order : HashOrder GroupSecretId)
    (hrng : rng.randomArray GROUP_SECRET_SIZE = .ok (bytes, rng'))
    (hfresh : y.contains (c.sha256 bytes.toList) = false) {rng'' : Rng}
    (h : SecretBundle.generate checks (some now) y rng = .ok (secret, rng'')) :
    (SecretBundle.insert c order y secret).latest = some secret ↔
      y.latestTimestamp.toNat + 1 < 2 ^ 64 := by
  have hid : secret.id c = c.sha256 bytes.toList := by
    rw [generate_eq hrng] at h
    split at h
    · obtain ⟨timestamp, -, h⟩ := bind_eq_ok.mp h
      cases h
      rfl
    · cases h
      rfl
  rcases latest_generate c order h fun _ => hid ▸ hfresh with
    ⟨hroom, hlat⟩ | ⟨hfull, hzero, hsame⟩
  · exact iff_of_true hlat hroom
  · refine iff_of_false (fun hlat => ?_) (by omega)
    rw [latestTimestamp, ← hsame, hlat, Option.map_some, hzero] at hfull
    cases hfull

/-- A new secret becomes the latest just if there is a later timestamp than those of the bundle. -/
theorem becomesLatest_iff (checks : Bool) (c : DataPrimitives) (order : HashOrder GroupSecretId)
    (y : SecretBundleState) (now : UInt64) (rng rng' : Rng)
    (bytes : Vector UInt8 GROUP_SECRET_SIZE)
    (hrng : rng.randomArray GROUP_SECRET_SIZE = .ok (bytes, rng'))
    (hfresh : y.contains (c.sha256 bytes.toList) = false) :
    BecomesLatest checks c (some now) order y rng ↔ y.latestTimestamp.toNat + 1 < 2 ^ 64 := by
  constructor
  · rintro ⟨⟨secret, rng''⟩, hgen, hlat⟩
    exact (latest_generated_iff c order hrng hfresh hgen).mp hlat
  · intro hroom
    obtain ⟨timestamp, hgen⟩ : ∃ timestamp,
        generate checks (some now) y rng = .ok (⟨⟨bytes⟩, timestamp⟩, rng') := by
      rw [generate_eq hrng]
      split
      · rw [addU64_of_lt hroom]
        exact ⟨_, rfl⟩
      · exact ⟨now, rfl⟩
    exact ⟨_, hgen, (latest_generated_iff c order hrng hfresh hgen).mpr hroom⟩

end Generated

/-! ## Adding secrets -/

/-- Secrets are added one by one, or as another bundle. -/
inductive Addition where
  | insert (secret : GroupSecret)
  | extend (secrets : List GroupSecret)

namespace Addition

def secrets : Addition → List GroupSecret
  | insert secret => [secret]
  | extend secrets => secrets

def apply (c : DataPrimitives) (order : HashOrder GroupSecretId) (y : SecretBundleState) :
    Addition → SecretBundleState
  | insert secret => SecretBundle.insert c order y secret
  | extend secrets => SecretBundle.extend order y (SecretBundle.fromSecrets c order secrets)

end Addition

def collected (c : DataPrimitives) (order : HashOrder GroupSecretId) (additions : List Addition) :
    SecretBundleState :=
  additions.foldl (Addition.apply c order) SecretBundle.init

def insertAll (c : DataPrimitives) (secrets : HashMap GroupSecretId GroupSecret)
    (l : List GroupSecret) : HashMap GroupSecretId GroupSecret :=
  l.foldl (fun m secret => m.insert (secret.id c) secret) secrets

def addedSecrets (additions : List Addition) : Multiset GroupSecret :=
  additions.flatMap Addition.secrets

/-- In whatever order secrets are added, the bundle is the same, and does not change when one is
added whose identifier is there. -/
structure Converges (c : DataPrimitives) (secrets : Multiset GroupSecret) : Prop where
  order : ∀ order order' additions additions',
    addedSecrets additions = secrets → addedSecrets additions' = secrets →
      (collected c order additions).secrets = (collected c order' additions').secrets ∧
      (collected c order additions).latest = (collected c order' additions').latest
  duplicate : ∀ order additions secret, secret ::ₘ addedSecrets additions = secrets →
    (collected c order additions).contains (secret.id c) = true →
      SecretBundle.insert c order (collected c order additions) secret =
        collected c order additions

theorem insertAll_append (l l' : List GroupSecret) :
    insertAll c m (l ++ l') = insertAll c (insertAll c m l) l' :=
  List.foldl_append

theorem insertAll_concat (l : List GroupSecret) (secret : GroupSecret) :
    insertAll c m (l ++ [secret]) = (insertAll c m l).insert (secret.id c) secret :=
  List.foldl_concat ..

theorem extend_insertAll (m : HashMap GroupSecretId GroupSecret) (l : List GroupSecret) :
    m.extend (insertAll c ∅ l) = insertAll c m l := by
  induction l using List.reverseRecOn with
  | nil => exact Finmap.empty_union
  | append_singleton l secret ih =>
    rw [insertAll_concat, insertAll_concat, ← ih]
    apply Finmap.ext_lookup
    intro id
    simp only [lookup_extend, lookup_insert_ite]
    split <;> rfl

theorem collected_eq (additions : List Addition) :
    collected c order additions =
      SecretBundle.ofSecrets order (insertAll c ∅ (additions.flatMap Addition.secrets)) := by
  induction additions using List.reverseRecOn with
  | nil =>
    have hnone : findLatest order ∅ = none := by
      simp [findLatest, entries]
    simp only [List.flatMap_nil, ofSecrets, insertAll, List.foldl_nil, hnone]
    rfl
  | append_singleton additions addition ih =>
    rw [collected, List.foldl_concat, ← collected, ih, List.flatMap_append, List.flatMap_singleton,
      insertAll_append]
    cases addition with
    | insert secret => rfl
    | extend secrets => exact congrArg (ofSecrets order) (extend_insertAll _ secrets)

theorem lookup_insertAll (l : List GroupSecret) :
    (∀ id secret, (insertAll c ∅ l).lookup id = some secret → secret ∈ l ∧ secret.id c = id) ∧
      ∀ secret ∈ l, ∃ secret', (insertAll c ∅ l).lookup (secret.id c) = some secret' := by
  induction l using List.reverseRecOn with
  | nil => simp [insertAll]
  | append_singleton l last ih =>
    simp only [insertAll_concat, lookup_insert_ite]
    refine ⟨fun id secret h => ?_, fun secret hsec => ?_⟩
    · split at h
      · cases h
        simp [*]
      · obtain ⟨hmem, hid⟩ := ih.1 id secret h
        exact ⟨List.mem_append_left _ hmem, hid⟩
    · split
      · exact ⟨_, rfl⟩
      · rename_i hne
        cases List.mem_append.mp hsec with
        | inl hmem => exact ih.2 secret hmem
        | inr hmem =>
          cases List.mem_singleton.mp hmem
          exact absurd rfl hne

/-! ## The same bundle -/

theorem exceeds_of_findLatest {secrets : HashMap GroupSecretId GroupSecret} {id : GroupSecretId}
    (h : findLatest order secrets = some id) :
    ∃ secret, secrets.lookup id = some secret ∧ Exceeds (0, none) (id, secret) := by
  suffices hfold : ∀ entries : List (GroupSecretId × GroupSecret),
      entries.foldl laterSecret (0, none) = (0, none) ∨ ∃ entry ∈ entries,
        entries.foldl laterSecret (0, none) = (entry.2.timestamp, some entry.1) ∧
          Exceeds (0, none) entry by
    rcases hfold (secrets.entries order) with hnone | ⟨⟨id', secret⟩, hmem, hlat, hexc⟩
    · rw [findLatest, hnone] at h
      cases h
    · rw [findLatest, hlat] at h
      cases h
      exact ⟨secret, mem_entries.mp hmem, hexc⟩
  intro entries
  induction entries using List.reverseRecOn with
  | nil => exact Or.inl rfl
  | append_singleton entries entry ih =>
    rw [List.foldl_concat, laterSecret]
    split
    · rename_i hexc
      refine Or.inr ⟨entry, by simp, rfl, ?_⟩
      rcases ih with hnone | ⟨previous, -, hlat, hprevious⟩
      · rwa [hnone] at hexc
      · rw [hlat] at hexc
        exact exceeds_trans hprevious hexc
    · refine ih.imp_right fun ⟨previous, hmem, hlat⟩ => ?_
      exact ⟨previous, List.mem_append_left _ hmem, hlat⟩

theorem findLatest_order (secrets : HashMap GroupSecretId GroupSecret) :
    findLatest order secrets = findLatest order' secrets := by
  have hnone {order order' : HashOrder GroupSecretId} {id : GroupSecretId}
      (h : findLatest order secrets = some id) : findLatest order' secrets ≠ none := by
    intro hnone
    obtain ⟨secret, hsec, hexc⟩ := exceeds_of_findLatest h
    obtain ⟨timestamp, hzero, -, hall⟩ := isLatest_findLatest order' secrets
    rw [hzero hnone, hnone] at hall
    exact hall id secret hsec hexc
  cases h : findLatest order secrets with
  | none =>
    cases h' : findLatest order' secrets with
    | none => rfl
    | some id => exact absurd h (hnone h')
  | some id =>
    have hsome : findLatest order' secrets ≠ none := hnone h
    obtain ⟨id', h'⟩ := Option.ne_none_iff_exists'.mp hsome
    have hlat := isLatest_findLatest order secrets
    have hlatest' := isLatest_findLatest order' secrets
    rw [h] at hlat
    rw [h'] at hlatest'
    rw [h', hlat.unique hlatest']

/-- Secrets with the same identifier are the same, timestamps included. -/
def Consistent (c : DataPrimitives) (secrets : Multiset GroupSecret) : Prop :=
  ∀ secret ∈ secrets, ∀ secret' ∈ secrets, secret.id c = secret'.id c → secret = secret'

theorem Consistent.lookup_collected {additions : List Addition}
    (h : Consistent c (addedSecrets additions)) {id : GroupSecretId} :
    (collected c order additions).secrets.lookup id = some secret ↔
      secret ∈ addedSecrets additions ∧ secret.id c = id := by
  obtain ⟨hmem, hsome⟩ := lookup_insertAll (additions.flatMap Addition.secrets)
  rw [collected_eq]
  refine ⟨hmem id secret, ?_⟩
  rintro ⟨hsec, rfl⟩
  obtain ⟨secret', hsecret'⟩ := hsome secret hsec
  obtain ⟨hmem', hid⟩ := hmem _ _ hsecret'
  rw [h secret hsec secret' hmem' hid.symm] at hsecret' ⊢
  exact hsecret'

theorem Consistent.converges {secrets : Multiset GroupSecret} (h : Consistent c secrets) :
    Converges c secrets where
  order := by
    rintro order order' additions additions' rfl hsame
    have hsecs : (collected c order additions).secrets =
        (collected c order' additions').secrets := by
      apply Finmap.ext_lookup
      intro id
      apply Option.ext
      intro secret
      have h' := h
      rw [← hsame] at h'
      rw [h.lookup_collected, h'.lookup_collected, hsame]
    refine ⟨hsecs, ?_⟩
    rw [collected_eq, collected_eq] at hsecs ⊢
    have hsecs : insertAll c ∅ (additions.flatMap Addition.secrets) =
      insertAll c ∅ (additions'.flatMap Addition.secrets) := hsecs
    rw [hsecs]
    unfold latest ofSecrets
    dsimp only
    rw [findLatest_order]
  duplicate := by
    rintro order additions secret rfl hcontains
    obtain ⟨secret', hsecret'⟩ := Option.isSome_iff_exists.mp hcontains
    have hcollected : Consistent c (addedSecrets additions) := fun a ha b hb =>
      h a (mem_cons_of_mem ha) b (mem_cons_of_mem hb)
    obtain ⟨hmem, hid⟩ := hcollected.lookup_collected.mp hsecret'
    cases h secret (mem_cons_self _ _) secret' (mem_cons_of_mem hmem) hid.symm
    rw [collected_eq] at hsecret' ⊢
    exact congrArg _ (insert_lookup_self hsecret')

/-- Of two secrets with the same identifier, the one which is added last stays. -/
theorem not_converges {secret secret' : GroupSecret} (hid : secret.id c = secret'.id c)
    (hne : secret ≠ secret') (rest : Multiset GroupSecret) :
    ¬Converges c (secret ::ₘ secret' ::ₘ rest) := by
  intro h
  obtain ⟨rest, rfl⟩ := Quot.exists_rep rest
  let order : HashOrder GroupSecretId := ⟨Finset.toList, Finset.nodup_toList, Finset.mem_toList⟩
  let additions (l : List GroupSecret) := (rest ++ l).map Addition.insert
  have hflat (l : List GroupSecret) : (additions l).flatMap Addition.secrets = rest ++ l := by
    rw [List.flatMap_map]
    exact List.flatMap_singleton' _
  have hadd (first last : GroupSecret) :
      addedSecrets (additions [first, last]) = first ::ₘ last ::ₘ ↑rest := by
    rw [addedSecrets, hflat]
    exact coe_eq_coe.mpr List.perm_append_comm
  have hlook (first last : GroupSecret) :
      (collected c order (additions [first, last])).secrets.lookup (last.id c) = some last := by
    rw [collected_eq, hflat, ← List.singleton_append, ← List.append_assoc]
    show (insertAll c ∅ _).lookup _ = _
    rw [insertAll_concat, Finmap.lookup_insert]
  have hsame := (h.order order order (additions [secret, secret']) (additions [secret', secret])
    (hadd ..) ((hadd ..).trans (cons_swap ..))).1
  have hlast := hlook secret secret'
  rw [hsame, ← hid, hlook] at hlast
  exact hne (Option.some.inj hlast)

/-- Bundles converge just if no secret comes with two timestamps. -/
theorem converges_iff (c : DataPrimitives) (secrets : Multiset GroupSecret) :
    Converges c secrets ↔ Consistent c secrets := by
  refine ⟨fun h secret hsec secret' hsecret' hid => ?_, Consistent.converges⟩
  by_contra hne
  obtain ⟨rest, rfl⟩ := exists_cons_of_mem hsec
  obtain ⟨rest, rfl⟩ := exists_cons_of_mem ((mem_cons.mp hsecret').resolve_left (Ne.symm hne))
  exact not_converges hid hne rest h

/-! ## Secrets with simple primitives -/

section Sample

open TwoParty

def sampleDataPrimitives : DataPrimitives where
  toPrimitives := samplePrimitives
  sha256 := firstBytes 32
  xAeadEncrypt key plaintext _ _ := some (key.toList ++ plaintext)
  xAeadDecrypt key ciphertext _ _ :=
    if ciphertext.take 32 = key.toList then some (ciphertext.drop 32) else none

def readSecret (bytes : Bytes) : GroupSecret :=
  ⟨⟨firstBytes _ (bytes.drop 8)⟩, UInt64.ofNat (CborValue.ofBigEndian (bytes.take 8))⟩

def writeSecret (secret : GroupSecret) : Bytes :=
  CborValue.bigEndian 8 secret.timestamp.toNat ++ secret.secret.bytes.toList

def readSecrets : Nat → Bytes → List GroupSecret
  | 0, _ => []
  | n + 1, bytes => readSecret bytes :: readSecrets n (bytes.drop 40)

def sampleSecretCodec : SecretCodec where
  toPlaintextCodec := sampleCodec
  secretToBytes secret := some (writeSecret secret)
  secretFromBytes bytes := some (readSecret bytes)
  bundleToBytes secrets := some (secrets.flatMap writeSecret)
  bundleFromBytes bytes := some (readSecrets (bytes.length / 40) bytes)

def idNumber (id : GroupSecretId) : Nat := Nat.ofDigits 256 (id.toList.map UInt8.toNat)

theorem idNumber_injective : Function.Injective idNumber := by
  intro a b h
  have hdigits (v : GroupSecretId) : ∀ n ∈ v.toList.map UInt8.toNat, n < 256 := by
    intro n hn
    obtain ⟨byte, -, rfl⟩ := List.mem_map.mp hn
    exact byte.toNat_lt
  have heq := Nat.ofDigits_inj_of_len_eq (by decide) (by simp) (hdigits a) (hdigits b) h
  exact Vector.toList_inj.mp (List.map_injective_iff.mpr (fun _ _ => UInt8.toNat_inj.mp) heq)

def sampleEncryptionEnv : Surroundings Nat where
  now := some 5
  clock _ := some 5
  entropy _ := []
  members := .increasing id Function.injective_id
  secrets := .increasing idNumber idNumber_injective

/-- A member has sent a secret. -/
def receivedBundle (timestamp : UInt64) : SecretBundleState :=
  SecretBundle.insert sampleDataPrimitives sampleEncryptionEnv.secrets SecretBundle.init
    ⟨⟨Vector.replicate 32 0⟩, timestamp⟩

theorem latestTimestamp_receivedBundle {timestamp : UInt64} (h : 0 < timestamp) :
    (receivedBundle timestamp).latestTimestamp = timestamp := by
  have hlat : (receivedBundle timestamp).latest = some _ := latest_insert h
  rw [latestTimestamp, hlat]
  rfl

/-- The last timestamp there is. -/
def exhaustedBundle : SecretBundleState := receivedBundle 18446744073709551615

/-- With overflow checks the next secret is not generated; without, it is the earliest one. -/
theorem not_becomesLatest_exhaustedBundle :
    ¬BecomesLatest true sampleDataPrimitives (some 5) sampleEncryptionEnv.secrets exhaustedBundle
        ⟨false, List.replicate 32 1⟩ ∧
      ¬BecomesLatest false sampleDataPrimitives (some 5) sampleEncryptionEnv.secrets
        exhaustedBundle ⟨false, List.replicate 32 1⟩ := by
  have hlat {checks : Bool} : ¬BecomesLatest checks sampleDataPrimitives (some 5)
      sampleEncryptionEnv.secrets exhaustedBundle ⟨false, List.replicate 32 1⟩ := by
    rintro ⟨⟨secret, rng⟩, hgen, hlat⟩
    have hfresh : exhaustedBundle.contains
        (sampleDataPrimitives.sha256 (Vector.replicate 32 1).toList) = false := by
      decide +kernel
    have hroom := (latest_generated_iff _ _ rfl hfresh hgen).mp hlat
    rw [exhaustedBundle, latestTimestamp_receivedBundle (by decide)] at hroom
    exact absurd hroom (by decide)
  exact ⟨hlat, hlat⟩

theorem becomesLatest_receivedBundle : BecomesLatest true sampleDataPrimitives (some 5)
    sampleEncryptionEnv.secrets (receivedBundle 18446744073709551614)
      ⟨false, List.replicate 32 1⟩ := by
  refine (becomesLatest_iff true sampleDataPrimitives sampleEncryptionEnv.secrets _ 5
    ⟨false, List.replicate 32 1⟩ ⟨false, []⟩ (Vector.replicate 32 1) rfl (by decide +kernel)).mpr ?_
  rw [latestTimestamp_receivedBundle (by decide)]
  decide

/-- The same secret arrives with two timestamps. -/
theorem not_converges_twoTimestamps :
    ¬Converges sampleDataPrimitives
      {⟨⟨Vector.replicate 32 0⟩, 1⟩, ⟨⟨Vector.replicate 32 0⟩, 2⟩} := by
  refine not_converges ?_ ?_ 0
  · rfl
  · decide

end Sample

end P2Panda.Encryption.DataScheme
