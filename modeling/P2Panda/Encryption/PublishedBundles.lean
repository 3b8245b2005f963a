import P2Panda.Encryption.TwoParty.Link

/-!
# Published key bundles

A bundle can be used for as long as its pre-key is kept, whatever else is done with the keys of
its owner; with a one-time key, it can be used once.
-/

namespace P2Panda.Encryption.KeyManager

open P2Panda.Library Outcome Relation TwoParty P2Panda.Core

/-- A call of the key manager, and the one-time key which it uses. -/
inductive Step (checks : Bool) (c : Primitives) (y : KeyManagerState) :
    Option OneTimePreKeyId → KeyManagerState → Prop
  | rotate {y' lifetime rng rng'} (h : rotatePrekey c y lifetime rng = .ok (y', rng')) :
      Step checks c y none y'
  | generate {y' clock order rng b rng'}
      (h : generateOnetimeBundle checks c clock order y rng = .ok (y', b, rng')) :
      Step checks c y none y'
  | use {y' id secret} (h : useOnetimeSecret y id = .ok (y', secret)) : Step checks c y (some id) y'
  | removeExpired (clock : Clock) : Step checks c y none (removeExpired clock y)

/-- A bundle is given to others. -/
inductive Publishes (checks : Bool) (c : Primitives) (y : KeyManagerState) :
    (KB : Type) → [KeyBundle KB] → KB → KeyManagerState → Prop
  | longterm {clock order b} (h : prekeyBundle clock order y = .ok b) :
      Publishes checks c y LongTermKeyBundle b y
  | onetime {y' clock order rng b rng'}
      (h : generateOnetimeBundle checks c clock order y rng = .ok (y', b, rng')) :
      Publishes checks c y OneTimeKeyBundle b y'

variable {KB : Type} [KeyBundle KB] {checks : Bool} {c : Primitives} {y y' : KeyManagerState}
  {b : KB} {used : Option OneTimePreKeyId} {clock : Clock} {order : HashOrder PreKeyId}
  {rng rng' : Rng}

/-- A call which neither uses the one-time key of a bundle nor removes its pre-key. -/
def Spares (checks : Bool) (c : Primitives) (b : KB) (y y' : KeyManagerState) : Prop :=
  ∃ used, Step checks c y used y' ∧ (y'.prekeys.lookup (KeyBundle.signedPrekey b)).isSome ∧
    ∀ id, used = some id → KeyBundle.onetimePrekeyId b ≠ some id

/-- The secrets of a bundle are there. -/
structure Keeps (c : Primitives) (b : KB) (y : KeyManagerState) : Prop extends WellFormed c y where
  ours : y.identityKey = KeyBundle.identityKey b
  prekey : (y.prekeys.lookup (KeyBundle.signedPrekey b)).isSome
  longterm : KeyBundle.onetimePrekeyId b = none → KeyBundle.onetimePrekey b = none
  onetime : ∀ id, KeyBundle.onetimePrekeyId b = some id → ∃ secret,
    y.onetimeSecrets.lookup id = some (KeyBundle.signedPrekey b, secret) ∧
      KeyBundle.onetimePrekey b = some (c.verifyingKey secret)

theorem generateOnetimeBundle_spec {b : OneTimeKeyBundle}
    (h : generateOnetimeBundle checks c clock order y rng = .ok (y', b, rng')) :
    ∃ bundle secret next, latest clock order y.prekeys = .ok (some bundle) ∧
      y.onetimeSecrets.lookup y.onetimeNextId = none ∧
      y' = { y with
        onetimeSecrets := y.onetimeSecrets.insert y.onetimeNextId (bundle.id, secret)
        onetimeNextId := next } ∧
      b = ⟨y.identityKey, bundle.prekey, bundle.signature,
        some ⟨c.verifyingKey secret, y.onetimeNextId⟩⟩ := by
  obtain ⟨o, hlat, h⟩ := bind_eq_ok.mp h
  cases o with
  | none => cases h
  | some bundle =>
    obtain ⟨⟨bytes, _⟩, -, h⟩ := bind_eq_ok.mp h
    dsimp only at h
    split_ifs at h with hnew
    obtain ⟨next, -, h⟩ := bind_eq_ok.mp h
    cases h
    exact ⟨bundle, _, next, hlat, not_not.mp hnew, rfl, rfl⟩

theorem WellFormed.lookup_latest (hy : WellFormed c y) {bundle : PreKeyBundle}
    (h : latest clock order y.prekeys = .ok (some bundle)) :
    y.prekeys.lookup bundle.prekey.key = some bundle := by
  obtain ⟨id, hid⟩ := latest_eq_some h
  rwa [(hy.prekeys id bundle hid).1]

theorem Step.spec (h : Step checks c y used y') (hy : WellFormed c y) :
    WellFormed c y' ∧ y'.identityKey = y.identityKey ∧ ∀ id secret,
      y.onetimeSecrets.lookup id = some secret → used ≠ some id →
        (y'.prekeys.lookup secret.1).isSome → y'.onetimeSecrets.lookup id = some secret := by
  cases h with
  | rotate h =>
    refine ⟨hy.rotatePrekey h, ?_⟩
    obtain ⟨prekey, -, h⟩ := bind_eq_ok.mp h
    cases h
    exact ⟨rfl, fun id secret hid _ _ => hid⟩
  | generate h =>
    obtain ⟨bundle, secret, next, -, hnew, rfl, -⟩ := generateOnetimeBundle_spec h
    refine ⟨⟨hy.identity, hy.prekeys⟩, rfl, fun id secret' hid _ _ => ?_⟩
    have hne : id ≠ y.onetimeNextId := by
      rintro rfl
      cases hnew.symm.trans hid
    rwa [HashMap.lookup_insert_ite, if_neg hne]
  | use h =>
    unfold useOnetimeSecret at h
    split at h
    · cases h
      refine ⟨⟨hy.identity, hy.prekeys⟩, rfl, fun id secret hid hne _ => ?_⟩
      rwa [HashMap.lookup_erase_ite, if_neg fun heq => hne (congrArg some heq.symm)]
    · cases h
  | removeExpired clock =>
    refine ⟨⟨hy.identity, fun id b hb => hy.prekeys id b ?_⟩, rfl, fun id secret hid _ hkey => ?_⟩
    · exact (HashMap.lookup_filter_eq_some.mp hb).1
    · exact HashMap.lookup_filter_eq_some.mpr ⟨hid, hkey⟩

theorem Keeps.spares (h : Keeps c b y) (hstep : Spares checks c b y y') : Keeps c b y' := by
  obtain ⟨used, hstep, hkey, hused⟩ := hstep
  obtain ⟨hy', hid, honetime⟩ := hstep.spec h.toWellFormed
  refine ⟨hy', hid.trans h.ours, hkey, h.longterm, fun id hb => ?_⟩
  obtain ⟨secret, hsec, hpub⟩ := h.onetime id hb
  exact ⟨secret, honetime id _ hsec (fun h => hused id h hb) hkey, hpub⟩

theorem Publishes.keeps (h : Publishes checks c y KB b y') (hy : WellFormed c y) :
    Keeps c b y' := by
  cases h with
  | longterm h =>
    obtain ⟨o, hlat, h⟩ := bind_eq_ok.mp h
    cases o with
    | none => cases h
    | some bundle =>
      cases h
      exact ⟨hy, rfl, Option.isSome_of_eq_some (hy.lookup_latest hlat), fun _ => rfl, nofun⟩
  | onetime h =>
    obtain ⟨bundle, secret, next, hlat, -, rfl, rfl⟩ := generateOnetimeBundle_spec h
    refine ⟨⟨hy.identity, hy.prekeys⟩, rfl, Option.isSome_of_eq_some (hy.lookup_latest hlat),
      nofun, ?_⟩
    rintro id ⟨⟩
    exact ⟨secret, Finmap.lookup_insert _, rfl⟩

theorem Keeps.holds (h : Keeps c b y) : Holds c y b := by
  obtain ⟨bundle, hbundle⟩ := Option.isSome_iff_exists.mp h.prekey
  constructor
  · exact h.identity.trans h.ours
  · refine ⟨bundle.secret, ?_, (h.prekeys _ bundle hbundle).2⟩
    change prekeySecret y _ = _
    rw [prekeySecret, hbundle]
  · exact h.longterm
  · intro id hid
    obtain ⟨secret, hsec, hpub⟩ := h.onetime id hid
    exact ⟨_, _, useOnetimeSecret_of_lookup hsec, hpub, rfl, rfl⟩

theorem wellFormed_of_steps {identitySecret : SecretKey}
    (h : ReflTransGen (fun y y' => ∃ used, Step checks c y used y') (init c identitySecret) y) :
    WellFormed c y := by
  induction h with
  | refl => exact wellFormed_init identitySecret
  | tail _ hstep ih => exact (hstep.choose_spec.spec ih).1

/-- A message towards a published bundle is decrypted for as long as its pre-key is kept and its
one-time key is not used, and this uses the one-time key. -/
theorem decrypt_published (hc : c.Ideal) {identitySecret sender : SecretKey}
    {y₁ : KeyManagerState} {bytes : Bytes} {ciphertext : X3dhCiphertext}
    (hy : ReflTransGen (fun y y' => ∃ used, Step checks c y used y') (init c identitySecret) y)
    (hpub : Publishes checks c y KB b y₁) (hrun : ReflTransGen (Spares checks c b) y₁ y')
    (henc : x3dhEncrypt c clock bytes sender b rng = .ok (ciphertext, rng'))
    (s : TwoPartyState KB) :
    ∃ manager, decrypt checks c s y' (.preKey ciphertext) .preKey = .ok (s, manager, bytes) ∧
      (KeyBundle.onetimePrekeyId b ≠ none →
        decrypt checks c s manager (.preKey ciphertext) .preKey = .err .preKeyReuse) := by
  have hkeeps : Keeps c b y' := by
    induction hrun with
    | refl => exact hpub.keeps (wellFormed_of_steps hy)
    | tail _ hstep ih => exact ih.spares hstep
  obtain ⟨manager, secret, honetime⟩ := exists_onetimeSecret hkeeps.holds
  refine ⟨manager, decrypt_preKey hc hkeeps.holds honetime henc, fun hne => ?_⟩
  obtain ⟨id, hid⟩ := Option.ne_none_iff_exists'.mp hne
  obtain ⟨secret', hsec, -⟩ := hkeeps.onetime id hid
  have huse : PreKeyManager.useOnetimeSecret y' id = _ := useOnetimeSecret_of_lookup hsec
  rw [hid, onetimeSecret, huse] at honetime
  cases honetime
  have hgone : PreKeyManager.useOnetimeSecret
      { y' with onetimeSecrets := y'.onetimeSecrets.erase id } id =
        .err (.unknownOneTimeSecret id) := by
    change useOnetimeSecret _ id = _
    rw [useOnetimeSecret, Finmap.lookup_erase]
  rw [decrypt, (prekeyId_of_x3dhEncrypt henc).2, hid, onetimeSecret, hgone]
  rfl

theorem decrypt_published_sample : ∃ (y manager : KeyManagerState) (ciphertext : X3dhCiphertext),
    decrypt true samplePrimitives (initToReceive : TwoPartyState OneTimeKeyBundle) y
      (.preKey ciphertext) .preKey = .ok (initToReceive, manager, [7]) := by
  let order : HashOrder PreKeyId := ⟨Finset.toList, Finset.nodup_toList, Finset.mem_toList⟩
  let y := { init samplePrimitives (sampleKey 3) with prekeys := (sampleManager .alice).prekeys }
  have hrot : ∃ rng, rotatePrekey samplePrimitives (init samplePrimitives (sampleKey 3)) ⟨0, 10⟩
      ⟨false, List.replicate 96 1⟩ = .ok (y, rng) := ⟨_, rfl⟩
  have hlat : latest (some 5) order y.prekeys =
      .ok (some ⟨samplePrekey .alice, sampleSignature, sampleKey 1⟩) := by
    simp [latest, y, HashMap.entries, sampleManager]
    rfl
  have hgen : ∃ y₁ b rng, generateOnetimeBundle true samplePrimitives (some 5) order y
      ⟨false, List.replicate 32 1⟩ = .ok (y₁, b, rng) ∧ ∃ result,
        x3dhEncrypt samplePrimitives (some 5) [7] (sampleKey 4) b ⟨false, List.replicate 32 2⟩ =
          .ok result := by
    rw [generateOnetimeBundle, hlat]
    exact ⟨_, _, _, rfl, _, rfl⟩
  obtain ⟨rng, hrot⟩ := hrot
  obtain ⟨y₁, b, _, hgen, ⟨ciphertext, _⟩, henc⟩ := hgen
  obtain ⟨manager, hdec, -⟩ := decrypt_published ideal_samplePrimitives
    (.single ⟨none, .rotate hrot⟩) (.onetime hgen) .refl henc initToReceive
  exact ⟨y₁, manager, ciphertext, hdec⟩

end P2Panda.Encryption.KeyManager
