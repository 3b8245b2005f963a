import P2Panda.Encryption.TwoParty.Link

/-!
# Keys are used once

As long as new keys are new, no two keys of a party are the same. The one which opens a message is
held nowhere then, so it is not received again.
-/

namespace P2Panda.Encryption.TwoParty

open P2Panda.Library P2Panda.Core Option Vector CborValue

variable {KB Y ε : Type} [KeyBundle KB] [PreKeyManager Y ε]
variable {checks : Bool} {c : Primitives} {codec : PlaintextCodec} {y y₁ : TwoPartyState KB}
  {x : TwoPartyPlaintext} {s : SecretKey} {link : Link KB Y}
  {contents : Party → List TwoPartyPlaintext} {event : Event} {events : List Event}
  {known : List PublicKey} {lost : Party → PublicKey → Prop}

theorem Carries.opens (h : Carries c codec link contents) {p : Party} {e : Envelope}
    {rest : List Envelope} (hq : link.queue p = e :: rest) :
    ∃ x k, Opens KB c codec (keyring (link.state p) (link.manager p)) e.message x k := by
  obtain ⟨_, hside⟩ := h
  have hdrains := (hside p).drains
  generalize contents p = payloads at hdrains
  rw [hq] at hdrains
  cases hdrains with
  | cons hopens => exact ⟨_, _, hopens⟩

/-- All keys in different places, and one which is nowhere. -/
structure Kept (c : Primitives) (codec : PlaintextCodec) (link : Link KB Y)
    (known : List PublicKey) (lost : Party → PublicKey → Prop)
    (contents : Party → List TwoPartyPlaintext) : Prop where
  carries : Carries c codec link contents
  full : ∀ p, Full (link.state p)
  apart : ∀ p, Apart known (places c (link.state p) (contents p))
  lost : ∀ p key, lost p key → key ∈ known ∧ ∀ a, places c (link.state p) (contents p) a ≠ some key

theorem kept_start {bundle : Party → KB} {manager : Party → Y}
    (hholds : ∀ p, Holds c (manager p) (bundle p)) :
    Kept c codec (Link.start bundle manager) [] (fun _ _ => False) fun _ => [] where
  carries := carries_start hholds
  full p i hmin hi := absurd hi (UInt64.not_lt.mpr hmin)
  apart p := by
    have hnone : ∀ a, places c (initToSend (bundle p.other)) [] a = none := by
      intro a
      cases a <;> rfl
    exact ⟨fun a key ha => absurd ((hnone a).symm.trans ha) (some_ne_none _).symm,
      fun a b key ha => absurd ((hnone a).symm.trans ha) (some_ne_none _).symm⟩
  lost _ _ hlost := hlost.elim

theorem Kept.next (hc : c.Ideal) (hcdc : codec.Lawful) (h : Kept c codec link known lost contents)
    (hroom : Room checks link (event :: events)) (hfresh : known.Disjoint (freshKeys c event)) :
    ∃ contents', Kept c codec (link.next checks c codec event) (known ++ freshKeys c event)
      (fun p key => lost p key ∨ ∃ a, spentPlace link p event = some a ∧
        places c (link.state p) (contents p) a = some key) contents' := by
  obtain ⟨contents', hcarr, hmoves⟩ := h.carries.next hc hcdc hroom
  refine ⟨contents', hcarr, fun p => (hmoves p).2 (h.full p),
    fun p => (hmoves p).1.apart (h.apart p) hfresh, fun p key hlost => ?_⟩
  obtain hlost | ⟨a, hspent, ha⟩ := hlost
  · obtain ⟨hknown, hgone⟩ := h.lost p key hlost
    exact ⟨List.mem_append_left _ hknown, (hmoves p).1.gone hgone (hfresh hknown)⟩
  · have hmove := (hmoves p).1
    rw [hspent] at hmove
    exact ⟨List.mem_append_left _ ((h.apart p).known a key ha), hmove.gone_spent (h.apart p) ha⟩

/-- Events keep the keys apart, as long as the keys they make are new. -/
theorem Kept.foldl (hc : c.Ideal) (hcdc : codec.Lawful) (events : List Event)
    (h : Kept c codec link known lost contents) (hroom : Room checks link events)
    (hfresh : (known ++ events.flatMap (freshKeys c)).Nodup) :
    ∃ contents', Kept c codec (events.foldl (Link.next checks c codec) link)
      (known ++ events.flatMap (freshKeys c)) lost contents' := by
  induction events generalizing link known contents with
  | nil =>
    rw [List.flatMap_nil, List.append_nil]
    exact ⟨contents, h⟩
  | cons event events ih =>
    rw [List.flatMap_cons, ← List.append_assoc] at hfresh ⊢
    have hdisj := (List.nodup_append'.mp (List.nodup_append'.mp hfresh).1).2.2
    obtain ⟨contents', hkept⟩ := h.next hc hcdc hroom hdisj
    have hlost := fun p key hlost => hkept.lost p key (Or.inl hlost)
    exact ih ⟨hkept.carries, hkept.full, hkept.apart, hlost⟩ hroom.next hfresh

def usedKey (y : TwoPartyState KB) : KeyUsed → Option SecretKey
  | .preKey => none
  | .receivedKey => y.ourReceivedSecretKey
  | .ownKey i => y.ourSecretKeys.lookup i

omit [KeyBundle KB] in
theorem place_of_usedKey {used : KeyUsed} (c : Primitives) (contents : List TwoPartyPlaintext)
    (h : usedKey y used = some s) :
    ∃ a, usedPlace used = some a ∧ places c y contents a = some (c.verifyingKey s) := by
  cases used with
  | preKey => cases h
  | receivedKey => exact ⟨_, rfl, map_eq_some_iff.mpr ⟨s, h, rfl⟩⟩
  | ownKey i => exact ⟨_, rfl, map_eq_some_iff.mpr ⟨s, h, rfl⟩⟩

theorem receive_of_gone (hc : c.Binding) {manager manager1 : Y} {k : Keyring Y}
    {message : TwoPartyMessage} (h : Opens KB c codec (keyring y manager) message x k)
    (hs : usedKey y message.keyUsed = some s) {contents : List TwoPartyPlaintext}
    (hgone : ∀ a, places c y₁ contents a ≠ some (c.verifyingKey s)) :
    ∃ error, receive checks c codec y₁ manager1 message = .err error := by
  cases h with
  | preKey => cases hs
  | receivedKey hrecv _ hseal =>
    cases hrecv.symm.trans hs
    unfold receive decrypt
    cases hoth : y₁.ourReceivedSecretKey with
    | none => exact ⟨_, rfl⟩
    | some s' =>
      have hne : c.verifyingKey s' ≠ c.verifyingKey s := by
        intro heq
        apply hgone .received
        rw [places, hoth, map_some, heq]
      dsimp only
      rw [hpkeOpen_of_ne hc hseal hne]
      exact ⟨_, rfl⟩
  | @ownKey i _ _ _ _ _ hown _ hseal =>
    cases hown.symm.trans hs
    unfold receive decrypt
    cases hoth : y₁.ourSecretKeys.lookup i with
    | none =>
      dsimp only
      rw [hoth]
      exact ⟨_, rfl⟩
    | some s' =>
      have hne : c.verifyingKey s' ≠ c.verifyingKey s := by
        intro heq
        apply hgone (.own i)
        rw [places, hoth, map_some, heq]
      dsimp only
      rw [hoth]
      dsimp only
      rw [hpkeOpen_of_ne hc hseal hne]
      exact ⟨_, rfl⟩

/-- The own keys are those from the minimum index up to the next one, and a key which was used is
not held any more, so that its message is not received again. -/
structure NotReusable (checks : Bool) (c : Primitives) (codec : PlaintextCodec)
    (bundle : Party → KB) (manager : Party → Y) (events : List Event) : Prop where
  indices : ∀ p i, let y := (Link.after checks c codec bundle manager events).state p
    (y.ourSecretKeys.lookup i).isSome ↔ y.ourMinKeyIndex ≤ i ∧ i < y.ourNextKeyIndex
  used : ∀ earlier p later e rest result s, events = earlier ++ .receive p :: later →
    let link := Link.after checks c codec bundle manager earlier
    link.queue p = e :: rest →
    TwoParty.receive checks c codec (link.state p) (link.manager p) e.message = .ok result →
    usedKey (link.state p) e.message.keyUsed = some s →
    let link' := Link.after checks c codec bundle manager events
    (∀ i, (link'.state p).ourSecretKeys.lookup i ≠ some s) ∧
      (link'.state p).ourReceivedSecretKey ≠ some s ∧
      ∃ error, TwoParty.receive checks c codec (link'.state p) (link'.manager p) e.message =
        .err error

variable {bundle : Party → KB} {manager : Party → Y}

omit [KeyBundle KB] in
theorem Room.left (later : List Event) (h : Room checks link (events ++ later)) :
    Room checks link events := by
  refine h.imp_right fun h p => ?_
  have hp := h p
  rw [sends, List.countP_append] at hp
  exact Nat.lt_of_le_of_lt (Nat.add_le_add_left (Nat.le_add_right _ _) _) hp

theorem Room.foldl (later : List Event) (h : Room checks link (events ++ later)) :
    Room checks (events.foldl (Link.next checks c codec) link) later := by
  induction events generalizing link with
  | nil => exact h
  | cons event events ih => exact ih h.next

/-- The keys of two parties are not reusable, as long as the index of the next key does not wrap
around. -/
theorem notReusable (checks : Bool) (c : Primitives) (codec : PlaintextCodec)
    (bundle : Party → KB) (manager : Party → Y) (hc : c.Ideal) (hbinding : c.Binding)
    (hcodec : codec.Lawful) (hholds : ∀ p, Holds c (manager p) (bundle p)) (events : List Event)
    (hsends : checks = true ∨ ∀ p, sends p events < 2 ^ 64 - 1)
    (hfresh : (events.flatMap (freshKeys c)).Nodup) :
    NotReusable checks c codec bundle manager events := by
  have hroom : Room checks (Link.start bundle manager) events := room_start hsends
  have hstart : Kept c codec (Link.start bundle manager) [] (fun _ _ => False) fun _ => [] :=
    kept_start hholds
  constructor
  · obtain ⟨contents, hkept⟩ := hstart.foldl hc hcodec events hroom hfresh
    intro p i
    constructor
    · intro hi
      obtain ⟨s, hs⟩ := isSome_iff_exists.mp hi
      exact (hkept.carries.inRange p).keys i s hs
    · exact fun hi => hkept.full p i hi.1 hi.2
  · intro earlier p later e rest result s hevs link hq _ hs link'
    subst hevs
    rw [List.flatMap_append, List.flatMap_cons, ← List.append_assoc] at hfresh
    have hfresh1 := (List.nodup_append'.mp hfresh).1
    obtain ⟨contents, hkept⟩ := hstart.foldl hc hcodec earlier (hroom.left _)
      (List.nodup_append'.mp hfresh1).1
    have hroom1 : Room checks link (.receive p :: later) := hroom.foldl _
    obtain ⟨contents1, hkept1⟩ := hkept.next hc hcodec hroom1 (List.nodup_append'.mp hfresh1).2.2
    obtain ⟨contents2, hkept2⟩ := hkept1.foldl hc hcodec later hroom1.next hfresh
    obtain ⟨a, hused, ha⟩ := place_of_usedKey c (contents p) hs
    have hspent : spentPlace link p (.receive p) = some a := by
      rw [spentPlace, if_pos rfl, hq]
      exact hused
    obtain ⟨-, hgone⟩ := hkept2.lost p (c.verifyingKey s) (Or.inr ⟨a, hspent, ha⟩)
    have hafter : link' = later.foldl (Link.next checks c codec)
        (link.next checks c codec (.receive p)) := List.foldl_append
    replace hgone : ∀ a, places c (link'.state p) (contents2 p) a ≠ some (c.verifyingKey s) := by
      rw [hafter]
      exact hgone
    obtain ⟨x, k, hopens⟩ := hkept.carries.opens hq
    refine ⟨fun i hi => hgone (.own i) ?_, fun hrecv => hgone .received ?_,
      receive_of_gone hbinding hopens hs hgone⟩
    · exact map_eq_some_iff.mpr ⟨s, hi, rfl⟩
    · exact map_eq_some_iff.mpr ⟨s, hrecv, rfl⟩

theorem binding_samplePrimitives : samplePrimitives.Binding := by
  rintro _ s s' _ _ _ _ ⟨⟩ hne
  refine if_neg fun heq => hne ?_
  exact congrArg PublicKey.mk (toList_inj.mp heq.symm)

def numberedBytes (m : Nat) : Vector UInt8 SECRET_KEY_SIZE :=
  firstBytes _ (0 :: CborValue.bigEndian 9 m)

def numberedSend (p : Party) (n : Nat) : Event :=
  .send p (some 5) [] ⟨false, (numberedBytes (2 * n)).toList ++
    ((numberedBytes (2 * n + 1)).toList ++ List.replicate 32 0)⟩ []

def numberedEvents : List Event :=
  [numberedSend .alice 0, .receive .bob, numberedSend .bob 1, .receive .alice,
    numberedSend .alice 2, .receive .bob]

theorem notReusable_numberedEvents :
    (numberedEvents.flatMap (freshKeys samplePrimitives)).Nodup ∧
    NotReusable false samplePrimitives sampleCodec sampleBundle sampleManager numberedEvents := by
  have hfresh : (numberedEvents.flatMap (freshKeys samplePrimitives)).Nodup := by decide +kernel
  refine ⟨hfresh, notReusable false samplePrimitives sampleCodec sampleBundle sampleManager
    ideal_samplePrimitives binding_samplePrimitives lawful_sampleCodec holds_sampleBundle _
    (Or.inr fun p => ?_) hfresh⟩
  cases p <;> decide +kernel

end P2Panda.Encryption.TwoParty
