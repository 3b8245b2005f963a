import P2Panda.Encryption.TwoParty.Channel
import P2Panda.Encryption.TwoParty.Places
import P2Panda.Library.DeterministicCbor

/-!
# Sessions of two parties

Two parties with each other's pre-key bundle send and receive in any order. The next message is
accepted and yields what was sent, as long as the index of the next key does not wrap around.
-/

namespace P2Panda.Encryption.TwoParty

open P2Panda.Library P2Panda.Core TwoParty Function Option Vector CborValue

inductive Party where
  | alice
  | bob
  deriving DecidableEq, Repr

def Party.other : Party → Party
  | .alice => .bob
  | .bob => .alice

@[simp] theorem Party.other_other (p : Party) : p.other.other = p := by
  cases p <;> rfl

@[simp] theorem Party.other_ne (p : Party) : p.other ≠ p := by
  cases p <;> decide

@[simp] theorem Party.ne_other (p : Party) : p ≠ p.other := p.other_ne.symm

theorem Party.eq_or_eq_other (p q : Party) : q = p ∨ q = p.other := by
  cases p <;> cases q <;> decide

/-- Two parties and the messages on their way to each, the oldest first. -/
structure Link (KB Y : Type) where
  state : Party → TwoPartyState KB
  manager : Party → Y
  queue : Party → List Envelope

inductive Event where
  | send (p : Party) (clock : Clock) (plaintext : Bytes) (rng : Rng) (entropy : Bytes)
  | receive (p : Party)

variable {KB Y ε : Type} [KeyBundle KB] [PreKeyManager Y ε]

namespace Link

def start (bundle : Party → KB) (manager : Party → Y) : Link KB Y :=
  ⟨fun p => initToSend (bundle p.other), manager, fun _ => []⟩

def sent (link : Link KB Y) (p : Party) (plaintext : Bytes) :
    Outcome TwoPartyError (TwoPartyState KB × TwoPartyMessage × Rng) → Link KB Y
  | .ok (y, message, _) =>
    ⟨Function.update link.state p y, link.manager,
      Function.update link.queue p.other (link.queue p.other ++ [⟨message, plaintext⟩])⟩
  | _ => link

def received (link : Link KB Y) (p : Party) (rest : List Envelope) :
    Outcome TwoPartyError (TwoPartyState KB × Y × Bytes) → Link KB Y
  | .ok (y, manager, _) =>
    ⟨Function.update link.state p y, Function.update link.manager p manager,
      Function.update link.queue p rest⟩
  | _ => link

variable (checks : Bool) (c : Primitives) (codec : PlaintextCodec)

def next (link : Link KB Y) : Event → Link KB Y
  | .send p clock plaintext rng entropy =>
    link.sent p plaintext
      (TwoParty.send checks c codec clock (link.state p) (link.manager p) plaintext rng entropy)
  | .receive p =>
    match link.queue p with
    | [] => link
    | e :: rest =>
      link.received p rest
        (TwoParty.receive checks c codec (link.state p) (link.manager p) e.message)

def after (bundle : Party → KB) (manager : Party → Y) (events : List Event) : Link KB Y :=
  events.foldl (next checks c codec) (start bundle manager)

end Link

def sends (p : Party) (events : List Event) : Nat :=
  events.countP fun
    | .send q .. => q = p
    | .receive _ => false

theorem sends_cons (p : Party) (event : Event) (events : List Event) :
    sends p (event :: events) = sends p [event] + sends p events := by
  rw [← List.singleton_append, sends, List.countP_append]
  rfl

theorem sends_send (p : Party) (clock : Clock) (plaintext : Bytes) (rng : Rng) (entropy : Bytes) :
    sends p [.send p clock plaintext rng entropy] = 1 := by
  rw [sends, List.countP_singleton, if_pos (decide_eq_true rfl)]

/-! ## What both parties know -/

variable {checks : Bool} {c : Primitives} {codec : PlaintextCodec} {plaintext : Bytes}

variable (c codec) in
/-- What is in the messages on their way. -/
def Carries (link : Link KB Y) (contents : Party → List TwoPartyPlaintext) : Prop :=
  ∃ last : Party → Keyring Y, ∀ p,
    Side c codec (link.state p) (link.manager p) (link.queue p) (contents p) (last p)
      (link.state p.other) (contents p.other)

variable (c codec) in
def Linked (link : Link KB Y) : Prop :=
  ∃ (contents : Party → List TwoPartyPlaintext) (last : Party → Keyring Y), ∀ p,
    Side c codec (link.state p) (link.manager p) (link.queue p) (contents p) (last p)
      (link.state p.other) (contents p.other)

section Steps

variable {link : Link KB Y} {p : Party}

theorem carries_start {bundle : Party → KB} {manager : Party → Y}
    (hholds : ∀ p, Holds c (manager p) (bundle p)) :
    Carries c codec (Link.start bundle manager) fun _ => [] := by
  refine ⟨fun p => keyring (initToSend (bundle p.other)) (manager p), ?_⟩
  intro p
  constructor
  · exact .nil
  · refine .preKey (bundle p) rfl rfl ?_ (hholds p)
    change some (bundle p.other.other) = _
    rw [p.other_other]
  · exact fun q hq => absurd hq List.not_mem_nil
  · exact fun q hq => absurd hq List.not_mem_nil
  · exact List.Pairwise.nil
  · refine ⟨UInt64.le_refl _, fun i s hi => ?_⟩
    cases hi

variable {contents : Party → List TwoPartyPlaintext}

theorem Carries.sent (h : Carries c codec link contents) {clock : Clock} {rng rng' : Rng}
    {entropy : Bytes} {y : TwoPartyState KB} {message : TwoPartyMessage}
    (hsend : TwoParty.send checks c codec clock (link.state p) (link.manager p) plaintext rng
      entropy = .ok (y, message, rng'))
    (hnext : checks = true ∨ (link.state p).ourNextKeyIndex.toNat + 1 < 2 ^ 64) :
    ∃ x s rng1, Sent checks c (link.state p) y x s ∧
      generateKeys rng = .ok (s, x.receiverNewSecret, rng1) ∧
      Carries c codec (link.sent p plaintext (.ok (y, message, rng')))
        (Function.update contents p.other (contents p.other ++ [x])) := by
  obtain ⟨last, hside⟩ := h
  have hp := hside p
  have ho := hside p.other
  rw [p.other_other] at ho
  obtain ⟨x, s, last', rng1, hplain, hused, hopens, hsent, hkeys⟩ :=
    opens_of_send ho.addressed hsend
  refine ⟨x, s, rng1, hsent, hkeys, Function.update (Function.update last p.other last') p
      ((last p).insert (link.state p).ourNextKeyIndex s), ?_⟩
  intro q
  rcases p.eq_or_eq_other q with rfl | rfl
  · simpa [Link.sent] using hp.ownSend hsent hnext
  · simpa [Link.sent] using ho.peerSend hsent hopens hused hplain

theorem Carries.received (hc : c.Ideal) (hcdc : codec.Lawful) (h : Carries c codec link contents)
    {e : Envelope} {rest : List Envelope} (hq : link.queue p = e :: rest) :
    ∃ y manager x contents1, contents p = x :: contents1 ∧
      TwoParty.receive checks c codec (link.state p) (link.manager p) e.message =
        .ok (y, manager, e.plaintext) ∧
      Opens KB c codec (keyring (link.state p) (link.manager p)) e.message x (keyring y manager) ∧
      Carries c codec (link.received p rest (.ok (y, manager, e.plaintext)))
        (Function.update contents p contents1) := by
  obtain ⟨last, hside⟩ := h
  have hp := hside p
  have ho := hside p.other
  rw [hq] at hp
  rw [p.other_other] at ho
  obtain ⟨y, manager, x, contents1, hconts, hrcv, hopens, hrecv, hp⟩ := hp.ownReceive hc hcdc
  rw [hconts] at ho
  refine ⟨y, manager, x, contents1, hconts, hrcv, hopens, last, ?_⟩
  intro q
  rcases p.eq_or_eq_other q with rfl | rfl
  · simpa [Link.received] using hp
  · simpa [Link.received] using ho.peerReceive hrecv

theorem next_index_le (event : Event) (q : Party) :
    ((link.next checks c codec event).state q).ourNextKeyIndex.toNat ≤
      (link.state q).ourNextKeyIndex.toNat + sends q [event] := by
  cases event with
  | send p clock plaintext rng entropy =>
    rw [Link.next]
    cases hsend : send checks c codec clock (link.state p) (link.manager p) plaintext
      rng entropy with
    | err e => exact Nat.le_add_right _ _
    | panic m => exact Nat.le_add_right _ _
    | ok result =>
      obtain ⟨_, _, _, _, _, _, _, _, _, hsent, _⟩ := sent_of_send hsend
      dsimp only [Link.sent]
      by_cases hq : q = p
      · rw [hq, sends_send, update_self, ← overflowing_eq_ok hsent.next]
        exact Nat.mod_le _ _
      · rw [update_of_ne hq]
        exact Nat.le_add_right _ _
  | receive p =>
    rw [Link.next]
    cases hqueue : link.queue p with
    | nil => exact Nat.le_add_right _ _
    | cons e rest =>
      dsimp only
      cases hrcv : receive checks c codec (link.state p) (link.manager p) e.message with
      | err e => exact Nat.le_add_right _ _
      | panic m => exact Nat.le_add_right _ _
      | ok result =>
        dsimp only [Link.received]
        by_cases hq : q = p
        · rw [hq, update_self, next_of_receive hrcv]
          exact Nat.le_add_right _ _
        · rw [update_of_ne hq]
          exact Nat.le_add_right _ _

def freshKeys (c : Primitives) : Event → List PublicKey
  | .send _ _ _ rng _ =>
    match generateKeys rng with
    | .ok (ours, theirs, _) => [c.verifyingKey ours, c.verifyingKey theirs]
    | _ => []
  | .receive _ => []

variable (checks) in
/-- The index of the next key does not wrap around. -/
def Room (link : Link KB Y) (events : List Event) : Prop :=
  checks = true ∨ ∀ p, (link.state p).ourNextKeyIndex.toNat + sends p events < 2 ^ 64

/-- The place of the key which opens the next message. -/
def spentPlace (link : Link KB Y) (q : Party) : Event → Option Place
  | .send .. => none
  | .receive p =>
    if q = p then (link.queue p).head?.bind fun e => usedPlace e.message.keyUsed else none

variable {contents : Party → List TwoPartyPlaintext} {event : Event} {events : List Event}

theorem Room.next (h : Room checks link (event :: events)) :
    Room checks (link.next checks c codec event) events := by
  refine h.imp_right fun h p => ?_
  have hp := h p
  rw [sends_cons] at hp
  have hidx : ((link.next checks c codec event).state p).ourNextKeyIndex.toNat ≤
      (link.state p).ourNextKeyIndex.toNat + sends p [event] := next_index_le event p
  omega

theorem Carries.inRange (h : Carries c codec link contents) (p : Party) :
    InRange (link.state p) := by
  obtain ⟨_, hside⟩ := h
  exact (hside p).inRange

theorem Carries.next (hc : c.Ideal) (hcdc : codec.Lawful) (h : Carries c codec link contents)
    (hroom : Room checks link (event :: events)) :
    ∃ contents', Carries c codec (link.next checks c codec event) contents' ∧ ∀ q,
      Moves (freshKeys c event) (spentPlace link q event) (places c (link.state q) (contents q))
        (places c ((link.next checks c codec event).state q) (contents' q)) ∧
      (Full (link.state q) → Full ((link.next checks c codec event).state q)) := by
  cases event with
  | send p clock plaintext rng entropy =>
    rw [Link.next]
    cases hsend : send checks c codec clock (link.state p) (link.manager p) plaintext rng
      entropy with
    | err e => exact ⟨contents, h, fun _ => ⟨.refl, id⟩⟩
    | panic m => exact ⟨contents, h, fun _ => ⟨.refl, id⟩⟩
    | ok result =>
      have hnext : checks = true ∨ (link.state p).ourNextKeyIndex.toNat + 1 < 2 ^ 64 := by
        refine hroom.imp_right fun hroom => ?_
        have hp := hroom p
        rw [sends_cons, sends_send] at hp
        omega
      obtain ⟨x, s, rng1, hsent, hkeys, hcarr⟩ := h.sent hsend hnext
      refine ⟨_, hcarr, fun q => ?_⟩
      rw [freshKeys, hkeys]
      rcases p.eq_or_eq_other q with rfl | rfl
      · simpa [Link.sent] using
          ⟨hsent.places_own, fun hfull => hfull.sent hsent (hsent.lt_next hnext)⟩
      · simpa [Link.sent, spentPlace] using places_concat _
  | receive p =>
    rw [Link.next]
    cases hq : link.queue p with
    | nil =>
      refine ⟨contents, h, fun q => ⟨?_, id⟩⟩
      rw [spentPlace, hq, List.head?_nil, bind_none, ite_self]
      exact .refl
    | cons e rest =>
      dsimp only
      obtain ⟨y, manager, x, contents1, hconts, hrcv, hopens, hcarr⟩ := h.received hc hcdc hq
      rw [hrcv]
      refine ⟨_, hcarr, fun q => ?_⟩
      rcases p.eq_or_eq_other q with rfl | rfl
      · simpa [Link.received, spentPlace, hq, hconts] using
          ⟨.move _ Place.before_injective fun a key ha => hopens.moves ha,
            fun hfull => hfull.received (h.inRange _) hrcv⟩
      · simpa [Link.received, spentPlace] using .refl

end Steps

/-! ## Runs -/

variable {bundle : Party → KB} {manager : Party → Y} {y : TwoPartyState OneTimeKeyBundle}

omit [KeyBundle KB] in
theorem room_start {events : List Event}
    (hsends : checks = true ∨ ∀ p, sends p events < 2 ^ 64 - 1) :
    Room checks (Link.start bundle manager) events := by
  refine hsends.imp_right fun hsends p => ?_
  have hp := hsends p
  change 1 + _ < _
  omega

theorem Linked.foldl (hc : c.Ideal) (hcdc : codec.Lawful) {link : Link KB Y}
    (h : Linked c codec link) {events : List Event} (hroom : Room checks link events) :
    Linked c codec (events.foldl (Link.next checks c codec) link) := by
  induction events generalizing link with
  | nil => exact h
  | cons event events ih =>
    obtain ⟨contents, hcarr⟩ := h
    obtain ⟨contents', hnext, -⟩ := Carries.next hc hcdc hcarr hroom
    exact ih ⟨contents', hnext⟩ hroom.next

/-- Whatever two parties have sent and received, the next message on its way to one of them is
accepted and yields what was given to `send`. -/
theorem receive_next (checks : Bool) (c : Primitives) (codec : PlaintextCodec)
    (bundle : Party → KB) (manager : Party → Y) (hc : c.Ideal) (hcodec : codec.Lawful)
    (hholds : ∀ p, Holds c (manager p) (bundle p)) (events : List Event)
    (hsends : checks = true ∨ ∀ p, sends p events < 2 ^ 64 - 1) (p : Party) (e : Envelope)
    (rest : List Envelope)
    (hqueue : (Link.after checks c codec bundle manager events).queue p = e :: rest) :
    ∃ y m, TwoParty.receive checks c codec
        ((Link.after checks c codec bundle manager events).state p)
        ((Link.after checks c codec bundle manager events).manager p) e.message =
      .ok (y, m, e.plaintext) := by
  have hlnk : Linked c codec (Link.start bundle manager) := ⟨_, carries_start hholds⟩
  obtain ⟨contents, hcarr⟩ := hlnk.foldl hc hcodec (room_start hsends)
  obtain ⟨y, m, _, _, _, hrcv, _⟩ := Carries.received hc hcodec hcarr hqueue
  exact ⟨y, m, hrcv⟩

/-! ## A session with simple primitives -/

def firstBytes (N : Nat) (l : Bytes) : Vector UInt8 N := Vector.ofFn fun i => l.getD i 0

theorem firstBytes_append {N : Nat} (v : Vector UInt8 N) (l : Bytes) :
    firstBytes N (v.toList ++ l) = v := by
  apply Vector.ext
  intro i hi
  have hlen : i < v.toList.length := by
    rwa [v.length_toList]
  rw [firstBytes, getElem_ofFn, List.getD_eq_getElem?_getD,
    List.getElem?_append_left hlen, List.getElem?_eq_getElem hlen, getD_some,
    getElem_toList]

theorem zipWith_add_comm {N : Nat} (v w : Vector UInt8 N) :
    Vector.zipWith (· + ·) v w = Vector.zipWith (· + ·) w v := by
  apply Vector.ext
  intro i hi
  rw [getElem_zipWith hi, getElem_zipWith hi]
  exact UInt8.add_comm _ _

/-- Keys are their own public keys, and a ciphertext begins with the key. -/
def samplePrimitives : Primitives where
  verifyingKey s := ⟨s.secret.bytes⟩
  calculateAgreement s p := Vector.zipWith (· + ·) s.secret.bytes p.bytes
  derive N salt ikm info := Vector.replicate N ((salt ++ ikm ++ info).foldl (· + ·) 1)
  aeadEncrypt key plaintext _ _ := some (key.toList ++ plaintext)
  aeadDecrypt key ciphertext _ _ :=
    if ciphertext.take 32 = key.toList then some (ciphertext.drop 32) else none
  hpkeSeal _ key _ _ plaintext := some ⟨key.bytes.toList, plaintext⟩
  hpkeOpen ciphertext s _ _ :=
    if ciphertext.kemOutput = s.secret.bytes.toList then some ciphertext.ciphertext else none
  xeddsaSign _ _ _ := ⟨Vector.replicate SIGNATURE_SIZE 0⟩
  xeddsaVerify _ _ _ := .ok ()

theorem ideal_samplePrimitives : samplePrimitives.Ideal where
  agreement a b := zipWith_add_comm a.secret.bytes b.secret.bytes
  aead h := by
    cases h
    simp [samplePrimitives]
  hpke h := by
    cases h
    exact if_pos rfl

def sampleCodec : PlaintextCodec where
  toBytes p := some (CborValue.bigEndian 8 p.senderNextIndex.toNat ++
    (p.receiverNewSecret.secret.bytes.toList ++ (p.senderNewVerifyingKey.bytes.toList ++
      p.plaintext)))
  fromBytes bytes :=
    let secret := bytes.drop 8
    let key := secret.drop SECRET_KEY_SIZE
    some ⟨key.drop PUBLIC_KEY_SIZE, ⟨⟨firstBytes _ secret⟩⟩, ⟨firstBytes _ key⟩,
      UInt64.ofNat (CborValue.ofBigEndian (bytes.take 8))⟩

theorem lawful_sampleCodec : sampleCodec.Lawful := by
  intro p bytes h
  have hlen := length_bigEndian 8 p.senderNextIndex.toNat
  have hidx : ofBigEndian (bigEndian 8 p.senderNextIndex.toNat) = p.senderNextIndex.toNat :=
    ofBigEndian_bigEndian p.senderNextIndex.toNat_lt
  have hrest : ∀ {N : Nat} (v : Vector UInt8 N) (l : Bytes), (v.toList ++ l).drop N = l :=
    fun v l => List.drop_left' v.length_toList
  rw [← Option.some.inj h]
  dsimp only [sampleCodec]
  rw [List.drop_left' hlen, List.take_left' hlen, hidx, UInt64.ofNat_toNat,
    hrest, hrest, firstBytes_append, firstBytes_append]

def sampleKey (byte : UInt8) : SecretKey := SecretKey.fromBytes (Vector.replicate _ byte)

def samplePrekey (p : Party) : PreKey :=
  ⟨samplePrimitives.verifyingKey (sampleKey (if p = .alice then 1 else 2)), ⟨0, 10⟩⟩

def sampleSignature : XSignature := ⟨Vector.replicate SIGNATURE_SIZE 0⟩

def sampleManager (p : Party) : KeyManagerState where
  identitySecret := sampleKey 3
  identityKey := samplePrimitives.verifyingKey (sampleKey 3)
  prekeys := Finmap.singleton (samplePrekey p).key
    ⟨samplePrekey p, sampleSignature, sampleKey (if p = .alice then 1 else 2)⟩
  onetimeSecrets := Finmap.singleton 0 ((samplePrekey p).key, sampleKey 4)
  onetimeNextId := 1

def sampleBundle (p : Party) : OneTimeKeyBundle :=
  ⟨samplePrimitives.verifyingKey (sampleKey 3), samplePrekey p, sampleSignature,
    some ⟨samplePrimitives.verifyingKey (sampleKey 4), 0⟩⟩

theorem holds_sampleBundle (p : Party) :
    Holds samplePrimitives (sampleManager p) (sampleBundle p) where
  identity := rfl
  prekey := by
    refine ⟨sampleKey (if p = .alice then 1 else 2), ?_, rfl⟩
    change KeyManager.prekeySecret (sampleManager p) (samplePrekey p).key = _
    rw [KeyManager.prekeySecret, sampleManager, Finmap.lookup_singleton_eq]
  longterm := nofun
  onetime := by
    intro id hid
    cases hid
    refine ⟨_, _, KeyManager.useOnetimeSecret_of_lookup Finmap.lookup_singleton_eq, rfl, rfl, rfl⟩

def sampleSend (p : Party) (byte : UInt8) : Event :=
  .send p (some 5) [byte] ⟨false, List.replicate 96 byte⟩ []

def sampleEvents : List Event :=
  [sampleSend .alice 5, sampleSend .bob 6, .receive .bob, sampleSend .bob 7, .receive .alice,
    .receive .alice, sampleSend .alice 8]

theorem receive_next_sampleEvents : ∃ e rest,
    (Link.after true samplePrimitives sampleCodec sampleBundle sampleManager
      sampleEvents).queue .bob = e :: rest ∧
    ∃ y m, TwoParty.receive true samplePrimitives sampleCodec
        ((Link.after true samplePrimitives sampleCodec sampleBundle sampleManager
          sampleEvents).state .bob)
        ((Link.after true samplePrimitives sampleCodec sampleBundle sampleManager
          sampleEvents).manager .bob) e.message = .ok (y, m, e.plaintext) := by
  have hlen : ((Link.after true samplePrimitives sampleCodec sampleBundle sampleManager
      sampleEvents).queue .bob).length = 1 := by
    decide +kernel
  obtain ⟨e, hq⟩ := List.length_eq_one_iff.mp hlen
  exact ⟨e, [], hq, receive_next true samplePrimitives sampleCodec sampleBundle sampleManager
    ideal_samplePrimitives lawful_sampleCodec holds_sampleBundle sampleEvents (Or.inl rfl) .bob e []
    hq⟩

end P2Panda.Encryption.TwoParty
