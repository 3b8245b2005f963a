import P2Panda.Encryption.TwoParty.Keyring
import Mathlib.Logic.Function.Basic

/-!
# Two parties sending to each other

Each direction keeps its order; otherwise the parties are interleaved in any way. The messages on
their way to a party can be opened with its keys, and its next key is offered before it is asked
for.
-/

namespace P2Panda.Encryption.TwoParty

open P2Panda.Library P2Panda.Core List

variable {KB Y ε : Type} [KeyBundle KB] [PreKeyManager Y ε]
variable {checks : Bool} {c : Primitives} {codec : PlaintextCodec}

/-- A message on its way, and the plaintext given to `send`. -/
structure Envelope where
  message : TwoPartyMessage
  plaintext : Bytes
  deriving DecidableEq

variable (KB c codec) in
inductive Drains : Keyring Y → List Envelope → List TwoPartyPlaintext → Keyring Y → Prop
  | nil {k} : Drains k [] [] k
  | cons {k k₁ k' e p queue contents} : Opens KB c codec k e.message p k₁ →
      p.plaintext = e.plaintext → Drains k₁ queue contents k' →
      Drains k (e :: queue) (p :: contents) k'

section Drains

variable {k k' : Keyring Y} {queue : List Envelope} {contents : List TwoPartyPlaintext}

theorem Drains.own_subset (h : Drains KB c codec k queue contents k') {i : UInt64}
    {s : SecretKey} (hi : k'.own i = some s) : k.own i = some s := by
  induction h with
  | nil => exact hi
  | cons hopens _ _ ih => exact hopens.own_subset (ih hi)

theorem Drains.insert (h : Drains KB c codec k queue contents k') {n : UInt64}
    (hk : k.Below n) (s : SecretKey) :
    Drains KB c codec (k.insert n s) queue contents (k'.insert n s) := by
  induction h with
  | nil => exact .nil
  | cons hopens hplain _ ih =>
    exact .cons (hopens.insert hk s) hplain (ih (hopens.below hk))

theorem Drains.concat (h : Drains KB c codec k queue contents k') {e : Envelope}
    {p : TwoPartyPlaintext} {k'' : Keyring Y} (hopens : Opens KB c codec k' e.message p k'')
    (hplain : p.plaintext = e.plaintext) :
    Drains KB c codec k (queue ++ [e]) (contents ++ [p]) k'' := by
  induction h with
  | nil => exact .cons hopens hplain .nil
  | cons hfst heq _ ih => exact .cons hfst heq (ih hopens)

end Drains

variable (c codec) in
/-- A party, the messages on their way to it and their contents, its keyring once all are opened,
the other party, and what is on its way there. -/
structure Side (y : TwoPartyState KB) (manager : Y) (queue : List Envelope)
    (contents : List TwoPartyPlaintext) (last : Keyring Y) (y' : TwoPartyState KB)
    (offers : List TwoPartyPlaintext) : Prop where
  drains : Drains KB c codec (keyring y manager) queue contents last
  addressed : Addressed c y' last
  offered : ∀ p ∈ offers, ∃ s, last.own p.senderNextIndex = some s ∧
    c.verifyingKey s = p.senderNewVerifyingKey
  unused : ∀ p ∈ offers, ∀ i, y'.theirNextKeyUsed = .ownKey i → i < p.senderNextIndex
  sorted : offers.Pairwise fun p q => p.senderNextIndex < q.senderNextIndex
  inRange : InRange y

theorem Addressed.insert {y : TwoPartyState KB} {k : Keyring Y} (h : Addressed c y k)
    {n : UInt64} (hk : k.Below n) (s : SecretKey) : Addressed c y (k.insert n s) := by
  cases h with
  | preKey b hused hkey hbndl hholds => exact .preKey b hused hkey hbndl hholds
  | receivedKey s' hused hkey hrecv => exact .receivedKey s' hused hkey hrecv
  | ownKey i s' hused hkey hown =>
    exact .ownKey i s' hused hkey ((Keyring.own_insert_of_lt (hk i s' hown)).trans hown)

theorem Addressed.own_of_used {y : TwoPartyState KB} {k : Keyring Y} (h : Addressed c y k)
    {i : UInt64} (hi : y.theirNextKeyUsed = .ownKey i) : ∃ s, k.own i = some s := by
  cases h with
  | preKey b hused => exact absurd (hused.symm.trans hi) nofun
  | receivedKey s' hused => exact absurd (hused.symm.trans hi) nofun
  | ownKey i' s' hused hkey hown =>
    cases hused.symm.trans hi
    exact ⟨s', hown⟩

omit [KeyBundle KB] in
theorem Sent.lt_next {y y₁ : TwoPartyState KB} {p : TwoPartyPlaintext} {s : SecretKey}
    (h : Sent checks c y y₁ p s) (hnext : checks = true ∨ y.ourNextKeyIndex.toNat + 1 < 2 ^ 64) :
    y.ourNextKeyIndex < y₁.ourNextKeyIndex := by
  have hlt : y.ourNextKeyIndex.toNat + (1 : UInt64).toNat < 2 ^ 64 := by
    cases hnext with
    | inl hchk =>
      have heq := h.next
      rw [hchk] at heq
      exact lt_of_addU64_eq_ok heq
    | inr hlt => exact hlt
  have heq := h.next
  rw [addU64_of_lt hlt, Outcome.ok.injEq] at heq
  rw [← heq, UInt64.lt_iff_toNat_lt, UInt64.toNat_add, Nat.mod_eq_of_lt hlt]
  exact Nat.lt_succ_self _

namespace Side

variable {y y₁ y' y'₁ : TwoPartyState KB} {manager manager₁ : Y} {queue : List Envelope}
  {contents offers : List TwoPartyPlaintext} {last last' : Keyring Y} {p : TwoPartyPlaintext}
  {e : Envelope} {s : SecretKey}

theorem below (h : Side c codec y manager queue contents last y' offers) :
    last.Below y.ourNextKeyIndex :=
  fun i s hi => (h.inRange.keys i s (h.drains.own_subset hi)).2

theorem ownSend (h : Side c codec y manager queue contents last y' offers)
    (hsent : Sent checks c y y₁ p s)
    (hnext : checks = true ∨ y.ourNextKeyIndex.toNat + 1 < 2 ^ 64) :
    Side c codec y₁ manager queue contents (last.insert y.ourNextKeyIndex s) y'
      (offers ++ [p]) := by
  have hlt := hsent.lt_next hnext
  have hkeyring : keyring y₁ manager = (keyring y manager).insert y.ourNextKeyIndex s := by
    unfold keyring Keyring.insert
    rw [hsent.keys, hsent.received]
    congr 1
    funext j
    exact HashMap.lookup_insert_ite _ _ _ _
  have hbelow : (keyring y manager).Below y.ourNextKeyIndex :=
    fun i s hi => (h.inRange.keys i s hi).2
  constructor
  · rw [hkeyring]
    exact h.drains.insert hbelow s
  · exact h.addressed.insert h.below s
  · intro q hq
    cases mem_append.mp hq with
    | inl hq =>
      obtain ⟨s', hown, hkey⟩ := h.offered q hq
      exact ⟨s', (Keyring.own_insert_of_lt (h.below _ _ hown)).trans hown, hkey⟩
    | inr hq =>
      rw [mem_singleton.mp hq, hsent.index, hsent.key]
      exact ⟨s, Keyring.own_insert_self, rfl⟩
  · intro q hq i hi
    cases mem_append.mp hq with
    | inl hq => exact h.unused q hq i hi
    | inr hq =>
      rw [mem_singleton.mp hq, hsent.index]
      obtain ⟨s', hown⟩ := h.addressed.own_of_used hi
      exact h.below i s' hown
  · rw [pairwise_append]
    refine ⟨h.sorted, pairwise_singleton _ _, ?_⟩
    intro q hq q' hq'
    obtain ⟨s', hown, _⟩ := h.offered q hq
    rw [mem_singleton.mp hq', hsent.index]
    exact h.below _ s' hown
  · constructor
    · rw [hsent.min]
      exact UInt64.le_trans h.inRange.min_le (UInt64.le_of_lt hlt)
    · intro i s' hi
      rw [hsent.keys, HashMap.lookup_insert_ite] at hi
      rw [hsent.min]
      split_ifs at hi with heq
      · rw [heq]
        exact ⟨h.inRange.min_le, hlt⟩
      · have hrange := h.inRange.keys i s' hi
        exact ⟨hrange.1, UInt64.lt_trans hrange.2 hlt⟩

theorem peerSend (h : Side c codec y manager queue contents last y' offers)
    (hsent : Sent checks c y' y'₁ p s) (hopens : Opens KB c codec last e.message p last')
    (hused : e.message.keyUsed = y'.theirNextKeyUsed) (hplain : p.plaintext = e.plaintext) :
    Side c codec y manager (queue ++ [e]) (contents ++ [p]) last' y'₁ offers where
  drains := h.drains.concat hopens hplain
  addressed := .receivedKey p.receiverNewSecret hsent.used hsent.verifyingKey hopens.received_eq
  offered := by
    intro q hq
    obtain ⟨s', hown, hkey⟩ := h.offered q hq
    refine ⟨s', hopens.own_of_lt hown ?_, hkey⟩
    intro i hi
    exact h.unused q hq i (hused.symm.trans hi)
  unused := by
    intro q _ i hi
    rw [hsent.used] at hi
    cases hi
  sorted := h.sorted
  inRange := h.inRange

theorem ownReceive (h : Side c codec y manager (e :: queue) contents last y' offers)
    (hc : c.Ideal) (hcdc : codec.Lawful) :
    ∃ y₁ manager₁ p contents1, contents = p :: contents1 ∧
      receive checks c codec y manager e.message = .ok (y₁, manager₁, e.plaintext) ∧
      Opens KB c codec (keyring y manager) e.message p (keyring y₁ manager₁) ∧
      Received y y₁ p ∧ Side c codec y₁ manager₁ queue contents1 last y' offers := by
  have hdrains := h.drains
  cases hdrains with
  | cons hopens hplain hrest =>
    obtain ⟨y₁, manager₁, hrcv, hkeyring, hrecv⟩ := receive_of_opens hc hcdc h.inRange hopens
    rw [hplain] at hrcv
    rw [← hkeyring] at hrest hopens
    exact ⟨y₁, manager₁, _, _, rfl, hrcv, hopens, hrecv,
      ⟨hrest, h.addressed, h.offered, h.unused, h.sorted, hrecv.inRange⟩⟩

theorem peerReceive (h : Side c codec y manager queue contents last y' (p :: offers))
    (hrecv : Received y' y'₁ p) :
    Side c codec y manager queue contents last y'₁ offers where
  drains := h.drains
  addressed := by
    obtain ⟨s, hown, hkey⟩ := h.offered p mem_cons_self
    refine .ownKey p.senderNextIndex s hrecv.used ?_ hown
    rw [hrecv.verifyingKey, hkey]
  offered := fun q hq => h.offered q (mem_cons_of_mem p hq)
  unused := by
    intro q hq i hi
    rw [hrecv.used] at hi
    cases hi
    exact (pairwise_cons.mp h.sorted).1 q hq
  sorted := (pairwise_cons.mp h.sorted).2
  inRange := h.inRange

end Side

end P2Panda.Encryption.TwoParty
