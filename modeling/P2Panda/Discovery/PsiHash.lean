import P2Panda.Library.HashMap
import P2Panda.Library.Outcome

/-!
# Private set intersection of topics

Two nodes exchange salted hashes of their topics, and each computes the intersection. Their salts
differ, so that nobody can pass off the hashes of the other as their own.
-/

namespace P2Panda.Discovery

open P2Panda.Library Finset

abbrev SaltHalf := Vector UInt8 32

abbrev Salt := Vector UInt8 65

def ALICE_SALT_BYTE : UInt8 := 0

def BOB_SALT_BYTE : UInt8 := 1

def combineSalt (aliceSaltHalf bobSaltHalf : SaltHalf) (pairByte : UInt8) : Salt :=
  (aliceSaltHalf ++ bobSaltHalf).push pairByte

/-- The hash of a topic has the type of a topic. -/
inductive PsiHashMessage (TP I : Type) where
  | aliceSaltHalf (aliceSaltHalf : SaltHalf)
  | bobSaltHalfAndHashedData (bobSaltHalf : SaltHalf) (topicsForAlice : Finset TP)
  | aliceHashedData (topicsForBob : Finset TP)
  | nodes (transportInfos : I)
  deriving DecidableEq

inductive PsiHashError (S P : Type) where
  | store (error : S)
  | subscription (error : P)
  | unexpectedMessage
  | stream
  | sink
  deriving DecidableEq

structure DiscoveryResult (ID TP I : Type) where
  remoteNodeId : ID
  transportInfos : I
  topics : Finset TP
  deriving DecidableEq

structure PsiHashDiscoveryProtocol (ID TP I S P : Type) where
  remoteNodeId : ID
  topics : Except P (Finset TP)
  order : HashOrder TP
  gatherTransportInfos : Finset TP → Except S I

variable {ID TP I S P M : Type}

/-- The item at a place of the stream, or an error. -/
def receive (rx : List (Option M)) (n : Nat) : Except (PsiHashError S P) M :=
  match rx[n]? with
  | some (some message) => .ok message
  | _ => .error .stream

def send (closed : Nat → Bool) (n : Nat) : Except (PsiHashError S P) Unit :=
  if closed n then .error .sink else .ok ()

theorem receive_eq_ok {rx : List (Option M)} {n : Nat} {message : M}
    (h : receive rx n = (.ok message : Except (PsiHashError S P) M)) :
    rx[n]? = some (some message) := by
  unfold receive at h
  split at h
  · cases h
    assumption
  · cases h

variable [DecidableEq TP] (hash : TP → Salt → TP)

def hashVector (topics : List TP) (salt : Salt) : List TP := topics.map fun topic => hash topic salt

def computeIntersection (localTopics : List TP) (remoteHashes : Finset TP) (salt : Salt) :
    Finset TP :=
  ((hashVector hash localTopics salt).zipIdx.filterMap fun (localHash, i) =>
    if localHash ∈ remoteHashes then localTopics[i]? else none).toFinset

namespace PsiHashDiscoveryProtocol

/-- The result, and all messages which were sent. -/
def alice (self : PsiHashDiscoveryProtocol ID TP I S P) (aliceSaltHalf : SaltHalf)
    (rx : List (Option (PsiHashMessage TP I))) (closed : Nat → Bool) :
    Except (PsiHashError S P) (DiscoveryResult ID TP I × List (PsiHashMessage TP I)) := do
  send closed 0
  let .bobSaltHalfAndHashedData bobSaltHalf topicsForAlice ← receive rx 0
    | throw .unexpectedMessage
  let myTopics := self.order.iter (← self.topics.mapError .subscription)
  let aliceFinalSalt := combineSalt aliceSaltHalf bobSaltHalf ALICE_SALT_BYTE
  let bobFinalSalt := combineSalt aliceSaltHalf bobSaltHalf BOB_SALT_BYTE
  let topicsIntersection := computeIntersection hash myTopics topicsForAlice bobFinalSalt
  let topicsForBob := (hashVector hash myTopics aliceFinalSalt).toFinset
  send closed 1
  let .nodes transportInfos ← receive rx 1 | throw .unexpectedMessage
  let myInfos ← (self.gatherTransportInfos topicsIntersection).mapError .store
  send closed 2
  return (⟨self.remoteNodeId, transportInfos, topicsIntersection⟩,
    [.aliceSaltHalf aliceSaltHalf, .aliceHashedData topicsForBob, .nodes myInfos])

def bob (self : PsiHashDiscoveryProtocol ID TP I S P) (bobSaltHalf : SaltHalf)
    (rx : List (Option (PsiHashMessage TP I))) (closed : Nat → Bool) :
    Except (PsiHashError S P) (DiscoveryResult ID TP I × List (PsiHashMessage TP I)) := do
  let .aliceSaltHalf aliceSaltHalf ← receive rx 0 | throw .unexpectedMessage
  let aliceFinalSalt := combineSalt aliceSaltHalf bobSaltHalf ALICE_SALT_BYTE
  let bobFinalSalt := combineSalt aliceSaltHalf bobSaltHalf BOB_SALT_BYTE
  let myTopics := self.order.iter (← self.topics.mapError .subscription)
  let topicsForAlice := (hashVector hash myTopics bobFinalSalt).toFinset
  send closed 0
  let .aliceHashedData topicsForBob ← receive rx 1 | throw .unexpectedMessage
  let topicsIntersection := computeIntersection hash myTopics topicsForBob aliceFinalSalt
  let myInfos ← (self.gatherTransportInfos topicsIntersection).mapError .store
  send closed 1
  let .nodes transportInfos ← receive rx 2 | throw .unexpectedMessage
  return (⟨self.remoteNodeId, transportInfos, topicsIntersection⟩,
    [.bobSaltHalfAndHashedData bobSaltHalf topicsForAlice, .nodes myInfos])

variable {hash} {self : PsiHashDiscoveryProtocol ID TP I S P} {s t : SaltHalf}
  {topics A B : Finset TP} {rx : List (Option (PsiHashMessage TP I))} {closed : Nat → Bool}
  {tx : List (PsiHashMessage TP I)} {result : DiscoveryResult ID TP I}

theorem toFinset_hashVector (order : HashOrder TP) (salt : Salt) :
    (hashVector hash (order.iter topics) salt).toFinset = topics.image (hash · salt) := by
  ext
  simp [hashVector]

theorem computeIntersection_iter (order : HashOrder TP) (hashes : Finset TP) (salt : Salt) :
    computeIntersection hash (order.iter topics) hashes salt =
      topics.filter (hash · salt ∈ hashes) := by
  ext topic
  rw [mem_filter, ← order.mem_iter (s := topics), computeIntersection, List.mem_toFinset,
    List.mem_filterMap, List.mem_iff_getElem?]
  simp only [hashVector, Prod.exists, List.mem_zipIdx_iff_getElem?, List.getElem?_map,
    Option.map_eq_some_iff]
  grind

theorem alice_eq_ok (htopics : self.topics = .ok topics)
    (h : alice hash self s rx closed = .ok (result, tx)) : ∃ t hashes infos,
      rx[0]? = some (some (.bobSaltHalfAndHashedData t hashes)) ∧
      tx = [.aliceSaltHalf s,
        .aliceHashedData (topics.image (hash · (combineSalt s t ALICE_SALT_BYTE))),
        .nodes infos] ∧
      result.topics = topics.filter (hash · (combineSalt s t BOB_SALT_BYTE) ∈ hashes) := by
  rw [alice, htopics] at h
  obtain ⟨_, -, h⟩ := except_bind_eq_ok.mp h
  obtain ⟨message, hrcv, h⟩ := except_bind_eq_ok.mp h
  split at h
  · obtain ⟨_, ⟨⟩, h⟩ := except_bind_eq_ok.mp h
    obtain ⟨_, -, h⟩ := except_bind_eq_ok.mp h
    obtain ⟨message', -, h⟩ := except_bind_eq_ok.mp h
    split at h
    · obtain ⟨infos, -, h⟩ := except_bind_eq_ok.mp h
      obtain ⟨_, -, h⟩ := except_bind_eq_ok.mp h
      cases h
      rw [toFinset_hashVector, computeIntersection_iter]
      exact ⟨_, _, infos, receive_eq_ok hrcv, rfl, rfl⟩
    · cases h
  · cases h

theorem bob_eq_ok (htopics : self.topics = .ok topics)
    (h : bob hash self t rx closed = .ok (result, tx)) : ∃ s hashes infos,
      rx[0]? = some (some (.aliceSaltHalf s)) ∧ rx[1]? = some (some (.aliceHashedData hashes)) ∧
      tx = [.bobSaltHalfAndHashedData t (topics.image (hash · (combineSalt s t BOB_SALT_BYTE))),
        .nodes infos] ∧
      result.topics = topics.filter (hash · (combineSalt s t ALICE_SALT_BYTE) ∈ hashes) := by
  rw [bob, htopics] at h
  obtain ⟨message, hrcv, h⟩ := except_bind_eq_ok.mp h
  split at h
  · obtain ⟨_, ⟨⟩, h⟩ := except_bind_eq_ok.mp h
    obtain ⟨_, -, h⟩ := except_bind_eq_ok.mp h
    obtain ⟨message', hreceive', h⟩ := except_bind_eq_ok.mp h
    split at h
    · obtain ⟨infos, -, h⟩ := except_bind_eq_ok.mp h
      obtain ⟨_, -, h⟩ := except_bind_eq_ok.mp h
      obtain ⟨message'', -, h⟩ := except_bind_eq_ok.mp h
      split at h
      · cases h
        rw [toFinset_hashVector, computeIntersection_iter]
        exact ⟨_, _, infos, receive_eq_ok hrcv, receive_eq_ok hreceive', rfl, rfl⟩
      · cases h
    · cases h
  · cases h

/-- The hashes of some topics, under the salts of a session, all differ. -/
def CollisionFree (hash : TP → Salt → TP) (topics : Finset TP) (s t : SaltHalf) : Prop :=
  ∀ x ∈ topics, ∀ y ∈ topics, ∀ p ∈ [ALICE_SALT_BYTE, BOB_SALT_BYTE],
    ∀ q ∈ [ALICE_SALT_BYTE, BOB_SALT_BYTE],
      hash x (combineSalt s t p) = hash y (combineSalt s t q) →
        x = y ∧ combineSalt s t p = combineSalt s t q

theorem CollisionFree.filter_image (h : CollisionFree hash topics s t) (hA : A ⊆ topics)
    (hB : B ⊆ topics) {p q : UInt8} (hp : p ∈ [ALICE_SALT_BYTE, BOB_SALT_BYTE])
    (hq : q ∈ [ALICE_SALT_BYTE, BOB_SALT_BYTE]) :
    A.filter (hash · (combineSalt s t p) ∈ B.image (hash · (combineSalt s t q))) =
      if p = q then A ∩ B else ∅ := by
  have heq {x y : TP} (hx : x ∈ A) (hy : y ∈ B)
      (hhash : hash y (combineSalt s t q) = hash x (combineSalt s t p)) : y = x ∧ q = p := by
    obtain ⟨hxy, hsalt⟩ := h y (hB hy) x (hA hx) q hq p hp hhash
    exact ⟨hxy, (Vector.push_eq_push.mp hsalt).1⟩
  ext x
  split_ifs
  · grind
  · grind

/-- What is read was sent at the same place. -/
def Delivers (tx : List M) (rx : List (Option M)) : Prop :=
  ∀ (n : Nat) message, rx[n]? = some (some message) → tx[n]? = some message

/-- Two nodes which both return report the topics they share. Of somebody who sends back what they
got, nothing is reported. -/
theorem topics_reported (htopics : self.topics = .ok topics)
    (h : bob hash self t rx closed = .ok (result, tx)) :
    (∀ {a : PsiHashDiscoveryProtocol ID TP I S P} {s A rx' closed' result' tx'},
      a.topics = .ok A → alice hash a s rx' closed' = .ok (result', tx') → Delivers tx rx' →
      Delivers tx' rx → CollisionFree hash (A ∪ topics) s t →
      result'.topics = A ∩ topics ∧ result.topics = A ∩ topics) ∧
    ∀ {s hashes}, .bobSaltHalfAndHashedData t hashes ∈ tx →
      rx[0]? = some (some (.aliceSaltHalf s)) → rx[1]? = some (some (.aliceHashedData hashes)) →
      CollisionFree hash topics s t → result.topics = ∅ := by
  obtain ⟨s, hashes, infos, hfst, hsnd, rfl, hres⟩ := bob_eq_ok htopics h
  rw [hres]
  constructor
  · intro a s' A rx' closed' result' tx' hA halice hrx' hrx hfree
    obtain ⟨t', hashes', infos', hfirst', rfl, hresult'⟩ := alice_eq_ok hA halice
    cases hrx' 0 _ hfirst'
    cases hrx 0 _ hfst
    cases hrx 1 _ hsnd
    rw [hresult', hfree.filter_image subset_union_left subset_union_right (by simp)
      (by simp), hfree.filter_image subset_union_right subset_union_left (by simp)
      (by simp), inter_comm topics]
    exact ⟨rfl, rfl⟩
  · intro s' hashes' hsent hsalt hhashes hfree
    cases hfst.symm.trans hsalt
    cases hsnd.symm.trans hhashes
    obtain rfl : hashes = _ := by simpa using hsent
    rw [hfree.filter_image subset_rfl subset_rfl (by simp) (by simp)]
    rfl

def sampleHash (topic : Nat) (salt : Salt) : Nat := 2 * topic + salt[64].toNat

def samplePeer (topics : Finset Nat) : PsiHashDiscoveryProtocol Unit Nat Unit Empty Empty :=
  ⟨(), .ok topics, .increasing id Function.injective_id, fun _ => .ok ()⟩

def sampleFromAlice (hashes : Finset Nat) : List (PsiHashMessage Nat Unit) :=
  [.aliceSaltHalf (.replicate 32 0), .aliceHashedData hashes, .nodes ()]

def sampleFromBob : List (PsiHashMessage Nat Unit) :=
  [.bobSaltHalfAndHashedData (.replicate 32 1) {5, 7}, .nodes ()]

/-- A run with Alice, and one with somebody who sends back the hashes of Bob. -/
theorem topics_reported_samplePeer : ∃ result result' result'',
    alice sampleHash (samplePeer {1, 2}) (.replicate 32 0) (sampleFromBob.map some)
      (fun _ => false) = .ok (result, sampleFromAlice {2, 4}) ∧
    bob sampleHash (samplePeer {2, 3}) (.replicate 32 1) ((sampleFromAlice {2, 4}).map some)
      (fun _ => false) = .ok (result', sampleFromBob) ∧
    bob sampleHash (samplePeer {2, 3}) (.replicate 32 1) ((sampleFromAlice {5, 7}).map some)
      (fun _ => false) = .ok (result'', sampleFromBob) ∧
    (result.topics = {1, 2} ∩ {2, 3} ∧ result'.topics = {1, 2} ∩ {2, 3}) ∧
    result''.topics = ∅ := by
  have halice : alice sampleHash (samplePeer {1, 2}) (.replicate 32 0) (sampleFromBob.map some)
      (fun _ => false) = .ok (⟨(), (), {2}⟩, sampleFromAlice {2, 4}) := by decide +kernel
  have hbob : bob sampleHash (samplePeer {2, 3}) (.replicate 32 1)
      ((sampleFromAlice {2, 4}).map some) (fun _ => false) =
        .ok (⟨(), (), {2}⟩, sampleFromBob) := by decide +kernel
  have hecho : bob sampleHash (samplePeer {2, 3}) (.replicate 32 1)
      ((sampleFromAlice {5, 7}).map some) (fun _ => false) =
        .ok (⟨(), (), ∅⟩, sampleFromBob) := by decide +kernel
  have hfree : CollisionFree sampleHash ({1, 2} ∪ {2, 3}) (.replicate 32 0) (.replicate 32 1) := by
    unfold CollisionFree
    decide +kernel
  refine ⟨_, _, _, halice, hbob, hecho, (topics_reported rfl hbob).1 rfl halice ?_ ?_ hfree,
    (topics_reported rfl hecho).2 List.mem_cons_self rfl rfl fun x hx y hy =>
      hfree x (mem_union_right _ hx) y (mem_union_right _ hy)⟩
  · intro n message h
    simpa using h
  · intro n message h
    simpa using h

end PsiHashDiscoveryProtocol

end P2Panda.Discovery
