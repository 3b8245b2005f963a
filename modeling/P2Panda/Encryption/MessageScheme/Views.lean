import P2Panda.Encryption.MessageScheme.AckedTestDgm
import P2Panda.Encryption.MessageScheme.Runs

/-!
# Views after a removal

A member sees the group as another one does: without those whose removal the other has acknowledged.
This acknowledgement is not recorded, so that only who has sent a removal counts.
-/

namespace P2Panda.Encryption.MessageScheme

open P2Panda.Library Outcome P2Panda.Core Finset

namespace AckedTestDgm

variable {ID OP : Type} {y y' : State ID OP}

/-- There is an entry under the key, with a property. -/
def Holds {K T : Type} [DecidableEq K] (m : HashMap K T) (k : K) (p : T → Prop) : Prop :=
  ∃ a, m.lookup k = some a ∧ p a

section Entries

variable {K T : Type} [DecidableEq K] {m : HashMap K T} {k : K} {p : T → Prop}

theorem Holds.insert (h : Holds m k p) {k' : K} {a : T} (ha : k = k' → p a) :
    Holds (m.insert k' a) k p := by
  unfold Holds
  rw [HashMap.lookup_insert_ite]
  split
  · exact ⟨a, rfl, ha ‹_›⟩
  · exact h

theorem Holds.modifyAll (h : Holds m k p) (s : Finset K) {f : T → T} (hf : ∀ a, p a → p (f a)) :
    Holds (m.modifyAll s f) k p := by
  obtain ⟨a, hlook, ha⟩ := h
  refine ⟨if k ∈ s then f a else a, ?_, by split <;> simp [ha, hf]⟩
  exact Finmap.lookup_eq_some_iff.mpr
    (Multiset.mem_map.mpr ⟨⟨k, a⟩, Finmap.lookup_eq_some_iff.mp hlook, rfl⟩)

end Entries

variable [DecidableEq ID] [DecidableEq OP]

/-- A removal of the member is recorded, with the viewer among those who have acknowledged it. -/
structure Out (viewer member : ID) (messageId : OP) (y : State ID OP) : Prop where
  notMember : member ∉ y.members
  removed : Holds y.infos member (messageId ∈ ·.removeMessages)
  acked : Holds y.removeInfos messageId (viewer ∈ ·.acks)

variable {viewer member : ID} {messageId : OP}

theorem Out.notMem (h : Out viewer member messageId y) {view : Finset ID}
    (hview : membersView y viewer = .ok view) : member ∉ view := by
  obtain ⟨info, hinfo, hrm⟩ := h.removed
  obtain ⟨removeInfo, hlook, hacked⟩ := h.acked
  have hany : anyAcked y info viewer = true :=
    List.any_eq_true.mpr ⟨messageId, hrm, by rw [hlook]; exact decide_eq_true hacked⟩
  unfold membersView at hview
  split at hview
  · cases hview
    exact h.notMember
  · obtain ⟨_, _, hview⟩ := bind_eq_ok.mp hview
    obtain ⟨_, _, hview⟩ := bind_eq_ok.mp hview
    split at hview
    · cases hview
      simp [h.notMember, hinfo, hany]
    · cases hview

theorem Out.addMember (h : Out viewer member messageId y) {adder added : ID} (hne : added ≠ member)
    (hadd : addMember y adder added = .ok y') : Out viewer member messageId y' := by
  unfold AckedTestDgm.addMember at hadd
  split at hadd
  · cases hadd
    refine ⟨?_, h.removed.insert fun heq => absurd heq.symm hne, h.acked⟩
    simp [h.notMember, hne.symm]
  · split at hadd
    · cases hadd
    · obtain ⟨_, _, hadd⟩ := bind_eq_ok.mp hadd
      cases hadd
      exact ⟨h.notMember, h.removed.insert fun heq => absurd heq.symm hne,
        h.acked.modifyAll _ fun _ hacked => hacked⟩

theorem Out.add (h : Out viewer member messageId y) {adder added : ID} {id : OP}
    (hne : added ≠ member) (hadd : add y adder added id = .ok y') :
    Out viewer member messageId y' := by
  obtain ⟨y1, hadd1, hadd⟩ := bind_eq_ok.mp hadd
  obtain ⟨_, _, hadd⟩ := bind_eq_ok.mp hadd
  obtain ⟨_, _, hadd⟩ := bind_eq_ok.mp hadd
  obtain ⟨_, _, hadd⟩ := bind_eq_ok.mp hadd
  cases hadd
  have hout := h.addMember hne hadd1
  refine ⟨hout.notMember, hout.removed.modifyAll _ fun _ hrm => hrm,
    hout.acked.modifyAll _ fun info hacked => ?_⟩
  unfold followAcks
  split
  · exact mem_insert_of_mem hacked
  · exact hacked

theorem Out.removeRound (h : Out viewer member messageId y) {remover : ID} {id : OP}
    {madeProgress : Bool} (hround : removeRound y remover id = .ok (y', madeProgress)) :
    Out viewer member messageId y' := by
  obtain ⟨removeInfo, hlook, hround⟩ := bind_eq_ok.mp hround
  obtain ⟨_, _, hround⟩ := bind_eq_ok.mp hround
  obtain ⟨_, _, hround⟩ := bind_eq_ok.mp hround
  split at hround
  · cases hround
  · cases hround
    refine ⟨fun hmem => h.notMember (mem_sdiff.mp hmem).1,
      h.removed.modifyAll _ fun _ hrm => List.mem_append_left _ hrm, h.acked.insert ?_⟩
    rintro rfl
    obtain ⟨info, hinfo, hacked⟩ := h.acked
    cases (expect_eq_ok.mp hlook).symm.trans hinfo
    exact hacked

theorem removeRounds_induction {P : State ID OP → Prop} {remover : ID}
    (hround : ∀ y y' madeProgress, P y → removeRound y remover messageId = .ok (y', madeProgress) →
      P y') {rounds : Nat} (hy : P y) (h : removeRounds remover messageId rounds y = .ok y') :
    P y' := by
  induction rounds generalizing y with
  | zero =>
    cases h
    exact hy
  | succ rounds ih =>
    obtain ⟨⟨y1, madeProgress⟩, hstep, h⟩ := bind_eq_ok.mp h
    have hy1 := hround y y1 madeProgress hy hstep
    cases madeProgress with
    | false =>
      cases h
      exact hy1
    | true => exact ih hy1 h

omit [DecidableEq OP] in
theorem markRemoved_eq_ok {removed : ID} {id : OP} (h : markRemoved y removed id = .ok y') :
    removed ∉ y'.members ∧ y'.members ⊆ y.members ∧ y'.removeInfos = y.removeInfos ∧
      ∃ info : MemberInfo ID OP, y.infos.lookup removed = some info ∧ y'.infos =
        y.infos.insert removed { info with removeMessages := info.removeMessages ++ [id] } := by
  unfold markRemoved at h
  split at h
  · obtain ⟨info, hinfo, h⟩ := bind_eq_ok.mp h
    cases h
    exact ⟨notMem_erase _ _, erase_subset _ _, rfl, info, expect_eq_ok.mp hinfo, rfl⟩
  · rename_i hnot
    split at h
    · split at h
      · rename_i info hinfo
        cases h
        exact ⟨hnot, Subset.rfl, rfl, info, hinfo, rfl⟩
      · cases h
    · cases h

/-- A removal is recorded with the remover, and keeps what was recorded for others. -/
theorem out_remove {remover removed : ID} {id : OP}
    (h : remover = viewer ∧ removed = member ∧ id = messageId ∨
      Out viewer member messageId y ∧ id ≠ messageId)
    (hremove : remove y remover removed id = .ok y') : Out viewer member messageId y' := by
  obtain ⟨y1, hmark, hremove⟩ := bind_eq_ok.mp hremove
  obtain ⟨hnot, hsub, hinfos, info, hinfo, heq⟩ := markRemoved_eq_ok hmark
  refine removeRounds_induction (fun _ _ _ hy hround => hy.removeRound hround) ?_ hremove
  rcases h with ⟨rfl, rfl, rfl⟩ | ⟨hout, hne⟩
  · refine ⟨hnot, ?_, ?_⟩
    · refine ⟨_, by rw [heq, HashMap.lookup_insert_ite, if_pos rfl], ?_⟩
      exact List.mem_append_right _ (List.mem_singleton_self _)
    · exact ⟨_, by rw [HashMap.lookup_insert_ite, if_pos rfl], mem_insert_self _ _⟩
  · refine ⟨fun hmem => hout.notMember (hsub hmem), ?_, ?_⟩
    · change Holds y1.infos member (messageId ∈ ·.removeMessages)
      rw [heq]
      refine hout.removed.insert ?_
      rintro rfl
      obtain ⟨info', hinfo', hrm⟩ := hout.removed
      cases hinfo.symm.trans hinfo'
      exact List.mem_append_left _ hrm
    · change Holds (y1.removeInfos.insert id _) messageId (viewer ∈ ·.acks)
      rw [hinfos]
      exact hout.acked.insert fun heq => absurd heq.symm hne

theorem Out.ack (h : Out viewer member messageId y) {acker : ID} {id : OP}
    (hack : ack y acker id = .ok y') : Out viewer member messageId y' := by
  unfold AckedTestDgm.ack at hack
  split at hack
  · obtain ⟨info, hinfo, hack⟩ := bind_eq_ok.mp hack
    cases hack
    refine ⟨h.notMember, h.removed.insert ?_, h.acked⟩
    rintro rfl
    obtain ⟨info', hinfo', hrm⟩ := h.removed
    cases (expect_eq_ok.mp hinfo).symm.trans hinfo'
    exact hrm
  · split at hack
    · rename_i info hinfo
      split at hack
      · cases hack
      split at hack
      · cases hack
      cases hack
      refine ⟨h.notMember, h.removed, h.acked.insert ?_⟩
      rintro rfl
      obtain ⟨info', hinfo', hacked⟩ := h.acked
      cases hinfo.symm.trans hinfo'
      exact mem_insert_of_mem hacked
    · cases hack

/-- The message does not create the group anew, adds neither the member nor us, and is no other
removal under the same id. -/
def Spares (me member : ID) (messageId seq : OP) : ControlMessage ID OP → Prop
  | .create _ => False
  | .add added => added ≠ member ∧ added ≠ me
  | .remove _ => seq ≠ messageId
  | _ => True

theorem Out.changes {me sender : ID} {seq : OP} {message : ControlMessage ID OP}
    {directMessage : Option (DirectMessage ID (State ID OP))} (h : Out viewer member messageId y)
    (hspares : Spares me member messageId seq message)
    (hchanges : Dcgka.Changes me sender seq directMessage y y' message) :
    Out viewer member messageId y' := by
  cases message with
  | create initialMembers => cases hspares
  | ack ackSender ackSeq =>
    cases hchanges with
    | inl hsame => exact hsame ▸ h
    | inr hack => exact h.ack hack.2.2.2
  | update => exact hchanges ▸ h
  | remove removed => exact out_remove (.inr ⟨h, hspares⟩) hchanges
  | add added =>
    rw [Dcgka.Changes, if_neg hspares.2] at hchanges
    obtain ⟨extended, hadd, hchanges⟩ := hchanges
    have hout := h.add hspares.1 hadd
    split at hchanges
    · exact hchanges ▸ hout
    · exact hout.ack hchanges
  | addAck ackSender ackSeq => exact h.ack hchanges

end AckedTestDgm

namespace Dcgka

open AckedTestDgm

variable {ID OP P Y ρ ε : Type} [DecidableEq ID] [DecidableEq OP] [KeyRegistry P ID ρ]
  [PreKeyManager Y ε]
variable {checks : Bool} {c : Primitives} {codec : PlaintextCodec}
  {y y' : DcgkaState ID OP P (State ID OP) Y} {event : DcgkaEvent ID OP (State ID OP)}
  {events : List (DcgkaEvent ID OP (State ID OP))} {me v x : ID} {seq : OP}

def EventSpares (me member : ID) (messageId : OP) : DcgkaEvent ID OP (State ID OP) → Prop
  | .operate operation seq .. => ∀ message, Announces message operation →
      Spares me member messageId seq message
  | .receive input .. => Spares me member messageId input.seq input.controlMessage

theorem out_next (h : Out v x seq y.dgm) (hspares : EventSpares y.myId x seq event)
    (hnext : next checks c codec y event = .ok y') : Out v x seq y'.dgm := by
  obtain ⟨-, hchanges⟩ := changes_next hnext
  cases event with
  | operate operation seq' env rng rng' =>
    obtain ⟨message, hann, hchanges⟩ := hchanges
    exact h.changes (hspares message hann) hchanges
  | receive input env rng => exact h.changes hspares hchanges.2

theorem out_run (h : Out v x seq y.dgm) (hspares : ∀ event ∈ events, EventSpares y.myId x seq event)
    (hrun : run checks c codec y events = .ok y') : Out v x seq y'.dgm := by
  induction events generalizing y with
  | nil =>
    cases hrun
    exact h
  | cons event events ih =>
    obtain ⟨y1, hnext, hrun⟩ := bind_eq_ok.mp hrun
    rw [List.forall_mem_cons] at hspares
    refine ih (out_next h hspares.1 hnext) ?_ hrun
    rw [(changes_next hnext).1]
    exact hspares.2

theorem myId_run (hrun : run checks c codec y events = .ok y') : y'.myId = y.myId := by
  induction events generalizing y with
  | nil =>
    cases hrun
    rfl
  | cons event events ih =>
    obtain ⟨y1, hnext, hrun⟩ := bind_eq_ok.mp hrun
    exact (ih hrun).trans (changes_next hnext).1

/-- Who has sent a removal themselves does not have the removed member in their view, whatever else
is processed later, acknowledgements included, unless the group is created anew, the member or we
are added again or another removal has the same id. -/
theorem not_mem_memberView {myKeys : Y} {pki : P}
    {before later : List (DcgkaEvent ID OP (State ID OP))}
    {input : ProcessInput ID OP (State ID OP)} {env : Surroundings ID} {rng : Rng}
    {view : Finset ID}
    (hrun : run checks c codec (init me myKeys pki (AckedTestDgm.init me))
      (before ++ .receive input env rng :: later) = .ok y)
    (hremoval : input.controlMessage = .remove x)
    (hlater : ∀ event ∈ later, EventSpares me x input.seq event)
    (hview : memberView y input.sender = (.ok view : Result ID OP ρ _ _)) : x ∉ view := by
  rw [run, List.foldlM_append] at hrun
  obtain ⟨y1, hbefore, hrun⟩ := bind_eq_ok.mp hrun
  obtain ⟨y2, hnext, hrun⟩ := bind_eq_ok.mp hrun
  obtain ⟨hid, -, hchanges⟩ := changes_next hnext
  rw [hremoval] at hchanges
  have hout : Out input.sender x input.seq y2.dgm := out_remove (.inl ⟨rfl, rfl, rfl⟩) hchanges
  have hme : y2.myId = me := hid.trans (myId_run hbefore)
  exact (out_run hout (by rwa [hme]) hrun).notMem (mapErr_eq_ok.mp hview)

open TwoParty

def removalOfCharlie : List (DcgkaEvent Nat Nat (State Nat Nat)) :=
  [sampleOperate (.create [0, 1, 2]) 0, sampleOperate (.remove 2) 1]

def ackOfBob : DcgkaEvent Nat Nat (State Nat Nat) := sampleReceive 3 1 (.ack 0 1) none

def sampleInit (me : Nat) :
    DcgkaState Nat Nat (KeyRegistryState Nat) (State Nat Nat) KeyManagerState :=
  init me (sampleManager .alice) sampleRegistry (AckedTestDgm.init me)

/-- The second member has acknowledged the removal of the third one. -/
theorem charlie_mem_memberView : ∃ y y' view,
    run true samplePrimitives sampleCodec (sampleInit 0) removalOfCharlie = .ok y ∧
      (∀ op, ¬(isAdd y.dgm op = true ∧ isRemove y.dgm op = true)) ∧
      next true samplePrimitives sampleCodec y ackOfBob = .ok y' ∧
      memberView y' 1 = (.ok view : Result Nat Nat Empty _ _) ∧ 2 ∈ view := by
  have hreturns : (run true samplePrimitives sampleCodec (sampleInit 0) removalOfCharlie).Returns
      fun y => y.dgm.addsByMsg = ∅ ∧
        (next true samplePrimitives sampleCodec y ackOfBob).Returns fun y' =>
          (memberView y' 1 : Result Nat Nat Empty _ _).Returns fun view => 2 ∈ view := by
    decide +kernel
  obtain ⟨y, hrun, hadds, y', hack, view, hview, hmem⟩ := hreturns
  refine ⟨y, y', view, hrun, fun op hboth => ?_, hack, hview, hmem⟩
  rw [isAdd, hadds] at hboth
  exact absurd hboth.1 Bool.false_ne_true

/-- The second member removes the third one as well. -/
def removalByBob (ciphertext : TwoPartyMessage) : ProcessInput Nat Nat (State Nat Nat) :=
  ⟨2, 1, .remove 2, some ⟨0, .twoParty ciphertext⟩⟩

theorem charlie_notMem_memberView : ∃ ciphertext y view,
    run true samplePrimitives sampleCodec (sampleInit 0) (removalOfCharlie ++
      .receive (removalByBob ciphertext) sampleSurroundings sampleRng :: [ackOfBob]) = .ok y ∧
    memberView y 1 = (.ok view : Result Nat Nat Empty _ _) ∧ 2 ∉ view := by
  have hreturns : (encryptTo true samplePrimitives sampleCodec sampleSurroundings (sampleInit 1) 0
      (List.replicate 32 5) sampleRng : Result Nat Nat _ Empty _).Returns fun sent =>
        (run true samplePrimitives sampleCodec (sampleInit 0) (removalOfCharlie ++ .receive
          (removalByBob sent.2.1) sampleSurroundings sampleRng :: [ackOfBob])).Returns fun y =>
            (memberView y 1 : Result Nat Nat Empty _ _).Returns fun _ => True := by
    decide +kernel
  obtain ⟨⟨_, ciphertext, _⟩, -, y, hrun, view, hview, -⟩ := hreturns
  refine ⟨ciphertext, y, view, hrun, hview, not_mem_memberView hrun rfl ?_ hview⟩
  rintro event hmem
  cases List.mem_singleton.mp hmem
  trivial

end Dcgka

end P2Panda.Encryption.MessageScheme
