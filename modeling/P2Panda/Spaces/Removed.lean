import Mathlib.Data.List.TakeWhile
import Mathlib.Data.Set.Card
import P2Panda.Auth.Group.BoundedTraversal
import P2Panda.Spaces.Runs

/-!
# Removed members

A space keeps the individuals dropped by the removals it has received. The query filters them with
an iterator over the current members.
-/

namespace P2Panda.Spaces

open P2Panda.Library Outcome P2Panda.Auth P2Panda.Auth.Group Space List HashOrder

variable {ID OP C φ : Type} [LinearOrder ID]

section Filter

variable {members removed : List ID} {x : ID}

@[simp] theorem filterRemoved_nil (removed : List ID) : Space.filterRemoved [] removed = [] := by
  induction removed with
  | nil => rfl
  | cons x removed ih => exact ih

theorem filterRemoved_sublist : (Space.filterRemoved members removed).Sublist removed := by
  induction removed generalizing members with
  | nil => exact .slnil
  | cons x removed ih =>
    rw [filterRemoved]
    split
    · exact ih.cons x
    · exact ih.cons_cons x

/-- Nobody who was removed is a member: each of them takes one member off the iterator, until it is
exhausted. -/
theorem filterRemoved_of_disjoint (h : ∀ x ∈ removed, x ∉ members) :
    Space.filterRemoved members removed = removed.take members.length := by
  induction removed generalizing members with
  | nil => simp [filterRemoved]
  | cons x removed ih =>
    cases members with
    | nil => simp
    | cons member members =>
      have hne : ¬member = x := by
        rintro rfl
        exact h member mem_cons_self mem_cons_self
      rw [filterRemoved, dropWhile_cons_of_neg (by simpa using hne)]
      simp only [length_cons, take_succ_cons, List.cons.injEq, true_and]
      exact ih fun a ha hmbr =>
        h a (mem_cons_of_mem _ ha) (mem_cons_of_mem _ hmbr)

/-- The first of the removed individuals is kept if there is any other member. -/
theorem mem_filterRemoved_cons {member : ID} (hmbr : member ∈ members) (hne : member ≠ x) :
    x ∈ Space.filterRemoved members (x :: removed) := by
  rw [filterRemoved]
  split
  · rename_i hnone
    have := dropWhile_eq_nil_iff.mp hnone member hmbr
    exact absurd (by simpa using this) hne
  · exact mem_cons_self

theorem filterRemoved_alone : Space.filterRemoved [x] (x :: removed) = [] := by
  simp [filterRemoved]

/-- In whichever order the removed individuals are walked, the filter takes out the members just if
there is nothing to take out and enough members to go through, or a single one on both sides. -/
theorem filterRemoved_exact_iff (hnd : members.Nodup) (s : Finset ID) :
    (∀ order : HashOrder ID, ∀ x,
      x ∈ Space.filterRemoved members (order.iter s) ↔ x ∈ s ∧ x ∉ members) ↔
    (∀ x ∈ s, x ∉ members.toFinset) ∧ s.card ≤ members.toFinset.card ∨
      ∃ x, s = {x} ∧ members.toFinset = {x} := by
  simp only [mem_toFinset, toFinset_card_of_nodup hnd]
  have hsingle (x : ID) : members.toFinset = {x} ↔ members = [x] := by
    rw [← perm_singleton, perm_ext_iff_of_nodup hnd (nodup_singleton x), Finset.ext_iff]
    simp
  simp only [hsingle]
  constructor
  · intro h
    by_cases hdisj : ∀ x ∈ s, x ∉ members
    · refine Or.inl ⟨hdisj, ?_⟩
      rcases s.eq_empty_or_nonempty with rfl | ⟨a, -⟩
      · exact Nat.zero_le _
      · have hsub : s ⊆ (filterRemoved members ((startingWith a).iter s)).toFinset :=
          fun x hx => mem_toFinset.mpr ((h _ x).mpr ⟨hx, hdisj x hx⟩)
        refine (Finset.card_le_card hsub).trans ((toFinset_card_le _).trans ?_)
        rw [filterRemoved_of_disjoint fun x hx => hdisj x ((startingWith a).mem_iter.mp hx)]
        exact length_take_le _ _
    · push Not at hdisj
      obtain ⟨x, hx, hmbr⟩ := hdisj
      have hfst := h (.startingWith x)
      simp only [iter_startingWith hx] at hfst
      -- Somebody who is a member again must not be kept, so there is no other member.
      have hmbrs : members = [x] := by
        by_contra hmbrs
        rcases (hnd.ne_singleton_iff x).mp hmbrs with rfl | ⟨member, hin, hne⟩
        · cases hmbr
        · exact ((hfst x).mp (mem_filterRemoved_cons hin hne)).2 hmbr
      refine Or.inr ⟨x, Finset.eq_singleton_iff_unique_mem.mpr ⟨hx, fun a ha => ?_⟩, hmbrs⟩
      by_contra hne
      have hkept := (hfst a).mpr ⟨ha, by rw [hmbrs]; simpa using hne⟩
      rw [hmbrs, filterRemoved_alone] at hkept
      cases hkept
  · rintro (⟨hdisj, hcard⟩ | ⟨a, rfl, rfl⟩) order x
    · have hlen : (order.iter s).length = s.card := by
        rw [← toFinset_card_of_nodup (order.nodup_iter s), order.toFinset_iter]
      rw [filterRemoved_of_disjoint fun x hx => hdisj x (order.mem_iter.mp hx),
        take_of_length_le (hlen.trans_le hcard), order.mem_iter]
      exact ⟨fun hx => ⟨hx, hdisj x hx⟩, fun hx => hx.1⟩
    · rw [iter_singleton, filterRemoved_alone]
      simp

end Filter

variable [Placeholders ID OP] [DecidableEq OP] [Conditions C] {platform : Platform ID} {me : ID}
  {authMessage : AuthMessage ID OP C} {spaceMessage : SpaceMembershipMessage ID OP}
  {y : SpacesState Nat Nat Unit}

def SpacesState.members (y : SpacesState ID OP C) : Set ID :=
  {id | y.groupsY.HasMember y.groupId id}

/-- Who is no member anymore after a removal, if the local actor was one before or after it. -/
def dropped (me : ID) (action : GroupAction ID C) (y y' : SpacesState ID OP C) : Set ID :=
  {id | (∃ member, action = .remove member) ∧ (me ∈ y.members ∨ me ∈ y'.members) ∧
    id ∈ y.members \ y'.members}

/-- A sequence of membership changes, with those dropped by published or received removals. In
between, the space does anything else, or is loaded again. -/
inductive History (φ : Type) (platform : Platform ID) (me : ID) :
    SpacesState ID OP C → Set ID → Set ID → Prop where
  | start {y : SpacesState ID OP C} : GroupCrdt.Consistent y.groupsY → y.removed = ∅ →
      History φ platform me y ∅ ∅
  | other {y y' : SpacesState ID OP C} {published received : Set ID} :
      History φ platform me y published received → y'.groupId = y.groupId →
      y'.groupsY = y.groupsY → y'.removed = y.removed → History φ platform me y' published received
  | publish {y y' : SpacesState ID OP C} {published received : Set ID}
      {env : Surroundings ID OP C φ} {manager : Manager ID OP C} {authMessage : AuthMessage ID OP C}
      {message : SpacesMessage ID OP C} {events : List (Event ID OP C)} :
      History φ platform me y published received → manager.actorId = me →
      Space.processAuthMessage platform env manager y authMessage = .ok (y', message, events) →
      History φ platform me y' (published ∪ dropped me authMessage.action y y') received
  | receive {y y' : SpacesState ID OP C} {published received : Set ID}
      {env : Surroundings ID OP C φ} {manager : Manager ID OP C} {id : OP}
      {spaceMessage : SpaceMembershipMessage ID OP} {authMessage : AuthMessage ID OP C}
      {events : List (Event ID OP C)} :
      History φ platform me y published received → manager.actorId = me →
      y = Space.getOrInitState platform manager id spaceMessage.groupId →
      Space.handleMembershipMessage platform env manager id spaceMessage authMessage =
        .ok (some (y', events)) →
      History φ platform me y' published (received ∪ dropped me authMessage.action y y')

omit [Placeholders ID OP] [DecidableEq OP] in
theorem map_fst_eq_of_beq {members members' : List (ID × Access C)}
    (h : (members == members') = true) : members.map Prod.fst = members'.map Prod.fst := by
  induction members generalizing members' with
  | nil =>
    cases members' with
    | nil => rfl
    | cons => cases h
  | cons member members ih =>
    cases members' with
    | nil => cases h
    | cons member' members' =>
      rw [cons_beq_cons, Bool.and_eq_true] at h
      have hfst := (Bool.and_eq_true_iff.mp h.1).1
      rw [map_cons, map_cons, beq_iff_eq.mp hfst, ih h.2]

omit [Placeholders ID OP] [DecidableEq OP] [Conditions C] in
theorem removedBy_ejected (previousMembers : List (ID × Access C)) (event : SpaceEvent ID OP C)
    (ejected : Bool) (spaceId : OP) :
    Space.removedBy previousMembers (event :: if ejected then [.ejected spaceId] else []) =
      Space.removedBy previousMembers [event] := by
  cases ejected <;> rfl

omit [Placeholders ID OP] [DecidableEq OP] [Conditions C] in
theorem mem_removedBy_removed {previousMembers removed : List (ID × Access C)} {spaceId : OP}
    {context : SpaceContext ID C} {groupsContext : GroupContext ID C} {id : ID} :
    id ∈ Space.removedBy previousMembers [.removed spaceId removed context groupsContext] ↔
      id ∈ previousMembers.map Prod.fst ∧ id ∉ context.members.map Prod.fst := by
  simp only [removedBy, removedMembers, sortMembers, foldl_cons, foldl_nil,
    Finset.empty_union, mem_toFinset, mem_map, mem_insertionSort, mem_filter]
  aesop

omit [Placeholders ID OP] in
/-- The individuals recorded with the events of a message are those which it has dropped. -/
theorem mem_removedBy {ε : Type} {E : Nat → Runtime ID OP} {y : SpacesState ID OP C}
    {previousMembers : List (ID × Access C)} {previousAncestors : List ID}
    {events : List (SpaceEvent ID OP C)} (hy : y.groupsY.Resolved)
    (h : Space.generateSpaceEvents E me y authMessage spaceMessage previousMembers
      previousAncestors = (.ok events : Outcome ε _)) {id : ID} :
    id ∈ Space.removedBy previousMembers events ↔ (∃ member, authMessage.action = .remove member) ∧
      (me ∈ previousMembers.map Prod.fst ∨ me ∈ y.members) ∧
      id ∈ previousMembers.map Prod.fst ∧ id ∉ y.members := by
  obtain ⟨nextMembers, hnext, h⟩ := bind_eq_ok.mp h
  have hmem := (hy.mem_members hnext).2
  have hany (members : List (ID × Access C)) :
      (members.any fun entry => entry.1 = me) = true ↔ me ∈ members.map Prod.fst := by
    simp
  dsimp only at h
  split at h
  · rename_i hsame
    cases h
    refine iff_of_false (Finset.notMem_empty _) ?_
    rintro ⟨-, -, hid, hnot⟩
    rw [map_fst_eq_of_beq hsame] at hid
    exact hnot ((hmem id).mp hid)
  · split at h
    · rename_i hnone
      cases h
      refine iff_of_false (Finset.notMem_empty _) ?_
      rw [Bool.and_eq_true, Bool.not_eq_true', Bool.not_eq_true', ← Bool.not_eq_true,
        ← Bool.not_eq_true] at hnone
      rintro ⟨-, hme | hme, -⟩
      · exact hnone.1 ((hany _).mpr hme)
      · exact hnone.2 ((hany _).mpr ((hmem me).mpr hme))
    · rename_i hsome
      obtain ⟨spaceEvent, hev, h⟩ := bind_eq_ok.mp h
      obtain ⟨contextMembers, hctx, hev⟩ := bind_eq_ok.mp hev
      obtain ⟨actors, -, hev⟩ := bind_eq_ok.mp hev
      obtain ⟨groupsContext, -, hev⟩ := bind_eq_ok.mp hev
      have hme : me ∈ previousMembers.map Prod.fst ∨ me ∈ y.members := by
        change _ ∨ y.groupsY.HasMember y.groupId me
        by_contra hnot
        rw [not_or, ← hmem, ← hany, ← hany, Bool.not_eq_true, Bool.not_eq_true] at hnot
        exact hsome (Bool.and_eq_true_iff.mpr ⟨congrArg Bool.not hnot.1, congrArg Bool.not hnot.2⟩)
      cases h
      rw [removedBy_ejected]
      cases hactn : authMessage.action with
      | remove member =>
        rw [hactn] at hev
        cases hev
        rw [mem_removedBy_removed, (hy.mem_members hctx).2 id]
        exact ⟨fun hid => ⟨⟨member, rfl⟩, hme, hid⟩, fun hid => hid.2.2⟩
      | _ =>
        rw [hactn] at hev
        cases hev
        exact iff_of_false (Finset.notMem_empty _) (by simp)

theorem Handled.removed_eq {env : Surroundings ID OP C φ} {y y' : SpacesState ID OP C}
    {events : List (Event ID OP C)}
    (h : Handled platform env me y spaceMessage authMessage y' events)
    (hy : GroupCrdt.Consistent y.groupsY) :
    GroupCrdt.Consistent y'.groupsY ∧
      ∀ id, id ∈ y'.removed ↔ id ∈ y.removed ∨ id ∈ dropped me authMessage.action y y' := by
  have hcons : GroupCrdt.Consistent y'.groupsY := by
    rw [h.groupsY_eq]
    exact consistent_processPointer hy h.processed
  let y1 := addDependency env.order h.received spaceMessage.id spaceMessage.spaceDependencies
  have hgroups : y'.groupsY = y1.groupsY := (congrArg SpacesState.groupsY h.state :)
  have hmbrs : y'.members = y1.members := (congrArg SpacesState.members h.state :)
  have hrec : y'.removed = h.received.removed ∪ removedBy h.currentMembers h.spaceEvents :=
    (congrArg SpacesState.removed h.state)
  obtain ⟨encryptionY, hrecv, -⟩ := receiveMembership_eq_ok h.receive
  have hrmd : h.received.removed = y.removed := (congrArg SpacesState.removed hrecv :)
  refine ⟨hcons, fun id => ?_⟩
  rw [hrec, hrmd, Finset.mem_union, mem_removedBy (hgroups ▸ hcons.toResolved)
    h.generate, ← hmbrs, (hy.toResolved.mem_members h.current).2,
    (hy.toResolved.mem_members h.current).2]
  rfl

theorem History.removed_eq {y : SpacesState ID OP C} {published received : Set ID}
    (h : History φ platform me y published received) :
    GroupCrdt.Consistent y.groupsY ∧ (y.removed : Set ID) = received := by
  induction h with
  | start hcons hrmd => exact ⟨hcons, by rw [hrmd, Finset.coe_empty]⟩
  | other _ _ hgroups hrmd ih =>
    rw [hgroups, hrmd]
    exact ih
  | publish _ _ hok ih =>
    obtain ⟨hpub⟩ := nonempty_published hok
    have hrmd := congrArg SpacesState.removed hpub.state
    rw [hpub.groupsY_eq, hrmd]
    exact ⟨(GroupCrdt.process_ok ih.1 hpub.processed).2.1, ih.2⟩
  | receive _ hme hy hok ih =>
    subst hme hy
    obtain ⟨hhdld⟩ := nonempty_handled hok
    obtain ⟨hcons, hrmd⟩ := hhdld.removed_eq ih.1
    refine ⟨hcons, Set.ext fun id => ?_⟩
    rw [← ih.2]
    exact hrmd id

/-- After any membership changes of a space, the query is exact, in whichever order the recorded
individuals are walked, just if those dropped by a published removal are members again or were
dropped by a received one too, and either none of the latter is a member again and there are at
least as many members as them, or there is a single one who is now the only member. -/
theorem History.removed_exact_iff {me : ID} {y : SpacesState ID OP C} {published received : Set ID}
    (h : History φ platform me y published received) {manager : Manager ID OP C} {id : OP}
    (hstate : Space.state platform manager id = (.ok y : Outcome (SpaceError ID OP φ) _))
    (E : Runtime ID OP) :
    (∀ order, (Space.removed platform manager E order id :
        Outcome (SpaceError ID OP φ) _).Returns fun removed =>
      removed.Nodup ∧ ∀ x, x ∈ removed ↔ x ∈ (published ∪ received) \ y.members) ↔
    published ⊆ received ∪ y.members ∧
      ((∀ x ∈ received, x ∉ y.members) ∧ received.ncard ≤ y.members.ncard ∨
        ∃ x, received = {x} ∧ y.members = {x}) := by
  obtain ⟨hcons, rfl⟩ := h.removed_eq
  obtain ⟨members, hmbrs⟩ := hcons.isOk_members E y.groupId
  obtain ⟨hnd, hmem⟩ := hcons.toResolved.mem_members hmbrs
  have hset : y.members = (members.map Prod.fst).toFinset := by
    ext x
    rw [Finset.mem_coe, mem_toFinset, hmem]
    rfl
  have hquery (order : HashOrder ID) (p : List ID → Prop) :
      (removed platform manager E order id : Outcome (SpaceError ID OP φ) _).Returns p ↔
        p (filterRemoved (members.map Prod.fst) (order.iter y.removed)) := by
    rw [removed, hstate, ok_bind, hmbrs]
    exact returns_ok _ _
  have hsublist (order : HashOrder ID) : (filterRemoved (members.map Prod.fst)
      (order.iter y.removed)).Sublist (order.iter y.removed) :=
    filterRemoved_sublist
  have hflt := filterRemoved_exact_iff hnd y.removed
  rw [hset, Set.ncard_coe_finset, Set.ncard_coe_finset]
  simp only [hquery, Finset.mem_coe, ← Finset.coe_singleton, Finset.coe_inj, ← hflt]
  have hdiff (hsub : published ⊆ ↑y.removed ∪ ↑(members.map Prod.fst).toFinset) (x : ID) :
      x ∈ (published ∪ ↑y.removed) \ ↑(members.map Prod.fst).toFinset ↔
        x ∈ y.removed ∧ x ∉ members.map Prod.fst := by
    rw [Set.mem_sdiff, Finset.mem_coe, mem_toFinset]
    refine and_congr_left fun hnot => ⟨?_, Or.inr⟩
    rintro (hx | hx)
    · exact (hsub hx).resolve_right fun hmbr => hnot (mem_toFinset.mp hmbr)
    · exact hx
  constructor
  · intro h
    have hsub : published ⊆ ↑y.removed ∪ ↑(members.map Prod.fst).toFinset := by
      intro x hx
      by_contra hnot
      rw [Set.mem_union, not_or] at hnot
      have hkept := ((h (.startingWith x)).2 x).mpr ⟨Or.inl hx, hnot.2⟩
      exact hnot.1 ((startingWith x).mem_iter.mp ((hsublist _).subset hkept))
    refine ⟨hsub, fun order x => ?_⟩
    rw [(h order).2 x, hdiff hsub]
  · rintro ⟨hsub, h⟩ order
    refine ⟨(order.nodup_iter _).sublist (hsublist order), fun x => ?_⟩
    rw [h order x, hdiff hsub]

section Sample

theorem consistent_sampleGroups (operations : List (Operation Nat Nat Unit)) :
    GroupCrdt.Consistent (sampleGroups operations) := by
  unfold sampleGroups
  split
  · rename_i hrun
    exact (GroupCrdt.Run.of_processAll hrun).consistent
  · exact GroupCrdt.consistent_init

theorem getSpaceState_sampleSpaceManager (me : Nat) (space : SpacesStoreState Nat Nat Unit) :
    (sampleSpaceManager me space).getSpaceState space.spaceId = some space :=
  Finmap.lookup_insert _

theorem History.loaded {published received : Set Nat} {me : Nat}
    (h : History Empty samplePlatform me y published received) :
    ∃ y', Space.state samplePlatform (sampleSpaceManager me y.toStore) y.spaceId =
        (.ok y' : Outcome (SpaceError Nat Nat Empty) _) ∧
      History Empty samplePlatform me y' published received ∧ y'.members = y.members := by
  have hlook := getSpaceState_sampleSpaceManager me y.toStore
  refine ⟨.assembleFromStore y.toStore ((sampleSpaceManager me y.toStore).keyManager samplePlatform)
    (sampleSpaceManager me y.toStore).keyRegistry, ?_, h.other rfl rfl rfl, rfl⟩
  change state _ _ y.toStore.spaceId = _
  rw [state, hlook]

theorem mem_members_of_returns (hy : GroupCrdt.Consistent y.groupsY) (hid : y.groupId = 50)
    {ids : List Nat} (h : (sampleMembers y).Returns fun members => members.map Prod.fst = ids)
    {id : Nat} :
    id ∈ y.members ↔ id ∈ ids := by
  obtain ⟨members, hmbrs, rfl⟩ := h
  rw [(hy.toResolved.mem_members hmbrs).2, ← hid]
  rfl

theorem exists_published_removal : ∃ (y : SpacesState Nat Nat Unit) (published : Set Nat),
    History Empty samplePlatform 0 y published ∅ ∧ y.spaceId = 60 ∧ 3 ∈ published \ y.members := by
  have hcur : (sampleMembers (sampleFounder [sampleCreation])).Returns fun members =>
      members.map Prod.fst = [0, 1, 3] := by
    decide +kernel
  have hret : (processAuthMessage samplePlatform sampleEnv
      (sampleSpaceManager 0 sampleFounding) (sampleFounder [sampleCreation])
      sampleRemoval).Returns fun result => (result.1.spaceId = 60 ∧ result.1.groupId = 50) ∧
        (sampleMembers result.1).Returns fun members => members.map Prod.fst = [0, 1] := by
    decide +kernel
  obtain ⟨⟨y, message, events⟩, hok, ⟨hspc, hgrp⟩, hnext⟩ := hret
  have hstart : History Empty samplePlatform 0 (sampleFounder [sampleCreation]) ∅ ∅ :=
    .start (consistent_sampleGroups [sampleCreation]) rfl
  have hpubl := hstart.publish rfl hok
  have hbef {id : Nat} : id ∈ (sampleFounder [sampleCreation]).members ↔ id ∈ [0, 1, 3] :=
    mem_members_of_returns (consistent_sampleGroups [sampleCreation]) rfl hcur
  have hafter : 3 ∈ y.members ↔ 3 ∈ [0, 1] := mem_members_of_returns hpubl.removed_eq.1 hgrp hnext
  have hnot : 3 ∉ y.members := fun h => absurd (hafter.mp h) (by decide)
  exact ⟨y, _, hpubl, hspc, Or.inr ⟨⟨_, rfl⟩, Or.inl (hbef.mpr (by decide)),
    hbef.mpr (by decide), hnot⟩, hnot⟩

/-- The founder of a space removes the reader, and is told that nobody was removed. -/
theorem not_exact_published : ∃ (y : SpacesState Nat Nat Unit) (manager : Manager Nat Nat Unit)
    (published : Set Nat) (order : HashOrder Nat),
    History Empty samplePlatform 0 y published ∅ ∧
    Space.state samplePlatform manager 60 = (.ok y : Outcome (SpaceError Nat Nat Empty) _) ∧
    ¬(Space.removed samplePlatform manager .reference order 60 :
        Outcome (SpaceError Nat Nat Empty) _).Returns fun removed =>
      removed.Nodup ∧ ∀ x, x ∈ removed ↔ x ∈ (published ∪ ∅) \ y.members := by
  obtain ⟨y, published, hhist, hspc, hthree, hnot⟩ := exists_published_removal
  obtain ⟨y', hst, hhistory', hmbrs⟩ := hhist.loaded
  rw [hspc] at hst
  refine ⟨y', _, published, .startingWith 0, hhistory', hst, ?_⟩
  rintro ⟨removed, hok, -, hexact⟩
  have hkept := (hexact 3).mpr ⟨Or.inl hthree, hmbrs ▸ hnot⟩
  obtain ⟨_, hstate', hok⟩ := bind_eq_ok.mp hok
  cases hst.symm.trans hstate'
  obtain ⟨members, -, hok⟩ := bind_eq_ok.mp hok
  cases hok
  have hrec := (startingWith 0).mem_iter.mp (filterRemoved_sublist.subset hkept)
  rw [← Finset.mem_coe, hhistory'.removed_eq.2] at hrec
  exact hrec

/-- The other manager removes the reader, and the founder is told so. -/
theorem exact_received : ∃ (y : SpacesState Nat Nat Unit) (manager : Manager Nat Nat Unit)
    (received : Set Nat), History Empty samplePlatform 0 y ∅ received ∧
    Space.state samplePlatform manager 60 = (.ok y : Outcome (SpaceError Nat Nat Empty) _) ∧
    received = {3} ∧ ∀ order, (Space.removed samplePlatform manager .reference order 60 :
        Outcome (SpaceError Nat Nat Empty) _).Returns fun removed =>
      removed.Nodup ∧ ∀ x, x ∈ removed ↔ x ∈ (∅ ∪ received) \ y.members := by
  have hret : (handleMembershipMessage samplePlatform sampleEnv
      (sampleSpaceManager 0 sampleFounding) 60 sampleRemovalPointer sampleRemoval).Returns
      fun result => (result.any fun result => decide (result.1.spaceId = 60 ∧
        result.1.groupId = 50 ∧ result.1.removed = {3} ∧ (sampleMembers result.1).Returns
          fun members => members.map Prod.fst = [0, 1])) = true := by
    decide +kernel
  obtain ⟨result, hok, hany⟩ := hret
  obtain ⟨⟨y, events⟩, rfl, hres⟩ := (Option.any_eq_true _ _).mp hany
  obtain ⟨hspc, hgrp, hrmd, hnext⟩ := of_decide_eq_true hres
  have hstart : History Empty samplePlatform 0 (getOrInitState samplePlatform
      (sampleSpaceManager 0 sampleFounding) 60 50) ∅ ∅ := by
    have hlook : (sampleSpaceManager 0 sampleFounding).getSpaceState 60 = some sampleFounding :=
      getSpaceState_sampleSpaceManager 0 sampleFounding
    exact .start (consistent_sampleGroups [sampleCreation]) rfl
  have hrcv := hstart.receive rfl rfl hok
  have hmbrs : y.members = {0, 1} := by
    ext id
    rw [mem_members_of_returns hrcv.removed_eq.1 hgrp hnext]
    simp
  obtain ⟨y', hst, hhist, hmembers'⟩ := hrcv.loaded
  rw [hspc] at hst
  have hrecv := hrcv.removed_eq.2
  rw [hrmd, Finset.coe_singleton] at hrecv
  refine ⟨y', _, _, hhist, hst, hrecv.symm,
    (hhist.removed_exact_iff hst .reference).mpr ⟨Set.empty_subset _, Or.inl ?_⟩⟩
  rw [← hrecv, hmembers', hmbrs]
  refine ⟨by simp, ?_⟩
  rw [Set.ncard_singleton, Set.ncard_pair (by decide)]
  decide

end Sample

end P2Panda.Spaces
