import P2Panda.Auth.Group.Convergence

/-!
# Groups that are created once

As long as no group is created twice, counters rise along the causal order, and the current state of
a group is the join of its states at all operations.
-/

namespace P2Panda.Auth.Group.GroupCrdtInnerState

open P2Panda.Library GroupStates Finset DiGraphMap

variable {ID OP C : Type} [DecidableEq OP]

def CreatedOnce (y : GroupCrdtInnerState ID OP C) : Prop :=
  ∀ {c c' oc oc'}, y.Has c oc → y.Has c' oc' → oc.action.isCreate = true →
    oc'.action.isCreate = true → oc.groupId = oc'.groupId → c = c'

def CreatedOnceIn (y : GroupCrdtInnerState ID OP C) (groupId : ID) : Prop :=
  ∀ {c c' oc oc'}, y.Has c oc → y.Has c' oc' → oc.action.isCreate = true →
    oc'.action.isCreate = true → oc.groupId = groupId → oc'.groupId = groupId → c = c'

variable [DecidableEq ID] [Conditions C] {y : GroupCrdtInnerState ID OP C} {groupId : ID}
variable {x : OP} {o : Operation ID OP C} {base : GroupStates ID C} {states : GroupStates ID C}

omit [DecidableEq ID] [Conditions C] in
theorem CreatedOnce.on (honce : y.CreatedOnce) (groupId : ID) : y.CreatedOnceIn groupId :=
  fun hc hc' hcrt hcreate' hgrp hgroup' => honce hc hc' hcrt hcreate' (hgrp.trans hgroup'.symm)

theorem ResolvedFrom.absent (h : y.Resolved) (honce : y.CreatedOnceIn o.groupId) (hx : y.Has x o)
    (hfrom : y.ResolvedFrom x o base) (hcrt : o.action.isCreate = true) :
    base.lookup o.groupId = none := by
  obtain ⟨E, hmrg⟩ := hfrom.merged
  rw [← Option.not_isSome_iff_eq_none, (isJoin_of_mergeStates hmrg).present]
  rintro ⟨d, hd, hsome⟩
  have hadj := (h.history.adj_iff_dep hx).mpr hd
  obtain ⟨c, oc, hc, hcreate', hgrp, hrch⟩ := (h.present_stateOf hadj.left_mem).mp hsome
  have heq := honce hc hx hcreate' hcrt hgrp rfl
  subst heq
  exact h.history.acyclic c (hrch.trans_before hadj.before)

theorem ResolvedFrom.ranks_le (h : y.Resolved) (honce : y.CreatedOnceIn groupId) (hx : y.Has x o)
    (hfrom : y.ResolvedFrom x o base) :
    base.ranks groupId ≤ (y.stateOf x).ranks groupId := by
  rw [stateOf_eq hfrom.state, ranks, ranks, HashMap.lookup_insert_ite]
  split_ifs with hgrp
  · subst hgrp
    cases hcrt : o.action.isCreate with
    | true => simp [hfrom.absent h honce hx hcrt]
    | false =>
      obtain ⟨members, hmbrs⟩ := Option.isSome_iff_exists.mp
        (hfrom.present.resolve_left (by simp [hcrt]))
      simp only [hmbrs, Option.elim_some, WithBot.coe_le_coe]
      exact ranks_le_resolveMembers hcrt
  · exact le_rfl

theorem ranks_le_of_reaches (h : y.Resolved) (honce : y.CreatedOnceIn groupId)
    (hy : y.UnconditionalIn groupId) {a : OP} (hrch : y.graph.Reaches a x) :
    (y.stateOf a).ranks groupId ≤ (y.stateOf x).ranks groupId := by
  induction hrch with
  | refl => exact le_rfl
  | @tail b c _ hadj ih =>
    obtain ⟨o, base, hc, hfrom⟩ := h.resolved c hadj.right_mem
    have hb : b ∈ o.dependencies.toFinset := (h.history.adj_iff_dep hc).mp hadj
    calc (y.stateOf a).ranks groupId ≤ (y.stateOf b).ranks groupId := ih
      _ ≤ base.ranks groupId := by
        rw [hfrom.ranks_base h hy hc]
        exact le_sup (f := fun d => (y.stateOf d).ranks groupId) hb
      _ ≤ (y.stateOf c).ranks groupId := hfrom.ranks_le h honce hc

theorem ranks_currentState (h : y.Resolved) (hy : y.UnconditionalIn groupId)
    (hjoin : IsJoin y.stateOf y.headsGlobal states) :
    states.ranks groupId = y.headsGlobal.sup fun d => (y.stateOf d).ranks groupId :=
  hjoin.ranks fun _ hd => h.grantsOnly_stateOf hy.grantsOnly (mem_externals.mp hd).1

theorem IsExtension.ranks_currentState {y' : GroupCrdtInnerState ID OP C}
    (hext : IsExtension y y' o) (h' : y'.Resolved) (hy' : y'.UnconditionalIn groupId)
    (hold : ∀ x ∈ y.graph.nodes, (y.stateOf x).ranks groupId = (y'.stateOf x).ranks groupId)
    (hjoin : IsJoin y'.stateOf y'.headsGlobal states) :
    states.ranks groupId = (y'.stateOf o.id).ranks groupId ⊔
      (y.headsGlobal \ o.dependencies.toFinset).sup fun d => (y.stateOf d).ranks groupId := by
  have hhds : y'.headsGlobal = insert o.id (y.headsGlobal \ o.dependencies.toFinset) := by
    ext a
    simp only [headsGlobal, hext.graph.externals, mem_insert, mem_sdiff, List.mem_toFinset]
  rw [GroupCrdtInnerState.ranks_currentState h' hy' hjoin, hhds, sup_insert]
  congr 1
  refine sup_congr rfl fun d hd => (hold d ?_).symm
  exact (mem_externals.mp (mem_sdiff.mp hd).1).1

theorem ranks_le_currentState (h : y.Resolved) (honce : y.CreatedOnceIn groupId)
    (hy : y.UnconditionalIn groupId) (hjoin : IsJoin y.stateOf y.headsGlobal states)
    (hx : x ∈ y.graph.nodes) :
    (y.stateOf x).ranks groupId ≤ states.ranks groupId := by
  obtain ⟨d, hd, hrch⟩ := h.history.acyclic.exists_external hx
  rw [ranks_currentState h hy hjoin]
  exact (ranks_le_of_reaches h honce hy hrch).trans
    (le_sup (f := fun d => (y.stateOf d).ranks groupId) hd)

/-- The current state of a group can be read off any part of the history with all its operations. -/
theorem lookup_currentState_of_subset {inner : GroupCrdtInnerState ID OP C} (h : y.Resolved)
    (hinn : inner.Resolved) (honce : y.CreatedOnceIn groupId) (hy : y.UnconditionalIn groupId)
    (hhas : ∀ {x o}, inner.Has x o → y.Has x o)
    (hgrp : ∀ {x o}, y.Has x o → o.groupId = groupId → inner.Has x o)
    {states states' : GroupStates ID C} (hjoin : IsJoin y.stateOf y.headsGlobal states)
    (hjoin' : IsJoin inner.stateOf inner.headsGlobal states') :
    states.lookup groupId = states'.lookup groupId := by
  have hinnerU : inner.UnconditionalIn groupId := fun hx => hy (hhas hx)
  have hinnerOnce : inner.CreatedOnceIn groupId := fun hc hc' => honce (hhas hc) (hhas hc')
  have hagree := agreeOn_of_subset hinn.history h.history hhas hgrp
  have hsame : ∀ {x}, x ∈ inner.graph.nodes →
      (inner.stateOf x).ranks groupId = (y.stateOf x).ranks groupId := by
    intro x hx
    rw [ranks, ranks, hagree.lookup_stateOf_eq hinn h hy hhas hx]
  -- Outside of the part nothing happens to the group.
  have hbelow : ∀ x ∈ y.graph.nodes, (y.stateOf x).ranks groupId ≤ states'.ranks groupId := by
    intro x
    induction x using h.history.acyclic.wellFounded.induction with
    | _ x ih =>
    intro hx
    obtain ⟨o, base, hox, hfrom⟩ := h.resolved x hx
    by_cases hmem : x ∈ inner.graph.nodes
    · rw [← hsame hmem]
      exact ranks_le_currentState hinn hinnerOnce hinnerU hjoin' hmem
    · have hg : groupId ≠ o.groupId := fun heq => hmem (hgrp hox heq.symm).1
      rw [stateOf_eq hfrom.state, ranks, HashMap.lookup_insert_ite, if_neg hg,
        ← ranks, hfrom.ranks_base h hy hox]
      refine Finset.sup_le fun d hd => ?_
      have hadj := (h.history.adj_iff_dep hox).mpr hd
      exact ih d hadj.before hadj.left_mem
  apply lookup_eq_of_ranks (h.grantsOnly_currentState hy.grantsOnly hjoin)
    (hinn.grantsOnly_currentState hinnerU.grantsOnly hjoin')
  apply le_antisymm
  · rw [ranks_currentState h hy hjoin]
    exact Finset.sup_le fun d hd => hbelow d (mem_externals.mp hd).1
  · rw [ranks_currentState hinn hinnerU hjoin']
    refine Finset.sup_le fun d hd => ?_
    have hd := (mem_externals.mp hd).1
    obtain ⟨o, ho⟩ := hinn.history.known hd
    rw [hsame hd]
    exact ranks_le_currentState h honce hy hjoin (hhas ho).1

variable {member : GroupMember ID} {m : MemberState C}

theorem ResolvedFrom.counter_le (h : y.Resolved) (honce : y.CreatedOnceIn groupId) (hx : y.Has x o)
    (hfrom : y.ResolvedFrom x o base) (hm : base.memberState groupId member = some m) :
    ∃ m', (y.stateOf x).memberState groupId member = some m' ∧
      m.memberCounter ≤ m'.memberCounter := by
  obtain ⟨m', hm', hle⟩ := memberState_of_ranks_le (hfrom.ranks_le h honce hx) hm
  exact ⟨m', hm', MemberState.memberCounter_le_of_rank_le hle⟩

theorem counter_le_of_reaches (h : y.Resolved) (honce : y.CreatedOnceIn groupId) {a : OP}
    (hrch : y.graph.Reaches a x) (hm : (y.stateOf a).memberState groupId member = some m) :
    ∃ m', (y.stateOf x).memberState groupId member = some m' ∧
      m.memberCounter ≤ m'.memberCounter := by
  induction hrch with
  | refl => exact ⟨m, hm, le_rfl⟩
  | @tail b c _ hadj ih =>
    obtain ⟨m1, hm1, hle1⟩ := ih
    obtain ⟨o, base, hc, hfrom⟩ := h.resolved c hadj.right_mem
    obtain ⟨E, hmrg⟩ := hfrom.merged
    obtain ⟨m2, hm2, hle2⟩ := (isJoin_of_mergeStates hmrg).counter
      ((h.history.adj_iff_dep hc).mp hadj) hm1
    obtain ⟨m3, hm3, hle3⟩ := hfrom.counter_le h honce hc hm2
    exact ⟨m3, hm3, hle1.trans (hle2.trans hle3)⟩

theorem counter_le_currentState (h : y.Resolved) (honce : y.CreatedOnceIn groupId)
    (hjoin : IsJoin y.stateOf y.headsGlobal states) (hx : x ∈ y.graph.nodes)
    (hm : (y.stateOf x).memberState groupId member = some m) :
    ∃ m', states.memberState groupId member = some m' ∧ m.memberCounter ≤ m'.memberCounter := by
  obtain ⟨d, hd, hrch⟩ := h.history.acyclic.exists_external hx
  obtain ⟨m1, hm1, hle1⟩ := counter_le_of_reaches h honce hrch hm
  obtain ⟨m2, hm2, hle2⟩ := hjoin.counter hd hm1
  exact ⟨m2, hm2, hle1.trans hle2⟩

/-- An operation that makes a member active with a new counter creates the group or adds the member,
and is not filtered. -/
theorem ResolvedFrom.added (hfrom : y.ResolvedFrom x o base)
    (hm : (y.stateOf x).memberState groupId member = some m) (hactv : m.isMember = true)
    (hraised : ∀ m0, base.memberState groupId member = some m0 →
      m0.memberCounter < m.memberCounter) :
    o.groupId = groupId ∧
      (o.action.isCreate = true ∨ (∃ access, o.action = .add member access) ∧ ¬y.Filtered x) := by
  classical
  have hstays : base.memberState groupId member ≠ some m :=
    fun hm0 => absurd (hraised m hm0) (lt_irrefl _)
  obtain ⟨group, hgrp, hmbr⟩ := memberState_eq_some.mp hm
  rw [stateOf_eq hfrom.state, HashMap.lookup_insert_ite] at hgrp
  split_ifs at hgrp with hg
  swap
  · exact absurd (memberState_eq_some.mpr ⟨group, hgrp, hmbr⟩) hstays
  subst hg
  refine ⟨rfl, ?_⟩
  cases hcrt : o.action.isCreate with
  | true => exact Or.inl rfl
  | false =>
  right
  obtain ⟨s, hs⟩ := Option.isSome_iff_exists.mp (hfrom.present.resolve_left (by simp [hcrt]))
  have hbase : ∀ {k : GroupMember ID} {m0 : MemberState C}, s.members.lookup k = some m0 →
      base.memberState o.groupId k = some m0 :=
    fun hk => memberState_eq_some.mpr ⟨s, hs, hk⟩
  cases hgrp
  rw [hs, resolvedMembers] at hmbr
  rcases resolveMembers_cases hcrt rfl with heq | ⟨hfilt, -, changed, m', hchg, hlook⟩ |
    ⟨-, removed, -, heq⟩
  · rw [heq] at hmbr
    exact absurd (hbase hmbr) hstays
  · rw [hlook] at hmbr
    split_ifs at hmbr with hk
    · cases hmbr
      subst hk
      exact ⟨hchg.eq_add_of_raised hactv fun m0 hm0 => hraised m0 (hbase hm0),
        of_decide_eq_false hfilt⟩
    · exact absurd (hbase hmbr) hstays
  · -- A mutual remove counts up only to make the member inactive.
    rw [heq] at hmbr
    rcases removeUnsafe_cases s (.individual removed) member with hsame | ⟨m0, hm0, hodd, hrmd⟩
    · exact absurd (hbase (hsame ▸ hmbr)) hstays
    · rw [hrmd] at hmbr
      cases hmbr
      simp only [MemberState.isMember, bne_iff_ne, ne_eq] at hodd hactv
      omega

/-- The counter of an active member goes back to the operation that raised it. -/
theorem exists_added (h : y.Resolved) (honce : y.CreatedOnceIn groupId) (hx : x ∈ y.graph.nodes)
    (hm : (y.stateOf x).memberState groupId member = some m) (hactv : m.isMember = true) :
    ∃ z oz mz, y.Has z oz ∧ oz.groupId = groupId ∧
      (y.stateOf z).memberState groupId member = some mz ∧ mz.isMember = true ∧
      mz.memberCounter = m.memberCounter ∧
      (oz.action.isCreate = true ∨
        (∃ access, oz.action = .add member access) ∧ ¬y.Filtered z) := by
  induction x using h.history.acyclic.wellFounded.induction generalizing m with
  | _ x ih =>
  obtain ⟨o, base, hhas, hfrom⟩ := h.resolved x hx
  by_cases hraised : ∀ m0, base.memberState groupId member = some m0 →
      m0.memberCounter < m.memberCounter
  · obtain ⟨hgrp, hcases⟩ := hfrom.added hm hactv hraised
    exact ⟨x, o, m, hhas, hgrp, hm, hactv, rfl, hcases⟩
  · push Not at hraised
    obtain ⟨m0, hm0, hle⟩ := hraised
    obtain ⟨m', hm', hle'⟩ := hfrom.counter_le h honce hhas hm0
    rw [hm] at hm'
    cases hm'
    have hctr : m0.memberCounter = m.memberCounter := le_antisymm hle' hle
    obtain ⟨E, hmrg⟩ := hfrom.merged
    obtain ⟨d, hd, hmd⟩ := (isJoin_of_mergeStates hmrg).origin hm0
    have hadj := (h.history.adj_iff_dep hhas).mpr hd
    have hactive0 : m0.isMember = true := by
      rw [MemberState.isMember, hctr]
      exact hactv
    obtain ⟨z, oz, mz, hz, hgrp, hmz, hactivez, hcounterz, hcases⟩ :=
      ih d hadj.before hadj.left_mem hmd hactive0
    exact ⟨z, oz, mz, hz, hgrp, hmz, hactivez, hcounterz.trans hctr, hcases⟩

end P2Panda.Auth.Group.GroupCrdtInnerState

namespace P2Panda.Auth.Group.GroupCrdt

theorem Run.createdOnce {ID OP C : Type} [DecidableEq ID] [DecidableEq OP] [Conditions C]
    {ops : List (Operation ID OP C)} {y : GroupCrdtInnerState ID OP C} (h : Run ops y)
    (hops : ∀ c ∈ ops, ∀ c' ∈ ops, c.action.isCreate = true → c'.action.isCreate = true →
      c.groupId = c'.groupId → c = c') : y.CreatedOnce := by
  intro c c' oc oc' hc hc' hcrt hcreate' hgrp
  obtain ⟨hmem, rfl⟩ := h.has_iff.mp hc
  obtain ⟨hmem', rfl⟩ := h.has_iff.mp hc'
  rw [hops oc hmem oc' hmem' hcrt hcreate' hgrp]

end P2Panda.Auth.Group.GroupCrdt
