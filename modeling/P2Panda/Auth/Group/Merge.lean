import P2Panda.Auth.Group.InnerState
import P2Panda.Library.Selection
import Mathlib.Data.Prod.Lex

/-!
# Merging is a join

A member's state is ranked by its counter, its access counter and how low its access is. Without
conditions a merge keeps the higher rank, so that merging computes a least upper bound.
-/

namespace P2Panda.Auth.Group

open P2Panda.Library Option List GroupMembersState GroupCrdtInnerState Finset

abbrev MemberRank := Nat ×ₗ Nat ×ₗ Nat

namespace MemberState

variable {C : Type} {a b : MemberState C}

def rank (m : MemberState C) : MemberRank :=
  toLex (m.memberCounter, toLex (m.accessCounter, 3 - m.access.level.rank))

def Unconditional (m : MemberState C) : Prop := m.access.Unconditional

theorem rank_lt_iff :
    a.rank < b.rank ↔ a.memberCounter < b.memberCounter ∨ a.memberCounter = b.memberCounter ∧
      (a.accessCounter < b.accessCounter ∨ a.accessCounter = b.accessCounter ∧
        b.access.level.rank < a.access.level.rank) := by
  have ha := a.access.level.rank_le_three
  simp only [rank, Prod.Lex.toLex_lt_toLex]
  omega

theorem memberCounter_le_of_rank_le (h : a.rank ≤ b.rank) : a.memberCounter ≤ b.memberCounter := by
  rcases h.lt_or_eq with hlt | heq
  · rw [rank_lt_iff] at hlt
    omega
  · simp only [rank, EmbeddingLike.apply_eq_iff_eq, Prod.mk.injEq] at heq
    exact heq.1.le

theorem rank_injective (ha : a.Unconditional) (hb : b.Unconditional) (h : a.rank = b.rank) :
    a = b := by
  have hle := a.access.level.rank_le_three
  have hle' := b.access.level.rank_le_three
  simp only [rank, EmbeddingLike.apply_eq_iff_eq, Prod.mk.injEq] at h
  obtain ⟨hctr, haccs, hlvl⟩ := h
  have heq : a.access = b.access := Access.eq_of_rank ha hb (by omega)
  obtain ⟨ac, aa, an⟩ := a
  simp only at hctr haccs heq
  rw [hctr, haccs, heq]

end MemberState

section Member

variable {C : Type} [Conditions C] {m1 m : MemberState C}

theorem mergeMember_eq_ite (m1 m : MemberState C) : mergeMember m1 m =
    if m.memberCounter < m1.memberCounter ∨ m.memberCounter = m1.memberCounter ∧
      (m.accessCounter < m1.accessCounter ∨ m.accessCounter = m1.accessCounter ∧
        m1.access.lt m.access = true)
    then m1 else m := by
  obtain ⟨c1, a1, n1⟩ := m1
  obtain ⟨c, a, n⟩ := m
  rcases lt_trichotomy c c1 with hc | rfl | hc
  · simp [mergeMember, hc]
  · rcases lt_trichotomy n n1 with hn | rfl | hn
    · simp [mergeMember, hn]
    · by_cases hlt : a1.lt a = true
      · simp [mergeMember, hlt]
      · simp [mergeMember, hlt]
    · simp [mergeMember, Nat.not_lt_of_gt hn, Nat.ne_of_gt hn, Nat.ne_of_lt hn]
  · simp [mergeMember, Nat.not_lt_of_gt hc, Nat.ne_of_gt hc, Nat.ne_of_lt hc]

theorem mergeMember_eq_or (m1 m : MemberState C) :
    mergeMember m1 m = m1 ∨ mergeMember m1 m = m := by
  rw [mergeMember_eq_ite]
  split_ifs
  · exact Or.inl rfl
  · exact Or.inr rfl

theorem memberCounter_mergeMember (m1 m : MemberState C) :
    (mergeMember m1 m).memberCounter = max m1.memberCounter m.memberCounter := by
  rw [mergeMember_eq_ite]
  split_ifs <;> omega

theorem rank_mergeMember (h : m1.Unconditional) : (mergeMember m1 m).rank = max m1.rank m.rank := by
  have hlt : mergeMember m1 m = if m.rank < m1.rank then m1 else m := by
    simp only [mergeMember_eq_ite, MemberState.rank_lt_iff, Access.lt_iff_rank h]
  rw [hlt]
  split_ifs with hrank
  · exact (max_eq_left hrank.le).symm
  · exact (max_eq_right (not_lt.mp hrank)).symm

end Member

namespace GroupMembersState

variable {K C : Type} [DecidableEq K]

def GrantsOnly (P : K → Access C → Prop) (state : GroupMembersState K C) : Prop :=
  ∀ k m, state.members.lookup k = some m → P k m.access

abbrev Unconditional (state : GroupMembersState K C) : Prop :=
  state.GrantsOnly fun _ access => access.Unconditional

variable {P : K → Access C → Prop} {a b : GroupMembersState K C}

theorem grantsOnly_default : (default : GroupMembersState K C).GrantsOnly P := by
  intro k m hm
  simp [default] at hm

theorem grantsOnly_create {initialMembers : List (K × Access C)}
    (h : ∀ p ∈ initialMembers, P p.1 p.2) : (create initialMembers).GrantsOnly P := by
  intro k m hm
  rw [lookup_create, map_eq_some_iff] at hm
  obtain ⟨access, haccs, rfl⟩ := hm
  obtain ⟨l1, l2, hspl, -⟩ := lookup_eq_some_iff.mp haccs
  exact h (k, access) (mem_reverse.mp (by simp [hspl]))

def ranks (state : GroupMembersState K C) : K → WithBot MemberRank :=
  fun k => (state.members.lookup k).elim ⊥ fun m => ↑m.rank

theorem exists_of_ranks_le (h : a.ranks ≤ b.ranks) {k : K} {m : MemberState C}
    (hm : a.members.lookup k = some m) :
    ∃ m', b.members.lookup k = some m' ∧ m.rank ≤ m'.rank :=
  under_of_elim_le (h k) m hm

theorem ranks_injective (ha : a.Unconditional) (hb : b.Unconditional) (h : a.ranks = b.ranks) :
    a = b := by
  ext1
  apply Finmap.ext_lookup
  intro k
  apply eq_of_elim_eq (congrFun h k)
  intro ma mb hma hmb
  exact MemberState.rank_injective (ha k ma hma) (hb k mb hmb)

end GroupMembersState

section Group

variable {K C : Type} [DecidableEq K] [Conditions C] {o : HashOrder K}
variable {state1 state2 : GroupMembersState K C}

theorem lookup_merge_origin {k : K} {m : MemberState C}
    (h : (merge o state1 state2).members.lookup k = some m) :
    state1.members.lookup k = some m ∨ state2.members.lookup k = some m := by
  rw [lookup_merge] at h
  exact (merge_eq_or_eq mergeMember_eq_or _ _).imp (fun heq => heq.symm.trans h)
    fun heq => heq.symm.trans h

theorem GroupMembersState.GrantsOnly.merge {P : K → Access C → Prop} (h1 : state1.GrantsOnly P)
    (h2 : state2.GrantsOnly P) : (merge o state1 state2).GrantsOnly P := by
  intro k m hm
  exact (lookup_merge_origin hm).elim (h1 k m) (h2 k m)

theorem ranks_merge (h1 : state1.Unconditional) :
    (merge o state1 state2).ranks = state1.ranks ⊔ state2.ranks := by
  funext k
  simp only [ranks, Pi.sup_apply, lookup_merge]
  exact elim_merge fun m1 m hm1 => rank_mergeMember (h1 k m1 hm1)

end Group

namespace GroupStates

variable {ID C : Type} [DecidableEq ID] {m : MemberState C} {groupId : ID} {member : GroupMember ID}
  {a b : GroupStates ID C}

def memberState (states : GroupStates ID C) (groupId : ID) (member : GroupMember ID) :
    Option (MemberState C) :=
  (states.lookup groupId).bind fun group => group.members.lookup member

def GrantsOnly (P : ID → GroupMember ID → Access C → Prop) (states : GroupStates ID C) : Prop :=
  ∀ groupId group, states.lookup groupId = some group → group.GrantsOnly (P groupId)

abbrev Unconditional (states : GroupStates ID C) : Prop :=
  states.GrantsOnly fun _ _ access => access.Unconditional

abbrev UnconditionalIn (groupId : ID) (states : GroupStates ID C) : Prop :=
  states.GrantsOnly fun id _ access => id = groupId → access.Unconditional

theorem UnconditionalIn.group {states : GroupStates ID C} (h : states.UnconditionalIn groupId)
    {group : GroupMembersState (GroupMember ID) C} (hgrp : states.lookup groupId = some group) :
    group.Unconditional :=
  fun k m hm => h groupId group hgrp k m hm rfl

/-- The ranks of the members of a group, `⊥` for an absent group. -/
def ranks (states : GroupStates ID C) (groupId : ID) :
    WithBot (GroupMember ID → WithBot MemberRank) :=
  (states.lookup groupId).elim ⊥ fun group => ↑group.ranks

theorem memberState_eq_some {states : GroupStates ID C} :
    states.memberState groupId member = some m ↔
      ∃ group, states.lookup groupId = some group ∧ group.members.lookup member = some m :=
  bind_eq_some_iff

def Active (states : GroupStates ID C) (groupId : ID) (member : GroupMember ID) : Prop :=
  ∃ m, states.memberState groupId member = some m ∧ m.isMember = true

instance (states : GroupStates ID C) (groupId : ID) (member : GroupMember ID) :
    Decidable (states.Active groupId member) :=
  decidable_of_iff ((states.memberState groupId member).any MemberState.isMember = true) (by
    simp [Active, Option.any_eq_true])

theorem memberState_of_ranks_le (h : a.ranks groupId ≤ b.ranks groupId)
    (hm : a.memberState groupId member = some m) :
    ∃ m', b.memberState groupId member = some m' ∧ m.rank ≤ m'.rank := by
  obtain ⟨group, hgrp, hmbr⟩ := memberState_eq_some.mp hm
  obtain ⟨group', hgroup', hranks⟩ := under_of_elim_le h group hgrp
  obtain ⟨m', hm', hle⟩ := exists_of_ranks_le hranks hmbr
  exact ⟨m', memberState_eq_some.mpr ⟨group', hgroup', hm'⟩, hle⟩

theorem lookup_eq_of_ranks (ha : a.UnconditionalIn groupId) (hb : b.UnconditionalIn groupId)
    (h : a.ranks groupId = b.ranks groupId) :
    a.lookup groupId = b.lookup groupId := by
  apply eq_of_elim_eq h
  intro ga gb hga hgb
  exact ranks_injective (ha.group hga) (hb.group hgb)

end GroupStates

namespace GroupCrdtInnerState

variable {ID OP C : Type} [DecidableEq ID] [DecidableEq OP] [Conditions C]
variable {E : Runtime ID OP} {y : GroupCrdtInnerState ID OP C} {ids : Finset OP}
variable {base : GroupStates ID C}

/-- What `mergeStates` makes of one operation's states. -/
def joinStates (E : Runtime ID OP) (current groupStates : GroupStates ID C) : GroupStates ID C :=
  (groupStates.entries E.ids).foldl (mergeGroup E) current

theorem lookup_joinStates (current groupStates : GroupStates ID C) (groupId : ID) :
    (joinStates E current groupStates).lookup groupId =
      Option.merge (merge E.members) (groupStates.lookup groupId) (current.lookup groupId) := by
  refine (HashMap.lookup_foldl_entries
    (g := fun _ group current => some (current.elim group (merge E.members group)))
    (fun acc k w k' => HashMap.lookup_andModifyOrInsert acc k k' _ w) E.ids groupStates current
    groupId).trans ?_
  cases groupStates.lookup groupId <;> cases current.lookup groupId <;> rfl

theorem memberState_joinStates (current groupStates : GroupStates ID C) (groupId : ID)
    (member : GroupMember ID) : (joinStates E current groupStates).memberState groupId member =
      Option.merge mergeMember (groupStates.memberState groupId member)
        (current.memberState groupId member) := by
  simp only [GroupStates.memberState, lookup_joinStates]
  cases groupStates.lookup groupId with
  | none => simp
  | some group =>
    cases current.lookup groupId with
    | none => simp
    | some current' => exact lookup_merge ..

section

variable {current groupStates : GroupStates ID C} {groupId : ID} {member : GroupMember ID}
variable {m : MemberState C}

theorem joinStates_present : ((joinStates E current groupStates).lookup groupId).isSome ↔
      (current.lookup groupId).isSome ∨ (groupStates.lookup groupId).isSome := by
  rw [lookup_joinStates, isSome_merge, Bool.or_eq_true, or_comm]

theorem joinStates_origin
    (h : (joinStates E current groupStates).memberState groupId member = some m) :
    current.memberState groupId member = some m ∨
      groupStates.memberState groupId member = some m := by
  rw [memberState_joinStates] at h
  exact ((merge_eq_or_eq mergeMember_eq_or _ _).imp (fun heq => heq.symm.trans h)
    fun heq => heq.symm.trans h).symm

theorem joinStates_counter
    (h : current.memberState groupId member = some m ∨
      groupStates.memberState groupId member = some m) :
    ∃ m', (joinStates E current groupStates).memberState groupId member = some m' ∧
      m.memberCounter ≤ m'.memberCounter := by
  rw [memberState_joinStates]
  have hunder := @under_merge (MemberState C) mergeMember
    (fun m m' => m.memberCounter ≤ m'.memberCounter) (groupStates.memberState groupId member)
    (current.memberState groupId member) (fun _ => le_rfl) fun m1 m2 => by
      simp [memberCounter_mergeMember]
  exact h.elim (hunder.2 m) (hunder.1 m)

theorem ranks_joinStates (hg : groupStates.UnconditionalIn groupId) :
    (joinStates E current groupStates).ranks groupId =
      current.ranks groupId ⊔ groupStates.ranks groupId := by
  rw [sup_comm]
  simp only [GroupStates.ranks, lookup_joinStates]
  exact elim_merge fun group current hgrp => ranks_merge (hg.group hgrp)

end

@[simp] theorem joinStates_empty (groupStates : GroupStates ID C) :
    joinStates E ∅ groupStates = groupStates := by
  apply Finmap.ext_lookup
  simp [lookup_joinStates]

end GroupCrdtInnerState

/-- What can be said of a merge of the states `f` at the operations `ids`. -/
structure IsJoin {ID OP C : Type} [DecidableEq ID] [DecidableEq OP] (f : OP → GroupStates ID C)
    (ids : Finset OP) (base : GroupStates ID C) : Prop where
  present : ∀ groupId, (base.lookup groupId).isSome ↔
    ∃ d ∈ ids, ((f d).lookup groupId).isSome
  origin : ∀ {groupId member m}, base.memberState groupId member = some m →
    ∃ d ∈ ids, (f d).memberState groupId member = some m
  counter : ∀ {d groupId member m}, d ∈ ids → (f d).memberState groupId member = some m →
    ∃ m', base.memberState groupId member = some m' ∧ m.memberCounter ≤ m'.memberCounter
  ranks : ∀ {groupId}, (∀ d ∈ ids, (f d).UnconditionalIn groupId) →
    base.ranks groupId = ids.sup fun d => (f d).ranks groupId

namespace IsJoin

variable {ID OP C : Type} [DecidableEq ID] [DecidableEq OP]
variable {f f' : OP → GroupStates ID C} {ids ids' : Finset OP} {base base' : GroupStates ID C}

theorem grantsOnly {P : ID → GroupMember ID → Access C → Prop} (h : IsJoin f ids base)
    (hf : ∀ d ∈ ids, (f d).GrantsOnly P) : base.GrantsOnly P := by
  intro groupId group hgrp k m hm
  obtain ⟨d, hd, hmbr⟩ := h.origin (GroupStates.memberState_eq_some.mpr ⟨group, hgrp, hm⟩)
  obtain ⟨group', hgroup', hm'⟩ := GroupStates.memberState_eq_some.mp hmbr
  exact hf d hd groupId group' hgroup' k m hm'

theorem lookup_eq (h : IsJoin f ids base) (h' : IsJoin f' ids' base') {groupId : ID}
    (hf : ∀ d ∈ ids, (f d).UnconditionalIn groupId)
    (hf' : ∀ d ∈ ids', (f' d).UnconditionalIn groupId)
    (hsup : (ids.sup fun d => (f d).ranks groupId) = ids'.sup fun d => (f' d).ranks groupId) :
    base.lookup groupId = base'.lookup groupId := by
  apply GroupStates.lookup_eq_of_ranks (h.grantsOnly hf) (h'.grantsOnly hf')
  rw [h.ranks hf, h'.ranks hf', hsup]

theorem active (h : IsJoin f ids base) (h' : IsJoin f ids base') {groupId : ID}
    {k : GroupMember ID} (hactv : base.Active groupId k) : base'.Active groupId k := by
  obtain ⟨m, hm, hmbr⟩ := hactv
  obtain ⟨d, hd, horigin⟩ := h.origin hm
  obtain ⟨m', hm', hle⟩ := h'.counter hd horigin
  obtain ⟨d', hd', horigin'⟩ := h'.origin hm'
  obtain ⟨m'', hm'', hge⟩ := h.counter hd' horigin'
  cases hm.symm.trans hm''
  refine ⟨m', hm', ?_⟩
  rw [MemberState.isMember, le_antisymm hge hle]
  exact hmbr

theorem empty : IsJoin f ∅ (∅ : GroupStates ID C) where
  present := by simp
  origin := by simp [GroupStates.memberState]
  counter := by simp
  ranks := by simp [GroupStates.ranks]

variable [Conditions C] {E : Runtime ID OP}

theorem insert {d : OP} (h : IsJoin f ids base) :
    IsJoin f (insert d ids) (GroupCrdtInnerState.joinStates E base (f d)) where
  present groupId := by
    rw [joinStates_present, h.present]
    simp only [mem_insert, exists_eq_or_imp]
    exact or_comm
  origin hm := by
    rcases joinStates_origin hm with hm | hm
    · obtain ⟨d', hd', hm'⟩ := h.origin hm
      exact ⟨d', mem_insert_of_mem hd', hm'⟩
    · exact ⟨d, mem_insert_self _ _, hm⟩
  counter := by
    intro d' groupId member m hd' hm
    rcases mem_insert.mp hd' with rfl | hd'
    · exact joinStates_counter (Or.inr hm)
    · obtain ⟨m1, hm1, hle1⟩ := h.counter hd' hm
      obtain ⟨m2, hm2, hle2⟩ := joinStates_counter (E := E)
        (Or.inl hm1)
      exact ⟨m2, hm2, hle1.trans hle2⟩
  ranks hf := by
    rw [ranks_joinStates (hf d (mem_insert_self _ _)), sup_insert,
      h.ranks fun d' hd' => hf d' (mem_insert_of_mem hd')]
    exact sup_comm _ _

theorem foldl_joinStates (l : List OP) : IsJoin f l.toFinset
    (l.foldl (fun current d => GroupCrdtInnerState.joinStates E current (f d)) ∅) := by
  induction l using List.reverseRecOn with
  | nil => exact empty
  | append_singleton l d ih =>
    rw [foldl_append, toFinset_append, toFinset_cons, toFinset_nil,
      insert_empty_eq, union_singleton]
    exact ih.insert

end IsJoin

namespace GroupCrdtInnerState

variable {ID OP C ε : Type} [DecidableEq ID] [DecidableEq OP] [Conditions C]
variable {E : Runtime ID OP} {y y' : GroupCrdtInnerState ID OP C} {ids : Finset OP}
variable {base : GroupStates ID C}

def stateOf (y : GroupCrdtInnerState ID OP C) (id : OP) : GroupStates ID C :=
  (y.states.lookup id).getD ∅

omit [Conditions C] [DecidableEq ID] in
theorem stateOf_eq {id : OP} {states : GroupStates ID C} (h : y.states.lookup id = some states) :
    y.stateOf id = states := by
  simp [stateOf, h]

theorem mergeStates_eq (h : ∀ d ∈ ids, (y.states.lookup d).isSome) :
    y.mergeStates E ids =
      .ok ((E.ops.iter ids).foldl (fun current d => joinStates E current (y.stateOf d)) ∅) := by
  have hstep : ∀ d ∈ E.ops.iter ids, ∀ current,
      mergeState E y ids current d = pure (joinStates E current (y.stateOf d)) := by
    intro d hd current
    obtain ⟨states, hsts⟩ := isSome_iff_exists.mp (h d (E.ops.mem_iter.mp hd))
    rw [stateOf_eq hsts]
    simp only [mergeState, hsts]
    rfl
  rw [mergeStates, Outcome.foldlM_congr hstep, foldlM_pure]
  rfl

theorem mergeStates_present (h : y.mergeStates E ids = .ok base) {d : OP} (hd : d ∈ ids) :
    (y.states.lookup d).isSome := by
  have hrun : ∀ (l : List OP) current, l.foldlM (mergeState E y ids) current = .ok base →
      ∀ d ∈ l, (y.states.lookup d).isSome := by
    intro l
    induction l with
    | nil => simp
    | cons d l ih =>
      intro current hl
      rw [foldlM_cons, Outcome.bind_eq_ok] at hl
      obtain ⟨current', hstep, hrest⟩ := hl
      refine forall_mem_cons.mpr ⟨?_, ih current' hrest⟩
      unfold mergeState at hstep
      cases hlook : y.states.lookup d with
      | none => simp [hlook] at hstep
      | some states => rfl
  exact hrun _ ∅ h d (E.ops.mem_iter.mpr hd)

theorem mergeStates_ok (E : Runtime ID OP) (h : ∀ d ∈ ids, (y.states.lookup d).isSome) :
    ∃ base, y.mergeStates E ids = .ok base ∧ IsJoin y.stateOf ids base := by
  refine ⟨_, mergeStates_eq h, ?_⟩
  have hjoin := IsJoin.foldl_joinStates (E := E) (f := y.stateOf) (E.ops.iter ids)
  rwa [E.ops.toFinset_iter] at hjoin

theorem isJoin_of_mergeStates (h : y.mergeStates E ids = .ok base) : IsJoin y.stateOf ids base := by
  obtain ⟨base', hbase', hjoin⟩ := mergeStates_ok E fun d hd => mergeStates_present h hd
  rw [h] at hbase'
  cases hbase'
  exact hjoin

theorem mergeStates_congr (h : ∀ d ∈ ids, y.states.lookup d = y'.states.lookup d) :
    y.mergeStates E ids = y'.mergeStates E ids := by
  apply Outcome.foldlM_congr
  intro d hd current
  simp only [mergeState, h d (E.ops.mem_iter.mp hd)]

theorem mergeStates_singleton {d : OP} (h : (y.states.lookup d).isSome) :
    y.mergeStates E {d} = .ok (y.stateOf d) := by
  rw [mergeStates_eq (by simpa using h)]
  simp

end GroupCrdtInnerState

end P2Panda.Auth.Group
