import P2Panda.Auth.Group.Merge

/-!
# When merging is a join

A merge selects one of two states for every member. It commutes and associates only where the
comparison of access values decides between states with the same counters.
-/

namespace P2Panda.Auth

open Option

/-- The laws of an equality and of a partial comparison. -/
structure Conditions.Lawful (C : Type) [Conditions C] : Prop where
  beq_symm : ∀ a b : C, (a == b) = true → (b == a) = true
  beq_trans : ∀ a b c : C, (a == b) = true → (b == c) = true → (a == c) = true
  partialCmp_eq_iff : ∀ a b : C, partialCmp a b = some .eq ↔ (a == b) = true
  partialCmp_swap : ∀ a b : C, partialCmp b a = (partialCmp a b).map Ordering.swap
  partialCmp_trans : ∀ a b c : C, partialCmp a b = some .lt → partialCmp b c = some .lt →
    partialCmp a c = some .lt

namespace Access

variable {C : Type} [Conditions C]

/-- Exactly one of the two is the lower one, unless they are the same. -/
def Settled (a b : Access C) : Prop := a = b ∨ (a.lt b = true ↔ ¬ b.lt a = true)

/-- The comparison is transitive, and so is its negation, unless the outer two are the same. -/
def Chained (a b c : Access C) : Prop :=
  a = c ∨ (a.lt b = true → b.lt c = true → a.lt c = true) ∧
    (a.lt c = true → a.lt b = true ∨ b.lt c = true)

theorem settled_of_unconditional {a b : Access C} (ha : a.Unconditional) (hb : b.Unconditional) :
    a.Settled b := by
  unfold Settled
  rw [lt_iff_rank ha, lt_iff_rank hb]
  by_cases hrank : a.level.rank = b.level.rank
  · exact Or.inl (eq_of_rank ha hb hrank)
  · exact Or.inr (by omega)

theorem chained_of_unconditional {a b c : Access C} (ha : a.Unconditional)
    (hb : b.Unconditional) : a.Chained b c := by
  unfold Chained
  rw [lt_iff_rank ha, lt_iff_rank ha, lt_iff_rank hb]
  exact Or.inr (by omega)

/-- The comparison is a partial order on the set, with the equality test as its equality. -/
structure LawfulOn (S : Set (Access C)) : Prop where
  partialCmp_eq_iff : ∀ a ∈ S, ∀ b ∈ S, a.partialCmp b = some .eq ↔ (a == b) = true
  partialCmp_swap : ∀ a ∈ S, ∀ b ∈ S, b.partialCmp a = (a.partialCmp b).map Ordering.swap
  partialCmp_trans : ∀ a ∈ S, ∀ b ∈ S, ∀ c ∈ S, a.partialCmp b = some .lt →
    b.partialCmp c = some .lt → a.partialCmp c = some .lt

/-- Conditions break the order: an access with them is `Equal` to the one without at its level,
which is `Greater`. -/
theorem lawfulOn_iff_unconditional {S : Set (Access C)}
    (hclosed : ∀ a ∈ S, ⟨none, a.level⟩ ∈ S) : LawfulOn S ↔ ∀ a ∈ S, a.Unconditional := by
  constructor
  · rintro hlaw ⟨conditions, level⟩ hmem
    cases conditions with
    | none => rfl
    | some c =>
      have hswap := hlaw.partialCmp_swap ⟨none, level⟩ (hclosed _ hmem) ⟨some c, level⟩ hmem
      simp [partialCmp, AccessLevel.cmp] at hswap
  · intro hall
    have hcmp : ∀ a ∈ S, ∀ b ∈ S, a.partialCmp b = some (compare a.level.rank b.level.rank) :=
      fun a ha b hb => partialCmp_of_unconditional (hall a ha) (hall b hb)
    constructor
    case partialCmp_eq_iff =>
      intro a ha b hb
      rw [hcmp a ha b hb, some_inj, Nat.compare_eq_eq]
      change _ ↔ (a.conditions == b.conditions && a.level == b.level) = true
      rw [hall a ha, hall b hb, Bool.and_eq_true, and_iff_right (by rfl), beq_iff_eq]
      exact ⟨AccessLevel.rank_injective, congrArg _⟩
    case partialCmp_swap =>
      intro a ha b hb
      rw [hcmp a ha b hb, hcmp b hb a ha, map_some, Nat.compare_swap]
    case partialCmp_trans =>
      intro a ha b hb c hc
      rw [hcmp a ha b hb, hcmp b hb c hc, hcmp a ha c hc]
      simp only [some_inj, Nat.compare_eq_lt]
      exact Nat.lt_trans

theorem lawfulOn_unconditional : LawfulOn { a : Access Unit | a.Unconditional } :=
  (lawfulOn_iff_unconditional fun _ _ => rfl).mpr fun _ h => h

theorem not_lawful_with_conditions :
    Conditions.Lawful Unit ∧
      ((⟨some (), .read⟩ : Access Unit) == ⟨some (), .read⟩) = true ∧
      (⟨some (), .read⟩ : Access Unit).partialCmp ⟨some (), .read⟩ = some .gt ∧
      (⟨some (), .read⟩ : Access Unit).partialCmp .read = some .eq ∧
      Access.read.partialCmp (⟨some (), .read⟩ : Access Unit) = some .gt :=
  ⟨⟨by decide, by decide, by decide, by decide, by decide⟩, rfl, rfl, rfl, rfl⟩

end Access

namespace Group

open P2Panda.Library

/-! ## One member -/

section Member

variable {C : Type} [Conditions C] {m m1 m2 m3 : MemberState C}

namespace MemberState

omit [Conditions C] in
/-- Neither counter decides between the two states. -/
def Ties (m1 m2 : MemberState C) : Prop :=
  m1.memberCounter = m2.memberCounter ∧ m1.accessCounter = m2.accessCounter

/-- The state that a merge takes over the other one. -/
def Preferred (m1 m : MemberState C) : Prop :=
  m.memberCounter < m1.memberCounter ∨ m.memberCounter = m1.memberCounter ∧
    (m.accessCounter < m1.accessCounter ∨ m.accessCounter = m1.accessCounter ∧
      m1.access.lt m.access = true)

instance (m1 m : MemberState C) : Decidable (Preferred m1 m) := by
  unfold Preferred
  infer_instance

theorem Ties.preferred_iff (h : m1.Ties m2) : Preferred m1 m2 ↔ m1.access.lt m2.access = true := by
  obtain ⟨hmbr, haccs⟩ := h
  simp [Preferred, hmbr, haccs]

omit [Conditions C] in
theorem Ties.eq_iff (h : m1.Ties m2) : m1 = m2 ↔ m1.access = m2.access := by
  obtain ⟨c1, a1, n1⟩ := m1
  obtain ⟨c2, a2, n2⟩ := m2
  obtain ⟨rfl, rfl⟩ : c1 = c2 ∧ n1 = n2 := h
  simp

end MemberState

theorem mergeMember_eq_select (m1 m : MemberState C) :
    mergeMember m1 m = select MemberState.Preferred m1 m :=
  mergeMember_eq_ite m1 m

theorem mergeMember_comm_iff : mergeMember m1 m2 = mergeMember m2 m1 ↔
    (m1.Ties m2 → m1.access.Settled m2.access) := by
  rw [mergeMember_eq_select, mergeMember_eq_select, select_comm_iff]
  by_cases hties : m1.Ties m2
  · have hties' : m2.Ties m1 := ⟨hties.1.symm, hties.2.symm⟩
    rw [hties.preferred_iff, hties'.preferred_iff, hties.eq_iff]
    simp [hties, Access.Settled]
  · have hdecided : MemberState.Preferred m1 m2 ↔ ¬ MemberState.Preferred m2 m1 := by
      unfold MemberState.Ties at hties
      unfold MemberState.Preferred
      omega
    simp [hties, hdecided]

theorem mergeMember_assoc_iff :
    mergeMember m1 (mergeMember m2 m3) = mergeMember (mergeMember m1 m2) m3 ↔
      (m1.Ties m2 → m2.Ties m3 → m1.access.Chained m2.access m3.access) := by
  simp only [mergeMember_eq_select]
  rw [select_assoc_iff]
  by_cases hties : m1.Ties m2 ∧ m2.Ties m3
  · obtain ⟨h12, h23⟩ := hties
    have h13 : m1.Ties m3 := ⟨h12.1.trans h23.1, h12.2.trans h23.2⟩
    rw [h12.preferred_iff, h23.preferred_iff, h13.preferred_iff, h13.eq_iff]
    simp [h12, h23, Access.Chained]
  · have hchn : (MemberState.Preferred m1 m2 → MemberState.Preferred m2 m3 →
        MemberState.Preferred m1 m3) ∧ (MemberState.Preferred m1 m3 →
        MemberState.Preferred m1 m2 ∨ MemberState.Preferred m2 m3) := by
      unfold MemberState.Ties at hties
      unfold MemberState.Preferred
      omega
    have hvacuous : m1.Ties m2 → ¬ m2.Ties m3 := fun h12 h23 => hties ⟨h12, h23⟩
    exact iff_of_true (Or.inr hchn) fun h12 h23 => absurd h23 (hvacuous h12)

theorem mergeMember_self (m : MemberState C) : mergeMember m m = m := by
  rw [mergeMember_eq_select]
  exact select_self ..

end Member

/-! ## One group -/

section Group

variable {K C : Type} [DecidableEq K] [Conditions C] (o o' : HashOrder K)
variable (a b c : GroupMembersState K C)

variable {a b} in
omit [Conditions C] in
theorem GroupMembersState.eq_iff_lookup : a = b ↔ ∀ k, a.members.lookup k = b.members.lookup k := by
  rw [GroupMembersState.ext_iff]
  exact ⟨fun h k => by rw [h], Finmap.ext_lookup⟩

/-- What makes the order irrelevant in which group states are merged. -/
structure Mergeable : Prop where
  settled : ∀ k m1 m2, a.members.lookup k = some m1 → b.members.lookup k = some m2 →
    m1.Ties m2 → m1.access.Settled m2.access
  chained : ∀ k m1 m2 m3, a.members.lookup k = some m1 → b.members.lookup k = some m2 →
    c.members.lookup k = some m3 → m1.Ties m2 → m2.Ties m3 →
    m1.access.Chained m2.access m3.access

variable {a b c} in
theorem mergeable_of_unconditional (ha : a.Unconditional) (hb : b.Unconditional) :
    Mergeable a b c where
  settled k m1 m2 h1 h2 _ := Access.settled_of_unconditional (ha k m1 h1) (hb k m2 h2)
  chained k m1 m2 _ h1 h2 _ _ _ := Access.chained_of_unconditional (ha k m1 h1) (hb k m2 h2)

theorem merge_comm_iff : merge o a b = merge o' b a ↔
    ∀ k m1 m2, a.members.lookup k = some m1 → b.members.lookup k = some m2 →
      m1.Ties m2 → m1.access.Settled m2.access := by
  rw [GroupMembersState.eq_iff_lookup]
  apply forall_congr'
  intro k
  rw [lookup_merge, lookup_merge]
  cases ha : a.members.lookup k with
  | none => cases b.members.lookup k <;> simp
  | some m1 =>
    cases hb : b.members.lookup k with
    | none => simp
    | some m2 => simp [mergeMember_comm_iff]

theorem merge_assoc_iff : merge o a (merge o b c) = merge o' (merge o' a b) c ↔
    ∀ k m1 m2 m3, a.members.lookup k = some m1 → b.members.lookup k = some m2 →
      c.members.lookup k = some m3 → m1.Ties m2 → m2.Ties m3 →
      m1.access.Chained m2.access m3.access := by
  rw [GroupMembersState.eq_iff_lookup]
  apply forall_congr'
  intro k
  simp only [lookup_merge]
  cases ha : a.members.lookup k with
  | none => cases b.members.lookup k <;> cases c.members.lookup k <;> simp
  | some m1 =>
    cases hb : b.members.lookup k with
    | none => cases c.members.lookup k <;> simp
    | some m2 =>
      cases hc : c.members.lookup k with
      | none => simp
      | some m3 => simp [mergeMember_assoc_iff]

theorem merge_self : merge o a a = a := by
  rw [GroupMembersState.eq_iff_lookup]
  intro k
  rw [lookup_merge]
  cases a.members.lookup k with
  | none => rfl
  | some m => exact congrArg some (mergeMember_self m)

end Group

/-! ## The states of a set of operations -/

section States

variable {ID OP C : Type} [DecidableEq ID] [DecidableEq OP] [Conditions C]
variable {E E' : Runtime ID OP} {y : GroupCrdtInnerState ID OP C} {ids : Finset OP}

open GroupCrdtInnerState

theorem memberState_foldl_joinStates (l : List OP) (f : OP → GroupStates ID C)
    (current : GroupStates ID C) (groupId : ID) (member : GroupMember ID) :
    (l.foldl (fun current d => joinStates E current (f d)) current).memberState groupId member =
      l.foldl (fun acc d => Option.merge mergeMember ((f d).memberState groupId member) acc)
        (current.memberState groupId member) := by
  induction l generalizing current with
  | nil => rfl
  | cons d l ih =>
    rw [List.foldl_cons, ih, memberState_joinStates]
    rfl

omit [Conditions C] in
theorem GroupStates.eq_of_memberState {states states' : GroupStates ID C}
    (hpres : ∀ groupId, (states.lookup groupId).isSome ↔ (states'.lookup groupId).isSome)
    (hmbr : ∀ groupId member, states.memberState groupId member =
      states'.memberState groupId member) : states = states' := by
  apply Finmap.ext_lookup
  intro groupId
  have hpres := hpres groupId
  have hmbr := hmbr groupId
  unfold GroupStates.memberState at hmbr
  cases hlook : states.lookup groupId with
  | none =>
    cases hlookup' : states'.lookup groupId with
    | none => rfl
    | some group' => simp [hlook, hlookup'] at hpres
  | some group =>
    cases hlookup' : states'.lookup groupId with
    | none => simp [hlook, hlookup'] at hpres
    | some group' =>
      simp only [hlook, hlookup', bind_some] at hmbr
      rw [GroupMembersState.eq_iff_lookup.mpr hmbr]

/-- Any three states of a group at some operations can be merged in any order. -/
def MergeableAt (y : GroupCrdtInnerState ID OP C) (ids : Finset OP) : Prop :=
  ∀ d₁ ∈ ids, ∀ d₂ ∈ ids, ∀ d₃ ∈ ids, ∀ groupId a b c, (y.stateOf d₁).lookup groupId = some a →
    (y.stateOf d₂).lookup groupId = some b → (y.stateOf d₃).lookup groupId = some c →
    Mergeable a b c

theorem mergeStates_eq_of_mergeableAt (h : ∀ d ∈ ids, (y.states.lookup d).isSome)
    (hmrgb : MergeableAt y ids) : y.mergeStates E ids = y.mergeStates E' ids := by
  rw [mergeStates_eq h, mergeStates_eq h]
  congr 1
  have hjoin := IsJoin.foldl_joinStates (E := E) (f := y.stateOf) (E.ops.iter ids)
  have hjoin' := IsJoin.foldl_joinStates (E := E') (f := y.stateOf) (E'.ops.iter ids)
  rw [HashOrder.toFinset_iter] at hjoin hjoin'
  apply GroupStates.eq_of_memberState
  · intro groupId
    rw [hjoin.present, hjoin'.present]
  · intro groupId member
    rw [memberState_foldl_joinStates, memberState_foldl_joinStates]
    -- all states of the member that are met come from one of the operations
    let S : Set (MemberState C) :=
      { m | ∃ d ∈ ids, (y.stateOf d).memberState groupId member = some m }
    have hcl (m1 : MemberState C) (h1 : m1 ∈ S) (m2 : MemberState C) (h2 : m2 ∈ S) :
        mergeMember m1 m2 ∈ S := by
      rcases mergeMember_eq_or m1 m2 with heq | heq
      · rwa [heq]
      · rwa [heq]
    have hcomm (m1 : MemberState C) (h1 : m1 ∈ S) (m2 : MemberState C) (h2 : m2 ∈ S) :
        mergeMember m1 m2 = mergeMember m2 m1 := by
      obtain ⟨d1, hd1, hm1⟩ := h1
      obtain ⟨d2, hd2, hm2⟩ := h2
      obtain ⟨a, ha, ha'⟩ := GroupStates.memberState_eq_some.mp hm1
      obtain ⟨b, hb, hb'⟩ := GroupStates.memberState_eq_some.mp hm2
      have hm := hmrgb d1 hd1 d2 hd2 d2 hd2 groupId a b b ha hb hb
      exact mergeMember_comm_iff.mpr (hm.settled member m1 m2 ha' hb')
    have hassoc (m1 : MemberState C) (h1 : m1 ∈ S) (m2 : MemberState C) (h2 : m2 ∈ S)
        (m3 : MemberState C) (h3 : m3 ∈ S) :
        mergeMember m1 (mergeMember m2 m3) = mergeMember (mergeMember m1 m2) m3 := by
      obtain ⟨d1, hd1, hm1⟩ := h1
      obtain ⟨d2, hd2, hm2⟩ := h2
      obtain ⟨d3, hd3, hm3⟩ := h3
      obtain ⟨a, ha, ha'⟩ := GroupStates.memberState_eq_some.mp hm1
      obtain ⟨b, hb, hb'⟩ := GroupStates.memberState_eq_some.mp hm2
      obtain ⟨c, hc, hc'⟩ := GroupStates.memberState_eq_some.mp hm3
      have hm := hmrgb d1 hd1 d2 hd2 d3 hd3 groupId a b c ha hb hc
      exact mergeMember_assoc_iff.mpr (hm.chained member m1 m2 m3 ha' hb' hc')
    apply foldl_merge_perm hcl hcomm hassoc (HashOrder.iter_perm E.ops E'.ops ids)
    · intro d hd m hm
      exact ⟨d, E.ops.mem_iter.mp hd, hm⟩
    · simp [GroupStates.memberState]

end States

/-! ## The laws -/

/-- Three group states obey the laws of a join exactly if they are mergeable. Then the order in
which operations are walked does not matter to the merge of their states. -/
theorem merge_isJoin_iff {ID OP C : Type} [DecidableEq ID] [DecidableEq OP] [Conditions C] :
    (∀ (o : HashOrder (GroupMember ID)) (a b c : GroupMembersState (GroupMember ID) C),
      merge o a b = merge o b a ∧ merge o a (merge o b c) = merge o (merge o a b) c ∧
          merge o a a = a ↔
        Mergeable a b c) ∧
      ∀ (E E' : Runtime ID OP) (y : GroupCrdtInnerState ID OP C) (ids : Finset OP),
        (∀ d ∈ ids, (y.states.lookup d).isSome) → MergeableAt y ids →
          y.mergeStates E ids = y.mergeStates E' ids := by
  refine ⟨?_, fun E E' y ids h hmrgb => mergeStates_eq_of_mergeableAt h hmrgb⟩
  intro o a b c
  rw [merge_comm_iff, merge_assoc_iff]
  constructor
  · rintro ⟨hset, hchained, -⟩
    exact ⟨hset, hchained⟩
  · intro h
    exact ⟨h.settled, h.chained, merge_self o a⟩

def groupOfOne {C : Type} (access : Access C) : GroupMembersState (GroupMember Nat) C :=
  create [(.individual 1, access)]

theorem unconditional_groupOfOne {C : Type} {access : Access C} (h : access.Unconditional) :
    (groupOfOne access).Unconditional := by
  apply GroupMembersState.grantsOnly_create
  simpa using h

def oneGroup (access : Access Unit) : GroupStates Nat Unit :=
  Finmap.insert 7 (groupOfOne access) ∅

theorem unconditional_oneGroup {access : Access Unit} (h : access.Unconditional) :
    (oneGroup access).Unconditional := by
  intro groupId a ha
  rw [oneGroup, HashMap.lookup_insert_ite] at ha
  split at ha
  · cases ha
    exact unconditional_groupOfOne h
  · simp at ha

def twoStates : GroupCrdtInnerState Nat Nat Unit :=
  { GroupCrdtInnerState.default with
    states := Finmap.insert 1 (oneGroup .write) (Finmap.insert 0 (oneGroup .read) ∅) }

theorem mergeableAt_twoStates : MergeableAt twoStates {0, 1} := by
  have hread : (oneGroup .read).Unconditional := unconditional_oneGroup rfl
  have hwrite : (oneGroup .write).Unconditional := unconditional_oneGroup rfl
  have hsts : ∀ d ∈ ({0, 1} : Finset Nat), ∀ groupId a,
      (twoStates.stateOf d).lookup groupId = some a → a.Unconditional := by
    intro d hd groupId a ha
    rcases Finset.mem_insert.mp hd with rfl | hd
    · have hst : twoStates.stateOf 0 = oneGroup .read := by decide +kernel
      exact hread groupId a ha
    · have hst : twoStates.stateOf 1 = oneGroup .write := by decide +kernel
      rw [Finset.mem_singleton.mp hd] at ha
      exact hwrite groupId a ha
  intro d1 hd1 d2 hd2 d3 hd3 groupId a b c ha hb hc
  exact mergeable_of_unconditional (hsts d1 hd1 groupId a ha) (hsts d2 hd2 groupId b hb)

theorem merge_isJoin_twoStates :
    (merge Runtime.reference.members (groupOfOne .read) (groupOfOne .write) =
      merge Runtime.reference.members (groupOfOne .write) (groupOfOne (.read : Access Unit))) ∧
    ∀ E : Runtime Nat Nat,
      twoStates.mergeStates E {0, 1} = twoStates.mergeStates Runtime.reference {0, 1} := by
  have hlaws := @merge_isJoin_iff Nat Nat Unit _ _ _
  refine ⟨?_, ?_⟩
  · have hmrgb : Mergeable (groupOfOne (.read : Access Unit)) (groupOfOne .write)
        (groupOfOne .pull) :=
      mergeable_of_unconditional (unconditional_groupOfOne rfl) (unconditional_groupOfOne rfl)
    exact ((hlaws.1 Runtime.reference.members _ _ _).mpr hmrgb).1
  · intro E
    exact hlaws.2 E Runtime.reference twoStates {0, 1} (by decide +kernel) mergeableAt_twoStates

structure ExpiryTimestamp where
  timestamp : Nat
  deriving DecidableEq

instance : Conditions ExpiryTimestamp where
  partialCmp a b := some (compare a.timestamp b.timestamp)

theorem lawful_expiryTimestamp : Conditions.Lawful ExpiryTimestamp where
  beq_symm a b h := by
    rw [beq_iff_eq] at h ⊢
    exact h.symm
  beq_trans a b c hab hbc := by
    rw [beq_iff_eq] at hab hbc ⊢
    exact hab.trans hbc
  partialCmp_eq_iff a b := by
    obtain ⟨a⟩ := a
    obtain ⟨b⟩ := b
    simp [Conditions.partialCmp]
  partialCmp_swap a b := by
    show some _ = some _
    rw [Nat.compare_swap]
  partialCmp_trans a b c hab hbc := by
    simp only [Conditions.partialCmp, Option.some.injEq, Nat.compare_eq_lt] at hab hbc ⊢
    omega

/-- Read access until some time and without an end: the merge keeps its second argument. Read access
without an end, write access until some time and pull access until later: the merge depends on the
brackets. -/
theorem merge_not_isJoin : Conditions.Lawful ExpiryTimestamp ∧
    (let a := groupOfOne (⟨some ⟨10⟩, .read⟩ : Access ExpiryTimestamp)
      let b := groupOfOne (.read : Access ExpiryTimestamp)
      merge Runtime.reference.members a b ≠ merge Runtime.reference.members b a) ∧
    (let a := groupOfOne (.read : Access ExpiryTimestamp)
      let b := groupOfOne (⟨some ⟨5⟩, .write⟩ : Access ExpiryTimestamp)
      let c := groupOfOne (⟨some ⟨10⟩, .pull⟩ : Access ExpiryTimestamp)
      let o := Runtime.reference.members
      merge o a (merge o b c) ≠ merge o (merge o a b) c) :=
  ⟨lawful_expiryTimestamp, by decide +kernel, by decide +kernel⟩

end Group

end P2Panda.Auth
