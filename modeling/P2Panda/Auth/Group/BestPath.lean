import Mathlib.Data.Set.Finite.Lemmas
import P2Panda.Auth.Group.Acceptance
import P2Panda.Auth.Group.MergeLaws
import P2Panda.Auth.Group.TransitiveMembers

/-!
# Transitive membership is the best path

The members of a group are listed with the best access that a path of nested groups gives, where a
path gives the lowest access on it.
-/

namespace P2Panda.Auth.Group

open P2Panda.Library

namespace GroupCrdtInnerState

section Paths

variable {ID C : Type} [DecidableEq ID] (states : GroupStates ID C)

/-- A group nested in another one, and how deep. -/
inductive NestedIn : Nat → ID → ID → Prop
  | self {groupId} : NestedIn 0 groupId groupId
  | step {depth groupId id id' m} : states.memberState groupId (.group id) = some m →
      m.isMember = true → NestedIn depth id id' → NestedIn (depth + 1) groupId id'

/-- The lowest access on some path from the group to the member. -/
def Grants (groupId : ID) (k : GroupMember ID) (access : Access C) : Prop :=
  ∃ accesses, NestingPath states groupId k accesses ∧ access ∈ accesses ∧
    ∀ a ∈ accesses, access.level.rank ≤ a.level.rank

structure IsBest (groupId : ID) (k : GroupMember ID) (access : Access C) : Prop where
  grants : Grants states groupId k access
  best : ∀ access', Grants states groupId k access' → access'.level.rank ≤ access.level.rank

variable {states} {groupId : ID} {k : GroupMember ID} {accesses : List (Access C)}

theorem NestingPath.nestedIn (h : NestingPath states groupId k accesses) :
    ∃ depth id, NestedIn states depth groupId id ∧ accesses.length = depth + 1 := by
  induction h with
  | member => exact ⟨0, _, .self, rfl⟩
  | nested hm hactv _ ih =>
    obtain ⟨depth, id, hnest, hlen⟩ := ih
    exact ⟨depth + 1, id, .step hm hactv hnest, by simp [hlen]⟩

theorem NestingPath.grants (h : NestingPath states groupId k accesses) :
    ∃ access, Grants states groupId k access ∧ access ∈ accesses ∧
      ∀ a ∈ accesses, access.level.rank ≤ a.level.rank := by
  have hne : {a | a ∈ accesses}.Nonempty := List.exists_mem_of_ne_nil _ h.ne_nil
  obtain ⟨access, hmem, hmin⟩ := Set.exists_min_image {a | a ∈ accesses}
    (fun a => a.level.rank) accesses.finite_toSet hne
  exact ⟨access, ⟨accesses, h, hmem, hmin⟩, hmem, hmin⟩

theorem Grants.unconditional (hsts : UnconditionalBelow states groupId) {access : Access C}
    (h : Grants states groupId k access) : access.Unconditional := by
  obtain ⟨accesses, hpath, hmem, -⟩ := h
  exact hsts _ _ hpath access hmem

theorem IsBest.unique (hsts : UnconditionalBelow states groupId) {access access' : Access C}
    (h : IsBest states groupId k access) (h' : IsBest states groupId k access') :
    access = access' := by
  apply Access.eq_of_rank (h.grants.unconditional hsts) (h'.grants.unconditional hsts)
  exact le_antisymm (h'.best access h.grants) (h.best access' h'.grants)

end Paths

section Walk

variable {ID OP C : Type} [DecidableEq ID] [DecidableEq OP] [Conditions C]
variable {E : Runtime ID OP} {states : GroupStates ID C} {groupId : ID} {access : Access C}

theorem lookup_membersInner (hsts : UnconditionalBelow states groupId)
    (hdepth : ∀ depth id, NestedIn states depth groupId id → depth < maxNestedDepth)
    {k : GroupMember ID} :
    (membersInner E states maxNestedDepth groupId ∅ none).lookup k = some access ↔
      IsBest states groupId k access := by
  obtain ⟨huncond, hrecs⟩ := records_membersInner (E := E) hsts maxNestedDepth
  -- the walk is deep enough for every path
  have hgrants {access : Access C} (h : Grants states groupId k access) :
      Records (membersInner E states maxNestedDepth groupId ∅ none) k access.level.rank := by
    obtain ⟨accesses, hpath, -, hmin⟩ := h
    obtain ⟨depth, id, hnest, hlen⟩ := hpath.nestedIn
    have hbound := hdepth depth id hnest
    rw [hrecs, memberBelow_iff]
    exact ⟨accesses, hpath, by omega, hmin⟩
  have hbest {access : Access C}
      (h : (membersInner E states maxNestedDepth groupId ∅ none).lookup k = some access) :
      IsBest states groupId k access := by
    have hrec {level : Nat} (hlvl : Records (membersInner E states maxNestedDepth groupId
        ∅ none) k level) : level ≤ access.level.rank := by
      obtain ⟨access', hlook, hle⟩ := hlvl
      rw [h] at hlook
      cases hlook
      exact hle
    obtain ⟨accesses, hpath, -, hall⟩ :=
      memberBelow_iff.mp ((hrecs k access.level.rank).mp ⟨access, h, le_rfl⟩)
    obtain ⟨lowest, hlowest, hmem, -⟩ := hpath.grants
    have heq : lowest = access := by
      apply Access.eq_of_rank (hlowest.unconditional hsts) (huncond k access h)
      exact le_antisymm (hrec (hgrants hlowest)) (hall lowest hmem)
    exact ⟨heq ▸ hlowest, fun access' hgrtd => hrec (hgrants hgrtd)⟩
  constructor
  · exact hbest
  · intro h
    obtain ⟨access', hlook, -⟩ := hgrants h.grants
    rw [hlook, (hbest hlook).unique hsts h]

variable {y : GroupCrdtInnerState ID OP C} {members : List (GroupMember ID × Access C)}

theorem currentState_eq_of_unconditional {ε : Type} (E E' : Runtime ID OP)
    (hstor : ∀ d ∈ y.headsGlobal, (y.states.lookup d).isSome)
    (hy : ∀ d ∈ y.headsGlobal, (y.stateOf d).Unconditional) :
    y.currentState E = (y.currentState E' : Outcome ε _) := by
  have hmrgb : MergeableAt y y.headsGlobal := by
    intro d1 hd1 d2 hd2 d3 _ groupId a b c ha hb _
    exact mergeable_of_unconditional (hy d1 hd1 groupId a ha) (hy d2 hd2 groupId b hb)
  have hmerge : y.mergeStates E y.headsGlobal = y.mergeStates E' y.headsGlobal :=
    mergeStates_eq_of_mergeableAt hstor hmrgb
  unfold currentState
  rw [hmerge]

omit [Conditions C] [DecidableEq ID] [DecidableEq OP] in
theorem nodup_individuals (h : (members.map Prod.fst).Nodup) :
    ((members.filterMap fun (member, access) =>
      if member.isIndividual then some (member.id, access) else none).map Prod.fst).Nodup := by
  have hmap : (members.filterMap fun (member, access) =>
      if member.isIndividual then some (member.id, access) else none).map Prod.fst =
      (members.map Prod.fst).filterMap fun member =>
        if member.isIndividual then some member.id else none := by
    rw [List.map_filterMap, List.filterMap_map]
    congr 1
    funext ⟨member, access⟩
    cases member <;> rfl
  rw [hmap]
  apply List.Nodup.filterMap _ h
  intro member member' id hmbr hmember'
  cases member with
  | group => cases hmbr
  | individual => cases member' with
    | group => cases hmember'
    | individual =>
      cases hmbr
      cases hmember'
      rfl

omit [Conditions C] [DecidableEq ID] [DecidableEq OP] in
theorem mem_individuals {id : ID} :
    (id, access) ∈ (members.filterMap fun (member, access) =>
      if member.isIndividual then some (member.id, access) else none) ↔
      (.individual id, access) ∈ members := by
  rw [List.mem_filterMap]
  constructor
  · rintro ⟨⟨member, access'⟩, hmem, hpicked⟩
    cases member with
    | group => cases hpicked
    | individual =>
      cases hpicked
      exact hmem
  · intro hmem
    exact ⟨_, hmem, rfl⟩

/-- The individual members of a group are listed once each, with the best access that a path of
nested groups gives them, in whatever order hash maps are walked. A cycle of groups would nest them
at every depth. -/
theorem members_isBest {ε : Type} (hstored : ∀ d ∈ y.headsGlobal, (y.states.lookup d).isSome)
    (hy : ∀ d ∈ y.headsGlobal, (y.stateOf d).Unconditional) :
    ∃ states, (∀ E, y.currentState E = (.ok states : Outcome ε _)) ∧
      ∀ groupId, (∀ depth id, NestedIn states depth groupId id → depth < maxNestedDepth) →
        ∀ E, ∃ members, y.members E groupId = (.ok members : Outcome ε _) ∧
          (members.map Prod.fst).Nodup ∧
          ∀ id access, (id, access) ∈ members ↔ IsBest states groupId (.individual id) access := by
  by_cases hrt : Nonempty (Runtime ID OP)
  swap
  · exact ⟨∅, fun E => absurd ⟨E⟩ hrt, fun _ _ E => absurd ⟨E⟩ hrt⟩
  obtain ⟨E0⟩ := hrt
  obtain ⟨states, hmrg, hjoin⟩ := mergeStates_ok E0 hstored
  have hcur (E : Runtime ID OP) : y.currentState E = (.ok states : Outcome ε _) := by
    rw [currentState_eq_of_unconditional E E0 hstored hy, currentState, hmrg]
    rfl
  have hsts : states.Unconditional := hjoin.grantsOnly hy
  refine ⟨states, hcur, fun groupId hdepth E => ?_⟩
  simp only [members, traverseMembers, hcur, Outcome.ok_bind, Outcome.pure_eq,
    Outcome.ok.injEq, exists_eq_left']
  refine ⟨nodup_individuals (HashMap.nodup_fst_entries _ _), fun id access => ?_⟩
  rw [mem_individuals, HashMap.mem_entries,
    lookup_membersInner (unconditionalBelow_of_unconditional hsts groupId) hdepth]

end Walk

/-- Member 1 manages two groups; the second is a member of the first that may read. -/
theorem members_isBest_nestedGroups : ∃ y, GroupCrdt.Run GroupCrdt.nestedGroups y ∧
    ∃ states, (∀ E, y.currentState E = (.ok states : Outcome Empty _)) ∧
      ∀ E, ∃ members, y.members E 11 = (.ok members : Outcome Empty _) ∧
        (members.map Prod.fst).Nodup ∧
        ∀ id access, (id, access) ∈ members ↔ IsBest states 11 (.individual id) access := by
  obtain ⟨y, h, states, hcur, hchild, hleaf⟩ := GroupCrdt.Run.of_returns
    (p := fun y => (y.currentState .reference : Outcome Empty _).Returns fun states =>
      childGroups .reference states 11 = [12] ∧ childGroups .reference states 12 = [])
    .reference GroupCrdt.nestedGroups (by decide +kernel)
  have hresd := h.consistent.toResolved
  have hhds {d : Nat} (hd : d ∈ y.headsGlobal) : d ∈ y.graph.nodes :=
    (DiGraphMap.mem_externals.mp hd).1
  obtain ⟨states', hstates', hmbrs⟩ := members_isBest (fun d hd => hresd.stored (hhds hd))
    (fun d hd => hresd.grantsOnly_stateOf (h.unconditional (by decide)) (hhds hd))
  cases hcur.symm.trans (hstates' .reference)
  refine ⟨y, h, states, hstates', hmbrs 11 ?_⟩
  have hsub {parent child : Nat} {m : MemberState Unit}
      (hm : states.memberState parent (.group child) = some m) (hactv : m.isMember = true) :
      child ∈ childGroups .reference states parent :=
    GroupCrdt.mem_childGroups.mpr ⟨m, hm, hactv⟩
  intro depth id hnest
  cases hnest with
  | self => decide
  | step hm hactv hrest =>
    have hmem := hsub hm hactv
    rw [hchild, List.mem_singleton] at hmem
    subst hmem
    cases hrest with
    | self => decide
    | step hm' hactive' =>
      have hmem' := hsub hm' hactive'
      rw [hleaf] at hmem'
      cases hmem'

end GroupCrdtInnerState

end P2Panda.Auth.Group
