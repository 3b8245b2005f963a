import P2Panda.Auth.Group.Monotone
import P2Panda.Auth.Group.TransitiveMembers

/-!
# Members in the past

The members at a point of the history should be those given at that point. Where the group is now
there is no rebuild, and the current state may have another create that is not below the group's
tips.
-/

namespace P2Panda.Auth.Group

open P2Panda.Library GroupStates Relation

namespace GroupCrdtInnerState

variable {ID OP C : Type} [DecidableEq OP]

/-- An operation of the group makes the other one a member. -/
def Nests (y : GroupCrdtInnerState ID OP C) (groupId id : ID) : Prop :=
  ∃ x o access, y.Has x o ∧ o.groupId = groupId ∧ o.action.Grants (.group id) access

variable {y z : GroupCrdtInnerState ID OP C} {groupId id : ID}

theorem nests_of_subset (hhas : ∀ {x o}, z.Has x o → y.Has x o)
    (h : ReflTransGen z.Nests groupId id) : ReflTransGen y.Nests groupId id := by
  refine ReflTransGen.mono ?_ _ _ h
  rintro a b ⟨x, o, access, hx, hgrp, hgrts⟩
  exact ⟨x, o, access, hhas hx, hgrp, hgrts⟩

theorem unconditionalIn_of_subset (hhas : ∀ {x o}, z.Has x o → y.Has x o)
    (hy : ∀ id, ReflTransGen y.Nests groupId id → y.UnconditionalIn id) (id : ID)
    (hid : ReflTransGen z.Nests groupId id) : z.UnconditionalIn id :=
  fun hx => hy id (nests_of_subset hhas hid) (hhas hx)

variable [DecidableEq ID] [Conditions C] {states : GroupStates ID C}

theorem Resolved.nests (h : y.Resolved) (hjoin : IsJoin y.stateOf y.headsGlobal states)
    {m : MemberState C} (hm : states.memberState groupId (.group id) = some m) :
    y.Nests groupId id := by
  have hgrants := h.grantsOnly_currentState
    (P := fun groupId k _ => ∀ id, k = .group id → y.Nests groupId id)
    (fun hx => GroupAction.grantsOnly_iff.mpr fun k access hk id heq =>
      ⟨_, _, access, hx, rfl, heq ▸ hk⟩) hjoin
  obtain ⟨group, hgrp, hmbr⟩ := memberState_eq_some.mp hm
  exact hgrants groupId group hgrp _ m hmbr id rfl

theorem Resolved.nests_of_memberBelow (h : y.Resolved)
    (hjoin : IsJoin y.stateOf y.headsGlobal states) {level depth : Nat} {k : GroupMember ID}
    (hbelow : MemberBelow states level depth groupId k) (hk : k = .group id) :
    ReflTransGen y.Nests groupId id := by
  induction hbelow with
  | member hm =>
    subst hk
    exact .single (h.nests hjoin hm)
  | nested hm _ _ _ ih => exact .head (h.nests hjoin hm) (ih hk)

theorem Resolved.unconditionalBelow (h : y.Resolved)
    (hjoin : IsJoin y.stateOf y.headsGlobal states)
    (hy : ∀ id, ReflTransGen y.Nests groupId id → y.UnconditionalIn id) :
    UnconditionalBelow states groupId := by
  have hgiven {id : ID} (hid : y.UnconditionalIn id) {k : GroupMember ID} {m : MemberState C}
      (hm : states.memberState id k = some m) : m.access.Unconditional := by
    obtain ⟨group, hgrp, hmbr⟩ := memberState_eq_some.mp hm
    have hsts : states.UnconditionalIn id := h.grantsOnly_currentState hid.grantsOnly hjoin
    exact hsts.group hgrp k m hmbr
  intro k accesses hpath
  induction hpath with
  | member hm => exact List.forall_mem_singleton.mpr (hgiven (hy _ .refl) hm)
  | nested hm _ _ ih =>
    refine List.forall_mem_cons.mpr ⟨hgiven (hy _ .refl) hm, ih fun id hid => ?_⟩
    exact hy id (.head (h.nests hjoin hm) hid)

end GroupCrdtInnerState

namespace GroupCrdt

open GroupCrdtInnerState

variable {ID OP C : Type} [DecidableEq ID] [DecidableEq OP] [Conditions C]
variable {y z : GroupCrdtInnerState ID OP C} {heads : Finset OP} {groupId : ID}
variable (E E' : Runtime ID OP)

theorem rebuildAt_members_perm (groupId : ID) (hy : y.Resolved) (hz : z.Resolved)
    (hconds : ∀ id, ReflTransGen y.Nests groupId id → y.UnconditionalIn id)
    (hhas : ∀ {x o}, z.Has x o ↔ y.Has x o ∧ y.InPast heads x) :
    ∃ inner l l', rebuildAt E y heads = .ok inner ∧
      inner.members E groupId = (.ok l : Outcome (GroupCrdtError ID OP) _) ∧
      z.members E' groupId = (.ok l' : Outcome (GroupCrdtError ID OP) _) ∧ l.Perm l' := by
  obtain ⟨inner, hinn, hsame, hresd⟩ := rebuildAt_spec hy.history E heads
  have hhas' : ∀ {x o}, inner.Has x o ↔ z.Has x o := by
    intro x o
    rw [hsame.has, has_trimmed, hhas]
  have hzU := unconditionalIn_of_subset (fun hx => (hhas.mp hx).1) hconds
  have hinnerU := unconditionalIn_of_subset hhas'.mp hzU
  obtain ⟨states, hsts, hjoin⟩ := hresd.currentState E
  obtain ⟨states', hstates', hjoin'⟩ := hz.currentState E'
  have hlook : ∀ id, ReflTransGen inner.Nests groupId id → states.lookup id = states'.lookup id :=
    fun id hid => lookup_currentState_eq hresd hz (hinnerU id hid) hhas' hjoin hjoin'
  obtain ⟨l, l', hl, hl', hperm⟩ : ∃ l l', inner.members E groupId = .ok l ∧
      z.members E' groupId = .ok l' ∧ l.Perm l' :=
    members_perm hsts hstates' (hresd.unconditionalBelow hjoin hinnerU)
      (hz.unconditionalBelow hjoin' hzU) (hlook groupId .refl)
      fun id hbelow => hlook id (hresd.nests_of_memberBelow hjoin hbelow rfl)
  exact ⟨inner, l, l', hinn, hl, hl', hperm⟩

/-- Where the group is now, its members are those of the past, unless it or a group below it was
created twice. -/
theorem members_perm_of_heads (hy : y.Resolved) (hz : z.Resolved)
    (hconds : ∀ id, ReflTransGen y.Nests groupId id → y.UnconditionalIn id)
    (honce : ∀ id, ReflTransGen y.Nests groupId id → y.CreatedOnceIn id)
    (hhas : ∀ {x o}, z.Has x o ↔ y.Has x o ∧ y.InPast heads x)
    (hhds : y.heads E [groupId] = (.ok heads : Outcome (GroupCrdtError ID OP) _)) :
    ∃ l l', y.members E groupId = (.ok l : Outcome (GroupCrdtError ID OP) _) ∧
      z.members E' groupId = (.ok l' : Outcome (GroupCrdtError ID OP) _) ∧ l.Perm l' := by
  have hzU := unconditionalIn_of_subset (fun hx => (hhas.mp hx).1) hconds
  obtain ⟨states, hsts, hjoin⟩ := hy.currentState E
  obtain ⟨states', hstates', hjoin'⟩ := hz.currentState E'
  have huncond := hy.unconditionalBelow hjoin hconds
  obtain ⟨dependencies, hrun, -⟩ := hy.groupDependencies E [groupId]
  obtain ⟨tips, htips, habove⟩ := hy.heads_above E hrun
  cases htips.symm.trans hhds
  have hmem : ∀ {id}, id ∈ dependencies ↔
      id = groupId ∨ MemberBelow states 0 maxNestedDepth groupId (.group id) :=
    mem_groupDependencies hsts huncond hrun
  have hlook : ∀ {id}, ReflTransGen y.Nests groupId id → id ∈ dependencies →
      states.lookup id = states'.lookup id := by
    intro id hnest hid
    exact lookup_currentState_of_subset hy hz (honce id hnest) (hconds id hnest)
      (fun hx => (hhas.mp hx).1) (fun hx hgrp => hhas.mpr ⟨hx, habove hx (hgrp ▸ hid)⟩) hjoin
      hjoin'
  exact members_perm hsts hstates' huncond (hz.unconditionalBelow hjoin' hzU)
    (hlook .refl (hmem.mpr (Or.inl rfl)))
    fun id hbelow => hlook (hy.nests_of_memberBelow hjoin hbelow rfl) (hmem.mpr (Or.inr hbelow))

theorem membersAt_perm (hy : y.Resolved) (hz : z.Resolved)
    (hconds : ∀ id, ReflTransGen y.Nests groupId id → y.UnconditionalIn id)
    (honce : y.heads E [groupId] = (.ok heads : Outcome (GroupCrdtError ID OP) _) →
      ∀ id, ReflTransGen y.Nests groupId id → y.CreatedOnceIn id)
    (hhas : ∀ {x o}, z.Has x o ↔ y.Has x o ∧ y.InPast heads x) :
    ∃ l l', membersAt E y heads groupId = .ok l ∧
      z.members E' groupId = (.ok l' : Outcome (GroupCrdtError ID OP) _) ∧ l.Perm l' := by
  obtain ⟨tips, htips, -⟩ := hy.heads_spec (ε := GroupCrdtError ID OP) E [groupId]
  by_cases hreb : tips ≠ heads
  · obtain ⟨inner, l, l', hinn, hl, hl', hperm⟩ :=
      rebuildAt_members_perm E E' groupId hy hz hconds hhas
    refine ⟨l, l', ?_, hl', hperm⟩
    simp only [membersAt, htips, Outcome.ok_bind, if_pos hreb, hinn, hl]
  · rw [not_not] at hreb
    subst hreb
    obtain ⟨l, l', hl, hl', hperm⟩ :=
      members_perm_of_heads E E' hy hz hconds (honce htips) hhas htips
    refine ⟨l, l', ?_, hl', hperm⟩
    simp only [membersAt, htips, Outcome.ok_bind, ne_eq, not_true, if_false, hl]

/-- The members at some heads are those of a replica that processed the operations up to there, if
the group and those nested in it give no conditions and, where the group is now, are created
once. -/
theorem membersAt_perm_members {ops ops' : List (Operation ID OP C)} (h : Run ops y)
    (h' : Run ops' z) (hops : ∀ o, o ∈ ops' ↔ o ∈ ops ∧ y.InPast heads o.id)
    (hconditions : ∀ id, ReflTransGen y.Nests groupId id → y.UnconditionalIn id)
    (honce : y.heads E [groupId] = (.ok heads : Outcome (GroupCrdtError ID OP) _) →
      ∀ id, ReflTransGen y.Nests groupId id → y.CreatedOnceIn id) :
    ∃ l l', membersAt E y heads groupId = .ok l ∧
      z.members E' groupId = (.ok l' : Outcome (GroupCrdtError ID OP) _) ∧ l.Perm l' := by
  have hhas : ∀ {x o}, z.Has x o ↔ y.Has x o ∧ y.InPast heads x := by
    intro x o
    rw [h.has_iff, h'.has_iff, hops]
    constructor
    · rintro ⟨⟨hmem, hpast⟩, rfl⟩
      exact ⟨⟨hmem, rfl⟩, hpast⟩
    · rintro ⟨⟨hmem, rfl⟩, hpast⟩
      exact ⟨⟨hmem, hpast⟩, rfl⟩
  exact membersAt_perm E E' h.consistent.toResolved h'.consistent.toResolved hconditions honce hhas

variable {E} in
theorem Run.mem_past_iff {ops ops' : List (Operation ID OP C)} (h : Run ops y)
    (hsub : ∀ o ∈ ops', o ∈ ops)
    (hpast : ∀ o ∈ ops, o.id ∈ (y.trimmedGraph E heads).nodes ↔ o ∈ ops') (o : Operation ID OP C) :
    o ∈ ops' ↔ o ∈ ops ∧ y.InPast heads o.id := by
  constructor
  · intro ho
    have hmem := hsub o ho
    exact ⟨hmem, (mem_trimmedGraph.mp ((hpast o hmem).mpr ho)).2⟩
  · rintro ⟨hmem, ho⟩
    exact (hpast o hmem).mp (mem_trimmedGraph.mpr ⟨(h.has_iff.mpr ⟨hmem, rfl⟩).1, ho⟩)

def addThenRemoval : List (Operation Nat Nat Unit) :=
  [⟨0, 1, [], 9, createManagers [1, 2]⟩, ⟨1, 1, [0], 9, .add (.individual 3) .read⟩,
    ⟨2, 1, [1], 9, .remove (.individual 2)⟩]

theorem membersAt_perm_members_addThenRemoval : ∃ y z, Run addThenRemoval y ∧
    Run (addThenRemoval.take 2) z ∧ ∃ l l', membersAt .reference y {1} 9 = .ok l ∧
      z.members .reference 9 = (.ok l' : Outcome (GroupCrdtError Nat Nat) _) ∧ l.Perm l' := by
  obtain ⟨y, h, hpast, hhds⟩ := Run.of_returns (p := fun y => (∀ o ∈ addThenRemoval,
        o.id ∈ (y.trimmedGraph .reference {1}).nodes ↔ o ∈ addThenRemoval.take 2) ∧
      (y.heads .reference [9] : Outcome (GroupCrdtError Nat Nat) _).Returns (· ≠ {1}))
    .reference addThenRemoval (by decide +kernel)
  obtain ⟨z, h', -⟩ := Run.of_returns (p := fun _ => True) .reference (addThenRemoval.take 2)
    (by decide +kernel)
  have hy : y.Unconditional := h.unconditional (by decide)
  refine ⟨y, z, h, h', membersAt_perm_members _ _ h h' (h.mem_past_iff (by decide) hpast)
    (fun id _ => hy.on id) fun hnow => ?_⟩
  obtain ⟨tips, htips, hne⟩ := hhds
  cases htips.symm.trans hnow
  exact absurd rfl hne

def recreatedBeside : List (Operation Nat Nat Unit) :=
  [⟨1, 1, [], 9, createManagers [1]⟩, ⟨2, 1, [1], 8, createManagers [1]⟩,
    ⟨3, 1, [1], 9, createManagers [2]⟩]

def recreated : List (Operation Nat Nat Unit) :=
  [⟨1, 1, [], 9, createManagers [1]⟩, ⟨3, 1, [1], 9, createManagers [2]⟩]

theorem membersAt_not_perm_recreated : ∃ y z, Run recreatedBeside y ∧ Run recreated z ∧
    (∀ o, o ∈ recreated ↔ o ∈ recreatedBeside ∧ y.InPast {3} o.id) ∧
    membersAt .reference y {3} 9 = .ok [(1, .manage), (2, .manage)] ∧
    z.members .reference 9 = (.ok [(2, .manage)] : Outcome (GroupCrdtError Nat Nat) _) := by
  obtain ⟨y, h, hpast, l, hl, rfl⟩ := Run.of_returns (p := fun y => (∀ o ∈ recreatedBeside,
        o.id ∈ (y.trimmedGraph .reference {3}).nodes ↔ o ∈ recreated) ∧
      (membersAt .reference y {3} 9).Returns (· = [(1, .manage), (2, .manage)]))
    .reference recreatedBeside (by decide +kernel)
  obtain ⟨z, h', l', hl', rfl⟩ := Run.of_returns
    (p := fun z => (z.members .reference 9 : Outcome (GroupCrdtError Nat Nat) _).Returns
      (· = [(2, .manage)])) .reference recreated (by decide +kernel)
  exact ⟨y, z, h, h', h.mem_past_iff (by decide) hpast, hl, hl'⟩

end GroupCrdt

end P2Panda.Auth.Group
