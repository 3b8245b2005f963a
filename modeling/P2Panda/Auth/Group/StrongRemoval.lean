import P2Panda.Auth.Group.Monotone

/-!
# Removals win

A member that a removal has made inactive comes back only through an add that knows of the removal:
a concurrent one is filtered, and an earlier one has been counted over.
-/

namespace P2Panda.Auth.Group

open P2Panda.Library

namespace GroupCrdtInnerState

variable {ID OP C : Type} [DecidableEq OP] {y : GroupCrdtInnerState ID OP C}

theorem CreatedOnce.before (honce : y.CreatedOnce) (hy : y.History) {c x : OP}
    {oc o : Operation ID OP C} (hc : y.Has c oc) (hcrt : oc.action.isCreate = true)
    (hx : y.Has x o) (hnot : o.action.isCreate = false) (hgrp : oc.groupId = o.groupId) :
    y.graph.Before c x := by
  obtain ⟨c', oc', hbef, hc', hcreate', hgroup'⟩ := hy.created hx hnot
  rwa [honce hc hc' hcrt hcreate' (hgrp.trans hgroup'.symm)]

end GroupCrdtInnerState

theorem cancels_readd {ID OP C : Type} [DecidableEq ID] {r a : Operation ID OP C}
    {member : GroupMember ID} {access : Access C} (hr : r.action = .remove member)
    (ha : a.action = .add member access) (hgrp : a.groupId = r.groupId) : Cancels r a := by
  refine ⟨member.id, by simp [Operation.removedOrDemotedManager, hr], ?_⟩
  simp [StrongRemove.isReadd, ha, hgrp]

namespace GroupCrdt

open GroupCrdtInnerState

variable {ID OP C ε : Type} [DecidableEq ID] [DecidableEq OP] [Conditions C]

/-- A removed member is active again only after an add that knows of the removal. -/
theorem active_only_if_readded {ops : List (Operation ID OP C)}
    {y : GroupCrdtInnerState ID OP C} (h : Run ops y) (honce : y.CreatedOnce) {x : OP}
    {r : Operation ID OP C} (hx : y.Has x r) {member : GroupMember ID}
    (haction : r.action = .remove member) {stored : GroupStates ID C}
    (hstored : y.states.lookup x = some stored) (hinactive : ¬stored.Active r.groupId member)
    {E : Runtime ID OP} {states : GroupStates ID C}
    (hstates : y.currentState E = (.ok states : Outcome ε _))
    (hactive : states.Active r.groupId member) :
    ∃ z a access stored', y.Has z a ∧ a.action = .add member access ∧ a.groupId = r.groupId ∧
      y.graph.Before x z ∧ y.states.lookup z = some stored' ∧
      stored'.Active r.groupId member := by
  have hy := h.consistent.toResolved
  have hjoin := hy.isJoin_of_currentState hstates
  obtain ⟨m, hm, hodd⟩ := hactive
  obtain ⟨d, hd, hmd⟩ := hjoin.origin hm
  obtain ⟨z, a, mz, hz, hgrp, hmz, hactivez, hctr, hcases⟩ :=
    exists_added hy (honce.on _) (DiGraphMap.mem_externals.mp hd).1 hmd hodd
  -- The operation that made the member active is not before the removal.
  have hnot : ¬y.graph.Reaches z x := by
    intro hrch
    obtain ⟨m1, hm1, hle1⟩ := counter_le_of_reaches hy (honce.on _) hrch hmz
    obtain ⟨m2, hm2, hle2⟩ := counter_le_currentState hy (honce.on _) hjoin hx.1 hm1
    rw [hm] at hm2
    cases hm2
    rw [stateOf_eq hstored] at hm1
    refine hinactive ⟨m1, hm1, ?_⟩
    rw [MemberState.isMember, show m1.memberCounter = m.memberCounter by omega]
    exact hodd
  have hrm : r.action.isCreate = false := by rw [haction]; rfl
  obtain ⟨⟨access, hadd⟩, hfilt⟩ := hcases.resolve_left fun hcrt =>
    hnot (honce.before hy.history hz hcrt hx hrm hgrp).reaches
  obtain ⟨stored', hstored'⟩ := Option.isSome_iff_exists.mp (hy.stored hz.1)
  rw [stateOf_eq hstored'] at hmz
  refine ⟨z, a, access, stored', hz, hadd, hgrp, ?_, hstored', mz, hmz, hactivez⟩
  rcases DiGraphMap.reaches_or_concurrent hx.1 hz.1 with hrch | hrch | hconc
  · rcases DiGraphMap.reaches_iff_eq_or_before.mp hrch with rfl | hbef
    · exact absurd (DiGraphMap.Reaches.refl _ _) hnot
    · exact hbef
  · exact absurd hrch hnot
  · exact absurd ⟨a, x, r, hz, hx, hconc, cancels_readd haction hadd hgrp⟩ hfilt

def removalThenAdd : List (Operation Nat Nat Unit) :=
  [⟨0, 1, [], 9, createManagers [1, 2]⟩, ⟨1, 1, [0], 9, .remove (.individual 2)⟩,
    ⟨2, 1, [1], 9, .add (.individual 2) .read⟩]

theorem active_only_if_readded_removalThenAdd : ∃ y, Run removalThenAdd y ∧
    ∃ z a access stored', y.Has z a ∧ a.action = .add (.individual 2) access ∧ a.groupId = 9 ∧
      y.graph.Before 1 z ∧ y.states.lookup z = some stored' ∧
      stored'.Active 9 (.individual 2) := by
  obtain ⟨y, h, hinact, states, hsts, hactv⟩ := Run.of_returns
    (p := fun y => ¬(y.stateOf 1).Active 9 (.individual 2) ∧
      (y.currentState .reference : Outcome Empty _).Returns (·.Active 9 (.individual 2)))
    .reference removalThenAdd (by decide +kernel)
  have hx : y.Has 1 ⟨1, 1, [0], 9, .remove (.individual 2)⟩ := h.has_iff.mpr (by decide)
  obtain ⟨stored, hstor⟩ := Option.isSome_iff_exists.mp (h.consistent.stored hx.1)
  rw [stateOf_eq hstor] at hinact
  exact ⟨y, h, active_only_if_readded h (h.createdOnce (by decide)) hx rfl hstor hinact hsts hactv⟩

end GroupCrdt

end P2Panda.Auth.Group
