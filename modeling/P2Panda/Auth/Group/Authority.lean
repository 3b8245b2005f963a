import P2Panda.Auth.Group.Monotone

/-!
# Only authorised changes take effect

An operation writes to its own group only, and only if the members before it give its author the
right to. Removals of oneself and on a cycle of authority are applied without a check.
-/

namespace P2Panda.Auth.Group

open P2Panda.Library

namespace StrongRemove

open GroupCrdtInnerState

variable {ID OP C : Type} [DecidableEq ID] [DecidableEq OP]

/-- A removal or demotion on a cycle of the authority graph of its bubble. -/
def OnBubbleCycle (E : Runtime ID OP) (y : GroupCrdtInnerState ID OP C) (x : OP)
    (o : Operation ID OP C) : Prop :=
  o.removedOrDemotedManager.isSome ∧ ∃ bubble ∈ concurrentBubbles E.ops E.graph y.graph,
    x ∈ bubble ∧ (buildAuthorityGraphs E y.operations (bubbleGraph E y.graph bubble) :
      Outcome Empty _).Returns fun authority =>
        (authority.isCycle E.graph E.authority o.groupId x : Outcome Empty _).Returns
          fun result => result.1 = true

instance (E : Runtime ID OP) (y : GroupCrdtInnerState ID OP C) (x : OP) (o : Operation ID OP C) :
    Decidable (OnBubbleCycle E y x o) :=
  inferInstanceAs (Decidable (_ ∧ _))

theorem onBubbleCycle_iff {y : GroupCrdtInnerState ID OP C} (hy : y.History) {x : OP}
    {o : Operation ID OP C} (hx : y.Has x o) (E : Runtime ID OP) :
    OnBubbleCycle E y x o ↔ y.Mutual x := by
  rw [mutual_iff hx]
  refine and_congr_right fun hrmd => ?_
  have hbubbleCycle : ∀ {bubble}, IsBubble E y.graph bubble → x ∈ bubble →
      ((buildAuthorityGraphs E y.operations (bubbleGraph E y.graph bubble) :
        Outcome Empty _).Returns (fun authority =>
          (authority.isCycle E.graph E.authority o.groupId x : Outcome Empty _).Returns
            fun result => result.1 = true) ↔ y.OnCycle o.groupId x) := by
    intro bubble hbub hmem
    obtain ⟨authority, hbuild, hauthority⟩ := buildAuthorityGraphs_spec hy hbub
    obtain ⟨result, authority', hrun, hres, -⟩ := isCycle_bubble hy hbub hauthority o.groupId hmem
    rw [hbuild, Outcome.returns_ok, hrun, Outcome.returns_ok, hres]
  constructor
  · rintro ⟨bubble, hbub, hmem, hret⟩
    exact (hbubbleCycle hbub hmem).mp hret
  · intro hcyc
    obtain ⟨z, hconc⟩ := hcyc.exists_concurrent hy.acyclic hx
    obtain ⟨bubble, hbub, hmem⟩ := exists_bubble hconc
    exact ⟨bubble, hbub, hmem, (hbubbleCycle hbub hmem).mpr hcyc⟩

end StrongRemove

namespace GroupCrdtInnerState

variable {ID OP C : Type} [DecidableEq ID] [DecidableEq OP] [Conditions C]
variable {y : GroupCrdtInnerState ID OP C} {x : OP} {o : Operation ID OP C}
variable {base : GroupStates ID C}

/-- Without conditions, every order of merging gives the states before an operation. -/
theorem ResolvedFrom.mergeStates_eq (h : y.Resolved) (hy : y.Unconditional) (hx : y.Has x o)
    (hfrom : y.ResolvedFrom x o base) (E : Runtime ID OP) :
    y.mergeStates E o.dependencies.toFinset = .ok base := by
  obtain ⟨E', hmrg⟩ := hfrom.merged
  obtain ⟨base', hbase', -⟩ := h.mergeStates E fun d hd =>
    ((h.history.adj_iff_dep hx).mpr hd).left_mem
  have heq : base' = base := Finmap.ext_lookup fun groupId =>
    mergesAlike_of_unconditional h h (hy.on groupId) (fun hx => hx) hx hbase' hmrg fun _ _ => rfl
  rw [hbase', heq]

/-- What an operation changes was its author's to change, unless it is a mutual remove. -/
theorem ResolvedFrom.authorised (hfrom : y.ResolvedFrom x o base) (hcrt : o.action.isCreate = false)
    (hchgd : (y.stateOf x).lookup o.groupId ≠ base.lookup o.groupId) :
    (∃ members, base.lookup o.groupId = some members ∧
      members.ActiveManager (.individual o.author)) ∨
    o.action = .remove (.individual o.author) ∨ y.Mutual x := by
  classical
  obtain ⟨members, hmbrs⟩ := Option.isSome_iff_exists.mp
    (hfrom.present.resolve_left (by simp [hcrt]))
  rw [stateOf_eq hfrom.state, HashMap.lookup_insert_ite, if_pos rfl, hmbrs,
    resolvedMembers] at hchgd
  rcases resolveMembers_cases hcrt rfl with heq | ⟨-, -, member, m', hchg, -⟩ | ⟨hmut, -⟩
  · exact absurd (by rw [heq]) hchgd
  · exact hchg.authorised.imp (fun hmgr => ⟨members, hmbrs, hmgr⟩) Or.inl
  · exact Or.inr (Or.inr (of_decide_eq_true hmut))

end GroupCrdtInnerState

namespace GroupCrdt

open GroupCrdtInnerState

/-- The state stored at an operation differs from the merge of its dependencies only in the
operation's group, and only by right. -/
theorem stored_change_authorised {ID OP C : Type} [DecidableEq ID] [DecidableEq OP] [Conditions C]
    {ops : List (Operation ID OP C)} {y : GroupCrdtInnerState ID OP C} (h : Run ops y) {x : OP}
    {o : Operation ID OP C} (hx : y.Has x o) (hcreate : o.action.isCreate = false)
    (E : Runtime ID OP) :
    ∃ stored base, y.states.lookup x = some stored ∧
      (∃ E', y.mergeStates E' o.dependencies.toFinset = .ok base) ∧
      (y.Unconditional → ∀ E', y.mergeStates E' o.dependencies.toFinset = .ok base) ∧
      (∀ groupId, groupId ≠ o.groupId → stored.lookup groupId = base.lookup groupId) ∧
      (stored.lookup o.groupId ≠ base.lookup o.groupId →
        (∃ members, base.lookup o.groupId = some members ∧
          members.ActiveManager (.individual o.author)) ∨
        o.action = .remove (.individual o.author) ∨
        StrongRemove.OnBubbleCycle E y x o) := by
  have hy := h.consistent.toResolved
  obtain ⟨o', base, ho', hfrom⟩ := hy.resolved x hx.1
  cases hx.unique ho'
  refine ⟨_, base, hfrom.state, hfrom.merged, fun hconds E' =>
    hfrom.mergeStates_eq hy hconds hx E', fun groupId hgrp => ?_, fun hchgd => ?_⟩
  · rw [HashMap.lookup_insert_ite, if_neg hgrp]
  · rw [← stateOf_eq hfrom.state] at hchgd
    refine (hfrom.authorised hcreate hchgd).imp_right (Or.imp_right fun hmut => ?_)
    exact (StrongRemove.onBubbleCycle_iff hy.history hx E).mpr hmut

def mutualRemoval : List (Operation Nat Nat Unit) :=
  [⟨0, 1, [], 9, createManagers [1, 2]⟩, ⟨1, 1, [0], 9, .remove (.individual 2)⟩,
    ⟨2, 2, [0], 9, .remove (.individual 1)⟩]

theorem stored_change_authorised_mutualRemoval : ∃ y, Run mutualRemoval y ∧
    ∃ stored base, y.states.lookup 2 = some stored ∧
      (∃ E', y.mergeStates E' {0} = .ok base) ∧
      (y.Unconditional → ∀ E', y.mergeStates E' {0} = .ok base) ∧
      (∀ groupId, groupId ≠ 9 → stored.lookup groupId = base.lookup groupId) ∧
      (stored.lookup 9 ≠ base.lookup 9 →
        (∃ members, base.lookup 9 = some members ∧ members.ActiveManager (.individual 2)) ∨
        GroupAction.remove (.individual 1) = (.remove (.individual 2) : GroupAction Nat Unit) ∨
        StrongRemove.OnBubbleCycle .reference y 2 ⟨2, 2, [0], 9, .remove (.individual 1)⟩) := by
  obtain ⟨y, h, -⟩ := Run.of_returns (p := fun _ => True) .reference mutualRemoval
    (by decide +kernel)
  have hx : y.Has 2 ⟨2, 2, [0], 9, .remove (.individual 1)⟩ := h.has_iff.mpr (by decide)
  exact ⟨y, h, stored_change_authorised h hx rfl .reference⟩

end GroupCrdt

end P2Panda.Auth.Group
