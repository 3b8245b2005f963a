import P2Panda.Auth.Group.Monotone

/-!
# Creating a group again

A create is never checked against the group it names. It starts the group anew, and is merged with
what the tips it does not depend on know of the group.
-/

namespace P2Panda.Auth.Group

open P2Panda.Library GroupStates

namespace GroupCrdtInnerState

variable {ID OP C : Type} [DecidableEq ID] [DecidableEq OP]
variable {y y' : GroupCrdtInnerState ID OP C} {o : Operation ID OP C}
  {initialMembers : List (GroupMember ID × Access C)}

/-- A removal that the operation does not know of takes its author out of the group. -/
def Suppressed (y : GroupCrdtInnerState ID OP C) (o : Operation ID OP C) : Prop :=
  ∃ r ro, y.Has r ro ∧ ¬y.InPast o.dependencies.toFinset r ∧ Cancels ro o

theorem IsExtension.filtered_new (h : IsExtension y y' o) : y'.Filtered o.id ↔ y.Suppressed o := by
  have hbef : ∀ r, y'.graph.Before r o.id ↔ y.InPast o.dependencies.toFinset r := by
    intro r
    rw [h.graph.before_sink]
    simp only [InPast, List.mem_toFinset]
  constructor
  · rintro ⟨o', r, ro, ho', hr, hconc, hcanc⟩
    cases ho'.unique h.has_new
    rcases h.has.mp hr with ⟨heq, -⟩ | hold
    · exact absurd heq hconc.ne
    · exact ⟨r, ro, hold, fun hpast => hconc.2.2.1 ((hbef r).mpr hpast).reaches, hcanc⟩
  · rintro ⟨r, ro, hr, hnot, hcanc⟩
    refine ⟨o, r, ro, h.has_new, h.has_old hr, ⟨(h.has_old hr).1, h.has_new.1, ?_, ?_⟩, hcanc⟩
    · rw [DiGraphMap.reaches_iff_eq_or_before, hbef]
      exact fun hcases => hcases.elim (fun heq => h.ne_of_has hr heq.symm) hnot
    · rw [h.graph.reaches_from_sink]
      exact h.ne_of_has hr

theorem IsExtension.rules_of_create (h : IsExtension y y' o) (hcrt : o.action.isCreate = true)
    {x : OP} {ox : Operation ID OP C} (hx : y.Has x ox) :
    (y.Mutual x ↔ y'.Mutual x) ∧ (y.Filtered x ↔ y'.Filtered x) := by
  obtain ⟨hrmd, hadd⟩ := Operation.managers_of_isCreate hcrt
  refine ⟨(h.mutual_old hx (h.not_onCycle_of_not_entry hrmd hadd)).symm, ?_⟩
  rw [h.filtered_old hx, iff_self_or]
  rintro ⟨-, removed, hr, -⟩
  rw [hrmd] at hr
  cases hr

open Classical in
noncomputable def freshMembers (y : GroupCrdtInnerState ID OP C) (o : Operation ID OP C)
    (initialMembers : List (GroupMember ID × Access C)) : GroupMembersState (GroupMember ID) C :=
  if y.Suppressed o then .default else create initialMembers

theorem unconditional_freshMembers (h : ∀ p ∈ initialMembers, p.2.Unconditional) :
    (y.freshMembers o initialMembers).Unconditional := by
  unfold freshMembers
  split_ifs
  · exact GroupMembersState.grantsOnly_default
  · exact GroupMembersState.grantsOnly_create h

variable [Conditions C] {E : Runtime ID OP} {states : GroupStates ID C}
  {members : GroupMembersState (GroupMember ID) C}

theorem IsExtension.lookup_of_create (h : IsExtension y y' o) (hy' : y'.Resolved)
    (hactn : o.action = .create initialMembers) :
    (y'.stateOf o.id).lookup o.groupId = some (y.freshMembers o initialMembers) := by
  classical
  obtain ⟨o', base, ho', hfrom⟩ := hy'.resolved o.id h.has_new.1
  cases ho'.unique h.has_new
  have hcrt : o.action.isCreate = true := GroupAction.isCreate_iff.mpr ⟨_, hactn⟩
  have hmut : ¬y'.Mutual o.id := by
    rw [mutual_iff h.has_new, (Operation.managers_of_isCreate hcrt).1]
    simp
  rw [stateOf_eq hfrom.state, HashMap.lookup_insert_ite, if_pos rfl, resolvedMembers,
    resolveMembers_create hactn, decide_eq_false hmut, Bool.false_or, freshMembers]
  simp only [decide_eq_true_eq, h.filtered_new]

theorem ranks_mergeGroup {groupId : ID} (hmbrs : members.Unconditional) :
    (mergeGroup E states (groupId, members)).ranks groupId =
      states.ranks groupId ⊔ ↑members.ranks := by
  rw [ranks, ranks, mergeGroup, HashMap.lookup_andModifyOrInsert, if_pos rfl]
  cases states.lookup groupId with
  | none => simp
  | some current =>
    simp only [Option.elim_some, ranks_merge hmbrs, WithBot.coe_sup]
    exact sup_comm _ _

theorem unconditional_mergeGroup {groupId : ID} (hsts : states.UnconditionalIn groupId)
    (hmbrs : members.Unconditional) :
    (mergeGroup E states (groupId, members)).UnconditionalIn groupId := by
  intro g group hgrp k m hm hg
  subst hg
  rw [mergeGroup, HashMap.lookup_andModifyOrInsert, if_pos rfl, Option.some.injEq] at hgrp
  subst hgrp
  cases hlook : states.lookup g with
  | none => exact hmbrs k m (by simpa [hlook] using hm)
  | some current =>
    exact (hmbrs.merge (hsts.group hlook)) k m (by simpa [hlook] using hm)

end GroupCrdtInnerState

namespace GroupCrdt

open GroupCrdtInnerState

variable {ID OP C : Type} [DecidableEq ID] [DecidableEq OP] [Conditions C]
variable {ops : List (Operation ID OP C)} {y y' : GroupCrdtInnerState ID OP C}
variable {o : Operation ID OP C} {initialMembers : List (GroupMember ID × Access C)}

/-- The operation is rejected, or leaves its group as it is in the current state. -/
def Unchanged (E E₁ E₂ : Runtime ID OP) (y : GroupCrdtInnerState ID OP C)
    (o : Operation ID OP C) : Prop :=
  (∃ e, process E y o = .err e) ∨ ∃ y' before after, process E y o = .ok y' ∧
    y.currentState E₁ = (.ok before : Outcome Empty _) ∧
    y'.currentState E₂ = (.ok after : Outcome Empty _) ∧
    after.lookup o.groupId = before.lookup o.groupId

theorem process_create (h : Consistent y) (E : Runtime ID OP)
    (hactn : o.action = .create initialMembers) :
    ((∃ d ∈ o.dependencies, d ∉ y.graph.nodes) ∨ o.id ∈ y.graph.nodes) ∧
      (∃ e, process E y o = .err e) ∨
    ¬((∃ d ∈ o.dependencies, d ∉ y.graph.nodes) ∨ o.id ∈ y.graph.nodes) ∧
      ∃ y', process E y o = .ok y' ∧ IsExtension y y' o ∧ Consistent y' := by
  have hcrt : o.action.isCreate = true := GroupAction.isCreate_iff.mpr ⟨_, hactn⟩
  have hprocg := processing h E o
  generalize process E y o = result at hprocg
  cases hprocg with
  | missing hd hmiss => exact Or.inl ⟨Or.inl ⟨_, hd, hmiss⟩, _, rfl⟩
  | duplicate _ hold => exact Or.inl ⟨Or.inr hold, _, rfl⟩
  | managerGroup _ _ hmgr => simp [managerGroup?, hactn] at hmgr
  | cycle _ _ _ hadd => simp [hactn] at hadd
  | absent _ hnot => simp [hcrt] at hnot
  | invalid _ _ _ herror => simp [changeMembers, hactn] at herror
  | accepted hadm _ _ _ hext hcons =>
    refine Or.inr ⟨?_, _, rfl, hext, hcons⟩
    rintro (⟨d, hd, hmiss⟩ | hold)
    · exact hmiss (hadm.dependencies d hd)
    · exact hadm.fresh hold

/-- After a create the group is what it starts with, merged with what the tips it does not depend on
know. -/
theorem lookup_currentState_of_create (h : Consistent y) (h' : Consistent y') (hy : y.Unconditional)
    (hext : IsExtension y y' o) (hactn : o.action = .create initialMembers)
    (hinit : ∀ p ∈ initialMembers, p.2.Unconditional) {E : Runtime ID OP}
    {rest after : GroupStates ID C}
    (hrest : y.mergeStates E (y.headsGlobal \ o.dependencies.toFinset) = .ok rest)
    (hjoin : IsJoin y'.stateOf y'.headsGlobal after) :
    after.lookup o.groupId =
      (mergeGroup E rest (o.groupId, y.freshMembers o initialMembers)).lookup o.groupId := by
  have hcrt : o.action.isCreate = true := GroupAction.isCreate_iff.mpr ⟨_, hactn⟩
  have hy' : y'.Unconditional := by
    intro x ox hx
    rcases hext.has.mp hx with ⟨-, rfl⟩ | hold
    · rw [hactn]
      exact hinit
    · exact hy hold
  have hyG : y'.UnconditionalIn o.groupId := hy'.on _
  have hgrp : y.UnconditionalIn o.groupId := hy.on _
  have hfresh : (y.freshMembers o initialMembers).Unconditional := unconditional_freshMembers hinit
  have hjoinRest := isJoin_of_mergeStates hrest
  have hnode : ∀ d ∈ y.headsGlobal \ o.dependencies.toFinset, d ∈ y.graph.nodes := fun d hd =>
    (DiGraphMap.mem_externals.mp (Finset.mem_sdiff.mp hd).1).1
  have hrestU : ∀ d ∈ y.headsGlobal \ o.dependencies.toFinset, (y.stateOf d).UnconditionalIn
      o.groupId := fun d hd => h.grantsOnly_stateOf hgrp.grantsOnly (hnode d hd)
  apply lookup_eq_of_ranks (h'.toResolved.grantsOnly_currentState hyG.grantsOnly hjoin)
    (unconditional_mergeGroup (hjoinRest.grantsOnly hrestU) hfresh)
  rw [ranks_mergeGroup hfresh, hjoinRest.ranks hrestU,
    hext.ranks_currentState h'.toResolved hyG (fun x hx => ?_) hjoin, sup_comm]
  · rw [ranks, hext.lookup_of_create h'.toResolved hactn, Option.elim_some]
  · rw [ranks, ranks]
    rw [lookup_stateOf_eq h.toResolved h'.toResolved hext.has_old
      (mergesAlike_of_unconditional h.toResolved h'.toResolved hyG hext.has_old)
      (fun hx _ => ⟨(hext.rules_of_create hcrt hx).1,
        fun _ => (hext.rules_of_create hcrt hx).2⟩) hx]

/-- A create leaves its group alone exactly if it is rejected, or adds nothing to what the other
tips know. -/
theorem unchanged_create_iff (h : Run ops y) (hy : y.Unconditional)
    (haction : o.action = .create initialMembers)
    (hinitial : ∀ p ∈ initialMembers, p.2.Unconditional) (E E₁ E₂ : Runtime ID OP) :
    Unchanged E E₁ E₂ y o ↔
      (∃ d ∈ o.dependencies, d ∉ y.graph.nodes) ∨ o.id ∈ y.graph.nodes ∨
      ∃ rest before, y.mergeStates E₁ (y.headsGlobal \ o.dependencies.toFinset) = .ok rest ∧
        y.currentState E₁ = (.ok before : Outcome Empty _) ∧
        (mergeGroup E₁ rest (o.groupId, y.freshMembers o initialMembers)).lookup o.groupId =
          before.lookup o.groupId := by
  have hc := h.consistent
  obtain ⟨before, hbef, -⟩ := hc.currentState (ε := Empty) E₁
  obtain ⟨rest, hrest, -⟩ := hc.mergeStates E₁
    fun d (hd : d ∈ y.headsGlobal \ o.dependencies.toFinset) =>
      (DiGraphMap.mem_externals.mp (Finset.mem_sdiff.mp hd).1).1
  rw [← or_assoc]
  rcases process_create hc E haction with ⟨hrejected, herror⟩ | ⟨hacc, y', hok, hext, hc'⟩
  · exact iff_of_true (Or.inl herror) (Or.inl hrejected)
  · obtain ⟨after, hafter, hjoin⟩ := hc'.currentState E₂
    have hlook := lookup_currentState_of_create hc hc' hy hext haction hinitial hrest hjoin
    simp only [Unchanged, hok, hbef, hrest, or_iff_right hacc, Outcome.ok.injEq,
      reduceCtorEq, exists_false, false_or]
    constructor
    · rintro ⟨_, _, after', rfl, rfl, hafter', heq⟩
      cases hafter.symm.trans hafter'
      exact ⟨rest, before, rfl, rfl, hlook.symm.trans heq⟩
    · rintro ⟨_, _, rfl, rfl, heq⟩
      exact ⟨y', before, after, rfl, rfl, hafter, hlook.trans heq⟩

def singleManager : List (Operation Nat Nat Unit) := [⟨0, 1, [], 9, createManagers [1]⟩]

/-- Creating the group once more, with the member it has. -/
theorem unchanged_singleManager : ∃ y, Run singleManager y ∧
    Unchanged .reference .reference .reference y ⟨1, 1, [], 9, createManagers [1]⟩ := by
  obtain ⟨y, h, rest, hrest, before, hbef, heq⟩ := Run.of_returns
    (p := fun y => (y.mergeStates .reference (y.headsGlobal \ ∅)).Returns fun rest =>
      (y.currentState .reference : Outcome Empty _).Returns fun before =>
        (mergeGroup .reference rest (9, create [(.individual 1, .manage)])).lookup 9 =
          before.lookup 9)
    .reference singleManager (by decide +kernel)
  refine ⟨y, h, (unchanged_create_iff h (h.unconditional (by decide)) rfl (by decide) _ _ _).mpr
    (Or.inr (Or.inr ⟨rest, before, hrest, hbef, ?_⟩))⟩
  rw [freshMembers, if_neg]
  · exact heq
  · rintro ⟨r, ro, hr, -, removed, hrmd, -⟩
    obtain ⟨hmem, -⟩ := h.has_iff.mp hr
    rw [List.mem_singleton.mp hmem] at hrmd
    simp [Operation.removedOrDemotedManager, createManagers] at hrmd

/-- A stranger creates the group once more, as its manager. -/
theorem not_unchanged_singleManager : ∃ y, Run singleManager y ∧
    (y.currentState .reference : Outcome Empty _).Returns (fun states => (states.lookup 9).isSome) ∧
    ¬Unchanged .reference .reference .reference y ⟨1, 2, [], 9, createManagers [2]⟩ := by
  obtain ⟨y, h, hknown, y', hok, before, hbef, after, hafter, hne⟩ := Run.of_returns (p := fun y =>
      (y.currentState .reference : Outcome Empty _).Returns
        (fun states => (states.lookup 9).isSome) ∧
      (process .reference y ⟨1, 2, [], 9, createManagers [2]⟩).Returns fun y' =>
        (y.currentState .reference : Outcome Empty _).Returns fun before =>
          (y'.currentState .reference : Outcome Empty _).Returns fun after =>
            after.lookup 9 ≠ before.lookup 9)
    .reference singleManager (by decide +kernel)
  refine ⟨y, h, hknown, ?_⟩
  rintro (⟨e, herror⟩ | ⟨y'', before', after', hok', hbefore', hafter', heq⟩)
  · cases hok.symm.trans herror
  · cases hok.symm.trans hok'
    cases hbef.symm.trans hbefore'
    cases hafter.symm.trans hafter'
    exact hne heq

end GroupCrdt

end P2Panda.Auth.Group
