import P2Panda.Auth.Group.NestedGroups

/-!
# What decides whether an operation is accepted

An operation is judged by the group state at its dependencies, with two exceptions: the nesting of
groups is checked in the current state, and when the group was not created in the operation's past,
the call panics.
-/

namespace P2Panda.Auth.Group.GroupCrdt

open P2Panda.Library GroupCrdtInnerState Outcome

variable {ID OP C : Type} [DecidableEq ID] [DecidableEq OP] [Conditions C]
variable {ops : List (Operation ID OP C)} {y : GroupCrdtInnerState ID OP C}

omit [DecidableEq ID] [Conditions C] in
def Created (y : GroupCrdtInnerState ID OP C) (groupId : ID) : Prop :=
  ∃ c oc, y.Has c oc ∧ oc.action.isCreate = true ∧ oc.groupId = groupId

/-- The call ends with `Ok` or `Err`: `UnknownGroup` for a change of an unknown group. -/
def Total (E : Runtime ID OP) (y : GroupCrdtInnerState ID OP C) (o : Operation ID OP C) : Prop :=
  ¬(process E y o).IsPanic ∧
    (o.action.isCreate = false → ¬Created y o.groupId →
      process E y o = .err (.unknownGroup o.groupId))

/-- A call is total on a create, and on an operation of a known group that fails an earlier check or
has the group's creation in its past. -/
theorem total_iff (h : Run ops y) (E : Runtime ID OP) (o : Operation ID OP C) :
    Total E y o ↔ o.action.isCreate = true ∨ Created y o.groupId ∧
      (¬Admissible E y o ∨ y.CreatedBefore o.dependencies.toFinset o.groupId) := by
  have hprocg := processing h.consistent E o
  cases hcrt : o.action.isCreate with
  | true =>
    refine iff_of_true ⟨?_, fun hnot => by simp [hcrt] at hnot⟩ (Or.inl rfl)
    generalize process E y o = result at hprocg
    cases hprocg with
    | absent _ hnot => simp [hcrt] at hnot
    | _ => simp
  | false =>
  have hknown : ∀ {heads}, y.CreatedBefore heads o.groupId → Created y o.groupId :=
    fun ⟨c, oc, hc, hcrtd, hgrp, _⟩ => ⟨c, oc, hc, hcrtd, hgrp⟩
  rw [Total, hcrt]
  generalize process E y o = result at hprocg
  cases hprocg with
  | absent hadm _ habs =>
    simp [hadm, habs]
  | accepted hadm _ hcrtd =>
    have hbef := hcrtd.resolve_left (by simp [hcrt])
    simp [hbef, hknown hbef]
  | invalid hadm _ hcrtd =>
    have hbef := hcrtd.resolve_left (by simp [hcrt])
    simp [hbef, hknown hbef]
  | missing hd hmiss =>
    have hnot : ¬Admissible E y o := fun hadm => hmiss (hadm.dependencies _ hd)
    simp [hnot]
  | duplicate _ hold =>
    have hnot : ¬Admissible E y o := fun hadm => hadm.fresh hold
    simp [hnot]
  | managerGroup _ _ hmgr =>
    have hnot : ¬Admissible E y o := fun hadm => by
      simp [hadm.managerGroup] at hmgr
    simp [hnot]
  | cycle _ _ _ _ hcyc =>
    have hnot : ¬Admissible E y o := fun hadm => by
      simp [hadm.cycle] at hcyc
    simp [hnot]

/-- The group was created two operations ago. -/
theorem total_add : ∃ y,
    Run [⟨0, 1, [], 9, createManagers [1]⟩, ⟨1, 1, [0], 9, .add (.individual 2) .read⟩] y ∧
      Total .reference (y : GroupCrdtInnerState Nat Nat Unit)
        ⟨2, 1, [1], 9, .add (.individual 3) .read⟩ := by
  obtain ⟨y, h, hedge⟩ := Run.of_returns (p := fun y => (0, 1) ∈ y.graph.edges) .reference
    [⟨0, 1, [], 9, createManagers [1]⟩, ⟨1, 1, [0], 9, .add (.individual 2) .read⟩]
    (by decide +kernel)
  have hadj : y.graph.Adj 0 1 := hedge
  have hcreate : y.Has 0 ⟨0, 1, [], 9, createManagers [1]⟩ := h.has_iff.mpr ⟨.head _, rfl⟩
  refine ⟨y, h, (total_iff h .reference _).mpr (.inr ⟨⟨0, _, hcreate, rfl, rfl⟩, .inr ?_⟩)⟩
  exact ⟨0, _, hcreate, rfl, rfl, 1, Finset.mem_singleton_self 1, hadj.reaches⟩

/-- An add to a group that nobody created panics, and so does an add that leaves the creation out of
its dependencies. -/
theorem not_total_without_create :
    (Run [] (init : GroupCrdtInnerState Nat Nat Unit) ∧
      ¬Total .reference (init : GroupCrdtInnerState Nat Nat Unit)
        ⟨0, 1, [], 9, .add (.individual 2) .read⟩) ∧
    ∃ y, Run [⟨0, 1, [], 9, createManagers [1]⟩] y ∧
      ¬Total .reference (y : GroupCrdtInnerState Nat Nat Unit)
        ⟨1, 1, [], 9, .add (.individual 2) .read⟩ := by
  refine ⟨⟨.init, fun htotal => htotal.1 (by decide +kernel)⟩, ?_⟩
  obtain ⟨y, h, hpan⟩ := Run.of_returns
    (p := fun y => (process .reference y ⟨1, 1, [], 9, .add (.individual 2) .read⟩).IsPanic)
    .reference [⟨0, 1, [], 9, createManagers [1]⟩] (by decide +kernel)
  exact ⟨y, h, fun htotal => htotal.1 hpan⟩

/-- The rules admit the operation on top of its dependencies, rebuilt alone. -/
def ValidAt (E : Runtime ID OP) (y : GroupCrdtInnerState ID OP C) (o : Operation ID OP C) : Prop :=
  managerGroup? o.action = none ∧ ∃ inner states,
    rebuildAt E y o.dependencies.toFinset = .ok inner ∧
    inner.currentState E = (.ok states : Outcome (GroupCrdtError ID OP) _) ∧
    (o.action.isCreate = true ∨ (states.lookup o.groupId).isSome) ∧
    ∃ members, changeMembers (membersBefore states o) o.author o.action = .ok members

variable {o : Operation ID OP C} {E : Runtime ID OP}

theorem process_isOk_iff (h : Consistent y) : (process E y o).IsOk ↔
    Admissible E y o ∧
    (o.action.isCreate = true ∨ y.CreatedBefore o.dependencies.toFinset o.groupId) ∧
    ∃ states ignore members, stateBefore E y o = .ok (states, ignore) ∧
      changeMembers (membersBefore states o) o.author o.action = .ok members := by
  constructor
  · rintro ⟨y', hok⟩
    have hprocg := processing h E o
    rw [hok] at hprocg
    cases hprocg with
    | accepted hadm hbef hcrtd hchg =>
      exact ⟨hadm, hcrtd, _, _, _, hbef, hchg⟩
  · rintro ⟨hadm, hcrtd, states, ignore, members, hbef, hchg⟩
    have hprocg := processing h E o
    generalize process E y o = result at hprocg
    cases hprocg with
    | accepted => simp
    | missing hd hmiss => exact absurd (hadm.dependencies _ hd) hmiss
    | duplicate _ hold => exact absurd hold hadm.fresh
    | managerGroup _ _ hmgr => simp [hadm.managerGroup] at hmgr
    | cycle _ _ _ _ hcyc => simp [hadm.cycle] at hcyc
    | absent _ hnot habs =>
      exact absurd (hcrtd.resolve_left (by simp [hnot])) habs
    | invalid _ hbefore' _ herror =>
      cases hbef.symm.trans hbefore'
      cases hchg.symm.trans herror

/-- The states before an operation have its group as rebuilt at its dependencies. -/
theorem membersBefore_eq (h : y.Resolved) (hy : y.Unconditional) (honce : y.CreatedOnce)
    {inner : GroupCrdtInnerState ID OP C} {states rebuilt : GroupStates ID C} {ignore : Finset OP}
    (hbef : stateBefore E y o = .ok (states, ignore))
    (hinn : rebuildAt E y o.dependencies.toFinset = .ok inner)
    (hrebuilt : inner.currentState E = (.ok rebuilt : Outcome (GroupCrdtError ID OP) _)) :
    states.lookup o.groupId = rebuilt.lookup o.groupId := by
  obtain ⟨tips, htips, habove⟩ := h.heads_spec (ε := GroupCrdtError ID OP) E o.requiredGroups
  by_cases hreb : tips ≠ o.dependencies.toFinset
  · simp only [stateBefore, htips, ok_bind, if_pos hreb, hinn, hrebuilt,
      pure_eq, ok.injEq, Prod.mk.injEq] at hbef
    rw [hbef.1]
  · obtain ⟨inner', hinner', hsame, hresd⟩ := rebuildAt_spec h.history E o.dependencies.toFinset
    cases hinn.symm.trans hinner'
    obtain ⟨rebuilt', hrebuilt', hjoin'⟩ := hresd.currentState E
    cases hrebuilt.symm.trans hrebuilt'
    obtain ⟨states', hstates', hjoin⟩ := h.currentState (ε := GroupCrdtError ID OP) E
    simp only [stateBefore, htips, ok_bind, if_neg hreb, hstates', pure_eq,
      ok.injEq, Prod.mk.injEq] at hbef
    rw [← hbef.1]
    rw [not_not] at hreb
    refine lookup_currentState_of_subset h hresd (honce.on _) (hy.on _) (fun hx => ?_)
      (fun hx hgrp => ?_) hjoin hjoin'
    · rw [hsame.has] at hx
      exact (has_trimmed.mp hx).1
    · rw [hsame.has]
      refine has_trimmed.mpr ⟨hx, hreb ▸ habove hx ?_⟩
      rw [hgrp]
      exact o.groupId_mem_requiredGroups

/-- An operation is accepted if it is valid on top of its dependencies and closes no cycle of
groups. -/
theorem process_isOk_iff_validAt (h : Consistent y) (hy : y.Unconditional) (honce : y.CreatedOnce)
    (hdeps : ∀ d ∈ o.dependencies, d ∈ y.graph.nodes) (hfresh : o.id ∉ y.graph.nodes) :
    (process E y o).IsOk ↔ ValidAt E y o ∧
      y.wouldCreateCycle E o = (.ok false : Outcome (GroupCrdtError ID OP) Bool) := by
  obtain ⟨inner, hinn, -, hresd⟩ := rebuildAt_spec h.history E o.dependencies.toFinset
  obtain ⟨rebuilt, hrebuilt, -⟩ := hresd.currentState E
  obtain ⟨states, ignore, hbef, -, hpres⟩ := stateBefore_spec h.toResolved E o
  have hlook := membersBefore_eq h.toResolved hy honce hbef hinn hrebuilt
  have hmbrs : membersBefore states o = membersBefore rebuilt o := by
    rw [membersBefore, membersBefore, hlook]
  rw [process_isOk_iff h]
  constructor
  · rintro ⟨hadm, hcrtd, states', ignore', members, hbefore', hchg⟩
    cases hbef.symm.trans hbefore'
    refine ⟨⟨hadm.managerGroup, inner, rebuilt, hinn, hrebuilt, ?_, members, ?_⟩, hadm.cycle⟩
    · rw [← hlook, hpres]
      exact hcrtd
    · rw [← hmbrs]
      exact hchg
  · rintro ⟨⟨hmgr, inner', rebuilt', hinner', hrebuilt', hcrtd, members, hchg⟩, hcyc⟩
    cases hinn.symm.trans hinner'
    cases hrebuilt.symm.trans hrebuilt'
    refine ⟨⟨hdeps, hfresh, hmgr, hcyc⟩, ?_, states, ignore, members, hbef, ?_⟩
    · rw [← hpres, hlook]
      exact hcrtd
    · rw [hmbrs]
      exact hchg

variable {ops' : List (Operation ID OP C)} {y' : GroupCrdtInnerState ID OP C}
variable {E' : Runtime ID OP}

omit [Conditions C] in
theorem has_trimmed_congr (h : y.History) (h' : y'.History) {heads : Finset OP}
    (hhds : ∀ d ∈ heads, d ∈ y.graph.nodes)
    (hpast : ∀ {x ox}, y.InPast heads x → y.Has x ox → y'.Has x ox) {x : OP}
    {ox : Operation ID OP C} :
    (y.trimmed E heads).Has x ox ↔ (y'.trimmed E' heads).Has x ox := by
  have htrimmed := h.trimmed E heads
  have hhas : ∀ {x ox}, (y.trimmed E heads).Has x ox → y'.Has x ox := fun hx =>
    hpast (has_trimmed.mp hx).2 (has_trimmed.mp hx).1
  have hmem : ∀ d ∈ heads, d ∈ (y.trimmed E heads).graph.nodes := fun d hd =>
    mem_trimmedGraph.mpr ⟨hhds d hd, d, hd, DiGraphMap.Reaches.refl _ d⟩
  rw [has_trimmed (y := y')]
  constructor
  · intro hx
    obtain ⟨d, hd, hrch⟩ := (has_trimmed.mp hx).2
    refine ⟨hhas hx, d, hd, (reaches_iff_of_subset htrimmed h' hhas (hmem d hd)).mp ?_⟩
    exact (reaches_trimmedGraph ⟨d, hd, DiGraphMap.Reaches.refl _ d⟩).mpr hrch
  · rintro ⟨hx, d, hd, hrch⟩
    have hnode := ((reaches_iff_of_subset htrimmed h' hhas (hmem d hd)).mpr hrch).left_mem
      (hmem d hd)
    obtain ⟨ox', hox'⟩ := htrimmed.known hnode
    rwa [hx.unique (hhas hox')]

theorem validAt_congr (h : Consistent y) (h' : Consistent y') (hy : y.Unconditional)
    (hdeps : ∀ d ∈ o.dependencies, d ∈ y.graph.nodes)
    (hpast : ∀ {x ox}, y.InPast o.dependencies.toFinset x → y.Has x ox → y'.Has x ox) :
    ValidAt E y o ↔ ValidAt E' y' o := by
  obtain ⟨inner, hinn, hsame, hresd⟩ := rebuildAt_spec h.history E o.dependencies.toFinset
  obtain ⟨inner', hinner', hsame', hresolved'⟩ :=
    rebuildAt_spec h'.history E' o.dependencies.toFinset
  obtain ⟨states, hsts, hjoin⟩ := hresd.currentState E
  obtain ⟨states', hstates', hjoin'⟩ := hresolved'.currentState E'
  have hhas : ∀ {x ox}, inner.Has x ox ↔ inner'.Has x ox := by
    rw [hsame.has, hsame'.has]
    exact has_trimmed_congr h.history h'.history
      (fun d hd => hdeps d (List.mem_toFinset.mp hd)) hpast
  have heq := currentState_eq hresd hresolved' (fun hx => ?_) hhas hjoin hjoin'
  swap
  · rw [hsame.has] at hx
    exact hy (has_trimmed.mp hx).1
  subst heq
  simp only [ValidAt, hinn, hinner', ok.injEq]
  constructor
  · rintro ⟨hmgr, _, _, rfl, hcur, hrest⟩
    cases hsts.symm.trans hcur
    exact ⟨hmgr, inner', states, rfl, hstates', hrest⟩
  · rintro ⟨hmgr, _, _, rfl, hcur, hrest⟩
    cases hstates'.symm.trans hcur
    exact ⟨hmgr, inner, states, rfl, hsts, hrest⟩

/-- Two replicas that know an operation's past agree on it, unless it is valid there and the nesting
of groups differs in their current states. -/
theorem acceptance_agrees_iff (h : Run ops y) (h' : Run ops' y') (hy : y.Unconditional)
    (hy' : y'.Unconditional) (honce : y.CreatedOnce) (honce' : y'.CreatedOnce)
    (hdeps : ∀ d ∈ o.dependencies, d ∈ y.graph.nodes ∧ d ∈ y'.graph.nodes)
    (hpast : ∀ {x ox}, y.InPast o.dependencies.toFinset x → y.Has x ox → y'.Has x ox)
    (hfresh : o.id ∉ y.graph.nodes) (hfresh' : o.id ∉ y'.graph.nodes) (E E' : Runtime ID OP) :
    ((process E y o).IsOk ↔ (process E' y' o).IsOk) ↔
      (¬ValidAt E y o ∨ y.wouldCreateCycle E o =
        (y'.wouldCreateCycle E' o : Outcome (GroupCrdtError ID OP) Bool)) := by
  have hc := h.consistent
  have hc' := h'.consistent
  obtain ⟨closes, hcloses⟩ := wouldCreateCycle_ok hc.toResolved E o
  obtain ⟨closes', hcloses'⟩ := wouldCreateCycle_ok hc'.toResolved E' o
  rw [process_isOk_iff_validAt hc hy honce (fun d hd => (hdeps d hd).1) hfresh,
    process_isOk_iff_validAt hc' hy' honce' (fun d hd => (hdeps d hd).2) hfresh',
    ← validAt_congr (E := E) hc hc' hy (fun d hd => (hdeps d hd).1) hpast, hcloses, hcloses']
  by_cases hvld : ValidAt E y o
  · cases closes <;> cases closes' <;> simp [hvld]
  · simp [hvld]

def twoGroups : List (Operation Nat Nat Unit) :=
  [⟨0, 1, [], 11, createManagers [1]⟩, ⟨1, 1, [], 12, createManagers [1]⟩]

def nestedGroups : List (Operation Nat Nat Unit) :=
  twoGroups ++ [⟨2, 1, [0, 1], 11, .add (.group 12) .read⟩]

theorem acceptance_agrees_nestedGroups : ∃ y y', Run twoGroups y ∧ Run nestedGroups y' ∧
    ((process .reference y ⟨3, 1, [0], 11, .add (.individual 5) .read⟩).IsOk ↔
      (process .reference y' ⟨3, 1, [0], 11, .add (.individual 5) .read⟩).IsOk) := by
  obtain ⟨y, h, hdep, hfresh⟩ := Run.of_returns
    (p := fun y => 0 ∈ y.graph.nodes ∧ 3 ∉ y.graph.nodes) .reference twoGroups (by decide +kernel)
  obtain ⟨y', h', hdep', hfresh'⟩ := Run.of_returns
    (p := fun y => 0 ∈ y.graph.nodes ∧ 3 ∉ y.graph.nodes) .reference nestedGroups
    (by decide +kernel)
  refine ⟨y, y', h, h', (acceptance_agrees_iff h h' (h.unconditional (by decide))
    (h'.unconditional (by decide)) (h.createdOnce (by decide)) (h'.createdOnce (by decide))
    (by simpa using ⟨hdep, hdep'⟩) (fun _ hx => ?_) hfresh hfresh' _ _).mpr (Or.inr rfl)⟩
  obtain ⟨hmem, hid⟩ := h.has_iff.mp hx
  exact h'.has_iff.mpr ⟨List.mem_append_left _ hmem, hid⟩

/-- Putting the first group into the second is rejected where the second was put into the first at
the same time. -/
theorem acceptance_differs_nestedGroups : ∃ y y', Run twoGroups y ∧ Run nestedGroups y' ∧
    (∀ d ∈ [0, 1], d ∈ y.graph.nodes ∧ d ∈ y'.graph.nodes) ∧
    (∀ x ox, y.InPast {0, 1} x → y.Has x ox → y'.Has x ox) ∧
    3 ∉ y.graph.nodes ∧ 3 ∉ y'.graph.nodes ∧
    ¬((process .reference y ⟨3, 1, [0, 1], 12, .add (.group 11) .read⟩).IsOk ↔
      (process .reference y' ⟨3, 1, [0, 1], 12, .add (.group 11) .read⟩).IsOk) := by
  obtain ⟨y, h, hdeps, hfresh, hok⟩ := Run.of_returns
    (p := fun y => (∀ d ∈ [0, 1], d ∈ y.graph.nodes) ∧ 3 ∉ y.graph.nodes ∧
      (process .reference y ⟨3, 1, [0, 1], 12, .add (.group 11) .read⟩).IsOk)
    .reference twoGroups (by decide +kernel)
  obtain ⟨y', h', hdeps', hfresh', hnot⟩ := Run.of_returns
    (p := fun y => (∀ d ∈ [0, 1], d ∈ y.graph.nodes) ∧ 3 ∉ y.graph.nodes ∧
      ¬(process .reference y ⟨3, 1, [0, 1], 12, .add (.group 11) .read⟩).IsOk)
    .reference nestedGroups (by decide +kernel)
  refine ⟨y, y', h, h', fun d hd => ⟨hdeps d hd, hdeps' d hd⟩, fun x ox _ hx => ?_, hfresh, hfresh',
    fun hiff => hnot (hiff.mp hok)⟩
  obtain ⟨hmem, hid⟩ := h.has_iff.mp hx
  exact h'.has_iff.mpr ⟨List.mem_append_left _ hmem, hid⟩

end P2Panda.Auth.Group.GroupCrdt
