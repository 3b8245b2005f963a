import P2Panda.Auth.Group.Convergence
import P2Panda.Auth.Group.MergeLaws

/-!
# Incremental processing and full resolution

An operation appended to the heads of its groups is applied to the merged states of its
dependencies. The result is that of resolving the whole graph, if access values can be merged in any
order.
-/

namespace P2Panda.Auth.Group

open P2Panda.Library

/-- The access values given to a member can be merged in any order. -/
def SettledGrants {ID OP C : Type} [Conditions C] (ops : List (Operation ID OP C)) : Prop :=
  ∀ k a b c, (∃ o ∈ ops, o.action.Grants k a) → (∃ o ∈ ops, o.action.Grants k b) →
    (∃ o ∈ ops, o.action.Grants k c) → a.Settled b ∧ a.Chained b c

theorem settledGrants_of_unconditional {ID OP C : Type} [Conditions C]
    {ops : List (Operation ID OP C)} (hops : ∀ o ∈ ops, o.action.Unconditional) :
    SettledGrants ops := by
  have hgrants {k : GroupMember ID} {access : Access C}
      (hk : ∃ o ∈ ops, o.action.Grants k access) : access.Unconditional := by
    obtain ⟨o, ho, hk⟩ := hk
    exact GroupAction.grantsOnly_iff.mp (hops o ho) k access hk
  intro k a b c ha hb _
  exact ⟨Access.settled_of_unconditional (hgrants ha) (hgrants hb),
    Access.chained_of_unconditional (hgrants ha) (hgrants hb)⟩

namespace GroupCrdtInnerState

variable {ID OP C : Type} [DecidableEq OP]
variable {y y' : GroupCrdtInnerState ID OP C}

def Granted (y : GroupCrdtInnerState ID OP C) (k : GroupMember ID) (access : Access C) : Prop :=
  ∃ x o, y.Has x o ∧ o.action.Grants k access

theorem grantsOnly_granted (y : GroupCrdtInnerState ID OP C) :
    y.GrantsOnly fun _ => y.Granted :=
  fun hx => GroupAction.grantsOnly_iff.mpr fun _ _ hk => ⟨_, _, hx, hk⟩

variable [DecidableEq ID] [Conditions C]

def Settled (y : GroupCrdtInnerState ID OP C) : Prop :=
  ∀ k a b c, y.Granted k a → y.Granted k b → y.Granted k c → a.Settled b ∧ a.Chained b c

theorem mergeableAt_of_settled (h : y.Resolved) (hy : y.Settled) {ids : Finset OP}
    (hids : ∀ d ∈ ids, d ∈ y.graph.nodes) : MergeableAt y ids := by
  intro d1 hd1 d2 hd2 d3 hd3 groupId a b c ha hb hc
  have hgrtd {d : OP} (hd : d ∈ ids) {group : GroupMembersState (GroupMember ID) C}
      (hgrp : (y.stateOf d).lookup groupId = some group) {k : GroupMember ID}
      {m : MemberState C} (hm : group.members.lookup k = some m) : y.Granted k m.access :=
    h.grantsOnly_stateOf (P := fun _ => y.Granted) y.grantsOnly_granted (hids d hd) groupId group
      hgrp k m hm
  constructor
  · intro k m1 m2 h1 h2 _
    have hset := hy k _ _ _ (hgrtd hd1 ha h1) (hgrtd hd2 hb h2) (hgrtd hd2 hb h2)
    exact hset.1
  · intro k m1 m2 m3 h1 h2 h3 _ _
    have hset := hy k _ _ _ (hgrtd hd1 ha h1) (hgrtd hd2 hb h2) (hgrtd hd3 hc h3)
    exact hset.2

/-- Two states with the same operations, whose access values can be merged in any order, are
resolved alike. -/
theorem lookup_states_eq (h : y.Resolved) (h' : y'.Resolved)
    (hhas : ∀ {x o}, y.Has x o ↔ y'.Has x o) (hy : y.Settled) {x : OP} (hx : x ∈ y.graph.nodes) :
    y.states.lookup x = y'.states.lookup x := by
  have hgr := graph_eq h.history h'.history hhas
  have hsame : y.Has = y'.Has := by
    funext x o
    exact propext hhas
  have hfilt : y.Filtered = y'.Filtered := by
    unfold Filtered
    rw [hsame, hgr]
  have hmut : y.Mutual = y'.Mutual := by
    unfold Mutual OnCycle Removes Delegates
    rw [hsame, hgr]
  induction x using h.history.acyclic.wellFounded.induction with
  | _ x ih =>
  obtain ⟨o, base, hhasx, ⟨E, hmrg⟩, -, hst⟩ := h.resolved x hx
  obtain ⟨o', base', hhasx', ⟨E', hmerged'⟩, -, hstate'⟩ := h'.resolved x (hhas.mp hhasx).1
  cases (hhas.mp hhasx).unique hhasx'
  have hdeps {d : OP} (hd : d ∈ o.dependencies.toFinset) : y.graph.Adj d x :=
    (h.history.adj_iff_dep hhasx).mpr hd
  -- the dependencies are resolved alike, so only the order of their merge can differ
  have hbase : base = base' := by
    have hcongr : y.mergeStates E' o.dependencies.toFinset =
        y'.mergeStates E' o.dependencies.toFinset :=
      mergeStates_congr fun d hd => ih d (hdeps hd).before (hdeps hd).left_mem
    have horder : y.mergeStates E o.dependencies.toFinset =
        y.mergeStates E' o.dependencies.toFinset :=
      mergeStates_eq_of_mergeableAt (fun d hd => h.stored (hdeps hd).left_mem)
        (mergeableAt_of_settled h hy fun d hd => (hdeps hd).left_mem)
    rw [hmrg, hcongr, hmerged'] at horder
    exact Outcome.ok.inj horder
  rw [hst, hstate', hbase, resolvedMembers, resolvedMembers, hfilt, hmut]

theorem currentState_eq_of_settled {ε : Type} (h : y.Resolved) (h' : y'.Resolved)
    (hhas : ∀ {x o}, y.Has x o ↔ y'.Has x o) (hy : y.Settled) (E E' : Runtime ID OP) :
    ∃ states, y.currentState E = (.ok states : Outcome ε _) ∧
      y'.currentState E' = (.ok states : Outcome ε _) := by
  obtain ⟨states, hsts, -⟩ := h.currentState E
  refine ⟨states, hsts, ?_⟩
  have hhds {d : OP} (hd : d ∈ y.headsGlobal) : d ∈ y.graph.nodes :=
    (DiGraphMap.mem_externals.mp hd).1
  have horder : y.mergeStates E y.headsGlobal = y.mergeStates E' y.headsGlobal :=
    mergeStates_eq_of_mergeableAt (fun d hd => h.stored (hhds hd))
      (mergeableAt_of_settled h hy fun d hd => hhds hd)
  have hcongr : y.mergeStates E' y.headsGlobal = y'.mergeStates E' y.headsGlobal :=
    mergeStates_congr fun d hd => lookup_states_eq h h' hhas hy (hhds hd)
  have hglobal : y'.headsGlobal = y.headsGlobal := by
    rw [headsGlobal, headsGlobal, graph_eq h.history h'.history hhas]
  rw [← hsts, currentState, currentState, hglobal, horder, hcongr]

end GroupCrdtInnerState

namespace GroupCrdt

open GroupCrdtInnerState

variable {ID OP C ε : Type} [DecidableEq ID] [DecidableEq OP] [Conditions C]
variable {y y' : GroupCrdtInnerState ID OP C} {o : Operation ID OP C}
variable {ops : List (Operation ID OP C)} {E : Runtime ID OP}

theorem resolveAll_spec (h : Consistent y) (hok : process E y o = .ok y') (E' : Runtime ID OP) :
    ∃ full, StrongRemove.process E' (addOperation y o) = .ok full ∧ IsExtension y full o ∧
      Consistent full := by
  have hprocg := processing h E o
  rw [hok] at hprocg
  cases hprocg with
  | accepted hadm _ hcrtd _ _ _ =>
    obtain ⟨full, hattach, hext, hfull⟩ := attach_spec h hadm.fresh hadm.dependencies hcrtd
        (fun hfalse : true = false => absurd hfalse (by simp))
    exact ⟨full, Outcome.mapErr_eq_ok.mp hattach, hext, hfull⟩

theorem Run.settled (h : Run ops y) (hops : SettledGrants ops) : y.Settled := by
  have hgrtd {k : GroupMember ID} {access : Access C} (hk : y.Granted k access) :
      ∃ o ∈ ops, o.action.Grants k access := by
    obtain ⟨x, o, hx, hgrants⟩ := hk
    exact ⟨o, (h.has_iff.mp hx).1, hgrants⟩
  intro k a b c ha hb hc
  exact hops k a b c (hgrtd ha) (hgrtd hb) (hgrtd hc)

/-- When access values can be merged in any order, processing an operation, with or without a
rebuild, leads to the current state of resolving the whole graph. -/
theorem incremental_eq_full (h : Run ops y) (hok : process E y o = .ok y')
    (hsettled : SettledGrants (ops ++ [o])) (E₁ E₂ E₃ : Runtime ID OP) :
    ∃ full states, StrongRemove.process E₁ (addOperation y o) = .ok full ∧
      y'.currentState E₂ = (.ok states : Outcome ε _) ∧
      full.currentState E₃ = (.ok states : Outcome ε _) := by
  obtain ⟨full, hfull, hext, hcons⟩ := resolveAll_spec h.consistent hok E₁
  obtain ⟨hext', hconsistent', -⟩ := process_ok h.consistent hok
  have hhas : ∀ {x ox}, y'.Has x ox ↔ full.Has x ox := by
    intro x ox
    rw [hext'.has, hext.has]
  obtain ⟨states, hsts, hstates'⟩ := currentState_eq_of_settled
    hconsistent'.toResolved hcons.toResolved hhas ((h.step E hok).settled hsettled) E₂ E₃
  exact ⟨full, states, hfull, hsts, hstates'⟩

def addedTwice (a b : Access ExpiryTimestamp) : List (Operation Nat Nat ExpiryTimestamp) :=
  [⟨0, 1, [], 9, .create [(.individual 1, .manage), (.individual 3, .manage)]⟩,
    ⟨1, 1, [0], 9, .add (.individual 2) a⟩,
    ⟨2, 3, [0], 9, .add (.individual 2) b⟩]

def addedLater : Operation Nat Nat ExpiryTimestamp :=
  ⟨3, 1, [1, 2], 9, .add (.individual 4) .read⟩

def reversedRuntime : Runtime Nat Nat :=
  { Runtime.reference with ops := Runtime.reference.ops.reversed }

theorem incremental_eq_full_addedTwice :
    ∃ y y' full states, Run (addedTwice .read .write) y ∧
      process .reference y addedLater = .ok y' ∧
      StrongRemove.process reversedRuntime (addOperation y addedLater) = .ok full ∧
      y'.currentState .reference = (.ok states : Outcome Empty _) ∧
      full.currentState .reference = (.ok states : Outcome Empty _) := by
  obtain ⟨y, hrun, y', hok, -⟩ : ∃ y, Run (addedTwice .read .write) y ∧
      (process .reference y addedLater).Returns fun _ => True :=
    Run.of_returns .reference _ (by decide +kernel)
  have hset : SettledGrants (addedTwice .read .write ++ [addedLater]) :=
    settledGrants_of_unconditional (by decide)
  obtain ⟨full, states, hfull, hsts, hstates'⟩ :=
    incremental_eq_full hrun hok hset reversedRuntime .reference .reference
  exact ⟨y, y', full, states, hrun, hok, hfull, hsts, hstates'⟩

/-- Read access until some time and read access without an end: which of them stays is up to the
order of merging. -/
theorem incremental_ne_full :
    ∃ y, Run (addedTwice ⟨some ⟨10⟩, .read⟩ .read) y ∧
      (StrongRemove.rebuildRequired .reference y addedLater : Outcome Empty _).Returns (· = false) ∧
      (process .reference y addedLater).Returns fun y' =>
      (StrongRemove.process reversedRuntime (addOperation y addedLater)).Returns fun full =>
      y'.currentState .reference ≠ (full.currentState .reference : Outcome Empty _) :=
  Run.of_returns .reference _ (by decide +kernel)

end GroupCrdt

end P2Panda.Auth.Group
