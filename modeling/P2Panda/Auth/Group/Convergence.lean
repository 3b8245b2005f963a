import P2Panda.Auth.Group.Runs

/-!
# Convergence

The states at an operation are a function of its past and of what the rules say of it, so replicas
with the same operations agree.
-/

namespace P2Panda.Auth.Group

open P2Panda.Library DiGraphMap GroupStates

namespace GroupCrdtInnerState

variable {ID OP C : Type} [DecidableEq OP]

def GrantsOnly (P : ID → GroupMember ID → Access C → Prop) (y : GroupCrdtInnerState ID OP C) :
    Prop :=
  ∀ {x o}, y.Has x o → o.action.GrantsOnly (P o.groupId)

abbrev Unconditional (y : GroupCrdtInnerState ID OP C) : Prop :=
  y.GrantsOnly fun _ _ access => access.Unconditional

/-- No operation of the group gives an access with conditions. -/
def UnconditionalIn (y : GroupCrdtInnerState ID OP C) (groupId : ID) : Prop :=
  ∀ {x o}, y.Has x o → o.groupId = groupId → o.action.Unconditional

variable {y y' : GroupCrdtInnerState ID OP C} {groupId : ID}

theorem Unconditional.on (hy : y.Unconditional) (groupId : ID) : y.UnconditionalIn groupId :=
  fun hx _ => hy hx

theorem UnconditionalIn.grantsOnly (hy : y.UnconditionalIn groupId) :
    y.GrantsOnly fun id _ access => id = groupId → access.Unconditional :=
  fun hx => GroupAction.grantsOnly_iff.mpr fun k access hk hgrp =>
    GroupAction.grantsOnly_iff.mp (hy hx hgrp) k access hk

theorem reaches_iff_of_subset (h : y.History) (h' : y'.History)
    (hhas : ∀ {x o}, y.Has x o → y'.Has x o) {a b : OP} (hb : b ∈ y.graph.nodes) :
    y.graph.Reaches a b ↔ y'.graph.Reaches a b := by
  have hadj : ∀ {a b}, y.graph.Adj a b ↔ y'.graph.Adj a b ∧ b ∈ y.graph.nodes := by
    intro a b
    constructor
    · intro hab
      obtain ⟨o, ho⟩ := h.known hab.right_mem
      exact ⟨(h'.adj (hhas ho)).mpr ((h.adj ho).mp hab), hab.right_mem⟩
    · rintro ⟨hab, hmem⟩
      obtain ⟨o, ho⟩ := h.known hmem
      exact (h.adj ho).mpr ((h'.adj (hhas ho)).mp hab)
  exact reaches_iff_of_downClosed hadj (fun hab hmem => (hadj.mpr ⟨hab, hmem⟩).left_mem) hb

theorem before_iff_of_subset (h : y.History) (h' : y'.History)
    (hhas : ∀ {x o}, y.Has x o → y'.Has x o) {a b : OP} (hb : b ∈ y.graph.nodes) :
    y.graph.Before a b ↔ y'.graph.Before a b := by
  rw [h.acyclic.before_iff, h'.acyclic.before_iff, reaches_iff_of_subset h h' hhas hb]

theorem agreeOn_of_subset (h : y.History) (h' : y'.History) (hhas : ∀ {x o}, y.Has x o → y'.Has x o)
    (hgrp : ∀ {x o}, y'.Has x o → o.groupId = groupId → y.Has x o) : AgreeOn groupId y y' where
  has hg := ⟨hhas, fun hx => hgrp hx hg⟩
  before _ _ hb _ := before_iff_of_subset h h' hhas hb.1

variable [DecidableEq ID] [Conditions C] {P : ID → GroupMember ID → Access C → Prop} {x : OP}

theorem Resolved.grantsOnly_stateOf (h : y.Resolved) (hy : y.GrantsOnly P)
    (hx : x ∈ y.graph.nodes) :
    (y.stateOf x).GrantsOnly P := by
  induction x using h.history.acyclic.wellFounded.induction with
  | _ x ih =>
  obtain ⟨o, base, hhas, ⟨E, hmrg⟩, -, hst⟩ := h.resolved x hx
  have hbase : base.GrantsOnly P := (isJoin_of_mergeStates hmrg).grantsOnly fun d hd => by
    have hadj := (h.history.adj_iff_dep hhas).mpr hd
    exact ih d hadj.before hadj.left_mem
  rw [stateOf_eq hst]
  intro g members hmbrs
  rw [HashMap.lookup_insert_ite] at hmbrs
  split_ifs at hmbrs with hg
  · cases hmbrs
    subst hg
    exact grantsOnly_resolveMembers (hy hhas) fun s hs => hbase _ s hs
  · exact hbase g members hmbrs

theorem Resolved.grantsOnly_currentState (h : y.Resolved) (hy : y.GrantsOnly P)
    {states : GroupStates ID C} (hjoin : IsJoin y.stateOf y.headsGlobal states) :
    states.GrantsOnly P :=
  hjoin.grantsOnly fun _ hd => h.grantsOnly_stateOf hy (mem_externals.mp hd).1

theorem ResolvedFrom.ranks_base (h : y.Resolved) (hy : y.UnconditionalIn groupId)
    {o : Operation ID OP C} {base : GroupStates ID C} (hx : y.Has x o)
    (hfrom : y.ResolvedFrom x o base) :
    base.ranks groupId = o.dependencies.toFinset.sup fun d => (y.stateOf d).ranks groupId := by
  obtain ⟨E, hmrg⟩ := hfrom.merged
  exact (isJoin_of_mergeStates hmrg).ranks fun d hd => h.grantsOnly_stateOf hy.grantsOnly
    ((h.history.adj_iff_dep hx).mpr hd).left_mem

/-- The dependencies of an operation are merged to the same group in both states, if they are the
same. -/
def MergesAlike (y y' : GroupCrdtInnerState ID OP C) (groupId : ID) : Prop :=
  ∀ {x o E E' base base'}, y.Has x o → y.mergeStates E o.dependencies.toFinset = .ok base →
    y'.mergeStates E' o.dependencies.toFinset = .ok base' →
    (∀ d ∈ o.dependencies, (y.stateOf d).lookup groupId = (y'.stateOf d).lookup groupId) →
    base.lookup groupId = base'.lookup groupId

/-- If all operations of `y` are in `y'`, and the rules say the same of those of the group, the
group's states are the same. -/
theorem lookup_stateOf_eq (h : y.Resolved) (h' : y'.Resolved)
    (hhas : ∀ {x o}, y.Has x o → y'.Has x o) (hmerge : MergesAlike y y' groupId)
    (hrules : ∀ {x o}, y.Has x o → o.groupId = groupId →
      (y.Mutual x ↔ y'.Mutual x) ∧ (¬y.Mutual x → (y.Filtered x ↔ y'.Filtered x)))
    (hx : x ∈ y.graph.nodes) :
    (y.stateOf x).lookup groupId = (y'.stateOf x).lookup groupId := by
  induction x using h.history.acyclic.wellFounded.induction with
  | _ x ih =>
  obtain ⟨o, base, hhasx, ⟨E, hmrg⟩, -, hst⟩ := h.resolved x hx
  have hhasx' := hhas hhasx
  obtain ⟨o', base', ho', ⟨E', hmerged'⟩, -, hstate'⟩ := h'.resolved x hhasx'.1
  cases hhasx'.unique ho'
  have hbase : base.lookup groupId = base'.lookup groupId := by
    refine hmerge hhasx hmrg hmerged' fun d hd => ?_
    have hadj := (h.history.adj hhasx).mpr hd
    exact ih d hadj.before hadj.left_mem
  rw [stateOf_eq hst, stateOf_eq hstate', HashMap.lookup_insert_ite, HashMap.lookup_insert_ite]
  split_ifs with hgrp
  · obtain ⟨hmut, hfilt⟩ := hrules hhasx hgrp.symm
    rw [← hgrp, hbase, resolvedMembers_congr hmut hfilt]
  · exact hbase

theorem mergesAlike_of_unconditional (h : y.Resolved) (h' : y'.Resolved)
    (hy' : y'.UnconditionalIn groupId) (hhas : ∀ {x o}, y.Has x o → y'.Has x o) :
    MergesAlike y y' groupId := by
  intro x o E E' base base' hx hmrg hmerged' hdeps
  have hy : y.UnconditionalIn groupId := fun hx => hy' (hhas hx)
  refine (isJoin_of_mergeStates hmrg).lookup_eq (isJoin_of_mergeStates hmerged')
    (fun d hd => ?_) (fun d hd => ?_) (Finset.sup_congr rfl fun d hd => ?_)
  · exact h.grantsOnly_stateOf hy.grantsOnly ((h.history.adj_iff_dep hx).mpr hd).left_mem
  · exact h'.grantsOnly_stateOf hy'.grantsOnly
      ((h'.history.adj_iff_dep (hhas hx)).mpr hd).left_mem
  · rw [ranks, ranks, hdeps d (List.mem_toFinset.mp hd)]

/-- If all operations of `y` are in `y'`, and no others of the group, the group's states are the
same. -/
theorem AgreeOn.lookup_stateOf_eq (hagree : AgreeOn groupId y y') (h : y.Resolved)
    (h' : y'.Resolved) (hy' : y'.UnconditionalIn groupId)
    (hhas : ∀ {x o}, y.Has x o → y'.Has x o)
    (hx : x ∈ y.graph.nodes) : (y.stateOf x).lookup groupId = (y'.stateOf x).lookup groupId := by
  refine GroupCrdtInnerState.lookup_stateOf_eq h h' hhas
    (mergesAlike_of_unconditional h h' hy' hhas) (fun hx hgrp => ?_) hx
  exact ⟨hagree.mutual_iff hx hgrp, fun _ => hagree.filtered_iff hx hgrp⟩

omit [DecidableEq ID] [Conditions C] in
theorem graph_eq (h : y.History) (h' : y'.History) (hhas : ∀ {x o}, y.Has x o ↔ y'.Has x o) :
    y.graph = y'.graph := by
  have hnode : ∀ x, x ∈ y.graph.nodes ↔ x ∈ y'.graph.nodes := by
    intro x
    constructor
    · intro hx
      obtain ⟨o, ho⟩ := h.known hx
      exact (hhas.mp ho).1
    · intro hx
      obtain ⟨o, ho⟩ := h'.known hx
      exact (hhas.mpr ho).1
  apply ext' (Finset.ext hnode)
  intro a b
  by_cases hb : b ∈ y.graph.nodes
  · obtain ⟨o, ho⟩ := h.known hb
    rw [h.adj ho, h'.adj (hhas.mp ho)]
  · exact iff_of_false (fun hadj => hb hadj.right_mem) fun hadj => hb ((hnode b).mpr hadj.right_mem)

/-- States with the same operations have the same current state of a group, however the tips are
merged. -/
theorem lookup_currentState_eq (h : y.Resolved) (h' : y'.Resolved) (hy : y.UnconditionalIn groupId)
    (hhas : ∀ {x o}, y.Has x o ↔ y'.Has x o) {states states' : GroupStates ID C}
    (hjoin : IsJoin y.stateOf y.headsGlobal states)
    (hjoin' : IsJoin y'.stateOf y'.headsGlobal states') :
    states.lookup groupId = states'.lookup groupId := by
  have hy' : y'.UnconditionalIn groupId := fun hx => hy (hhas.mpr hx)
  have hgr := graph_eq h.history h'.history hhas
  rw [headsGlobal, ← hgr] at hjoin'
  have hagree : AgreeOn groupId y y' := ⟨fun _ => hhas, fun _ _ _ _ => by rw [hgr]⟩
  refine hjoin.lookup_eq hjoin' (fun d hd => ?_) (fun d hd => ?_)
    (Finset.sup_congr rfl fun d hd => ?_)
  · exact h.grantsOnly_stateOf hy.grantsOnly (mem_externals.mp hd).1
  · exact h'.grantsOnly_stateOf hy'.grantsOnly (hgr ▸ (mem_externals.mp hd).1)
  · rw [ranks, ranks, hagree.lookup_stateOf_eq h h' hy' hhas.mp (mem_externals.mp hd).1]

theorem currentState_eq (h : y.Resolved) (h' : y'.Resolved) (hy : y.Unconditional)
    (hhas : ∀ {x o}, y.Has x o ↔ y'.Has x o) {states states' : GroupStates ID C}
    (hjoin : IsJoin y.stateOf y.headsGlobal states)
    (hjoin' : IsJoin y'.stateOf y'.headsGlobal states') : states = states' :=
  Finmap.ext_lookup fun groupId =>
    lookup_currentState_eq h h' (hy.on groupId) hhas hjoin hjoin'

end GroupCrdtInnerState

namespace GroupCrdt

open GroupCrdtInnerState

variable {ID OP C ε : Type} [DecidableEq ID] [DecidableEq OP] [Conditions C]
variable {y y' : GroupCrdtInnerState ID OP C}

theorem Run.unconditional {ops : List (Operation ID OP C)} (h : Run ops y)
    (hops : ∀ o ∈ ops, o.action.Unconditional) : y.Unconditional :=
  fun hx => hops _ (h.has_iff.mp hx).1

theorem currentState_eq_of_same_operations {ops ops' : List (Operation ID OP C)}
    (h : Run ops y) (h' : Run ops' y') (hops : ∀ o, o ∈ ops ↔ o ∈ ops')
    (hconditions : ∀ o ∈ ops, o.action.Unconditional) (E E' : Runtime ID OP) :
    ∃ states, y.currentState E = (.ok states : Outcome ε _) ∧
      y'.currentState E' = (.ok states : Outcome ε _) := by
  obtain ⟨states, hsts, hjoin⟩ := h.consistent.currentState E
  obtain ⟨states', hstates', hjoin'⟩ := h'.consistent.currentState E'
  have heq : states = states' := by
    refine currentState_eq h.consistent.toResolved h'.consistent.toResolved
      (h.unconditional hconditions) (fun {x o} => ?_) hjoin hjoin'
    rw [h.has_iff, h'.has_iff, hops]
  exact ⟨states, hsts, heq ▸ hstates'⟩

def removalBesideAdd : List (Operation Nat Nat Unit) :=
  [⟨0, 1, [], 9, createManagers [1, 2]⟩, ⟨1, 1, [0], 9, .remove (.individual 2)⟩,
    ⟨2, 2, [0], 9, .add (.individual 3) .read⟩]

def addBesideRemoval : List (Operation Nat Nat Unit) :=
  [⟨0, 1, [], 9, createManagers [1, 2]⟩, ⟨2, 2, [0], 9, .add (.individual 3) .read⟩,
    ⟨1, 1, [0], 9, .remove (.individual 2)⟩]

theorem currentState_eq_removalBesideAdd : ∃ y y', Run removalBesideAdd y ∧
    Run addBesideRemoval y' ∧ ∃ states, y.currentState .reference = (.ok states : Outcome Empty _) ∧
      y'.currentState .reference = (.ok states : Outcome Empty _) := by
  obtain ⟨y, h, -⟩ := Run.of_returns (p := fun _ => True) .reference removalBesideAdd
    (by decide +kernel)
  obtain ⟨y', h', -⟩ := Run.of_returns (p := fun _ => True) .reference addBesideRemoval
    (by decide +kernel)
  refine ⟨y, y', h, h', currentState_eq_of_same_operations h h' ?_ (by decide) _ _⟩
  simp only [removalBesideAdd, addBesideRemoval, List.mem_cons, List.not_mem_nil, or_false]
  tauto

end GroupCrdt

end P2Panda.Auth.Group
