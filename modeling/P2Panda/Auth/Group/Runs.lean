import P2Panda.Auth.Group.Crdt
import P2Panda.Auth.Group.Views

/-!
# Processing keeps the state consistent

What `process` can return: an error of a check, a panic when the operation's group is missing, or
the state extended by the operation and resolved again. So every state reached from the empty one is
consistent.
-/

namespace P2Panda.Auth.Group

open P2Panda.Library Outcome GroupCrdtInnerState List StrongRemove Outcome Option

variable {ID OP C : Type} [DecidableEq OP]

namespace GroupCrdtInnerState

variable {y y' y'' : GroupCrdtInnerState ID OP C} {o : Operation ID OP C}

theorem IsExtension.of_sameGraph (h : IsExtension y y' o) (hsame : SameGraph y' y'') :
    IsExtension y y'' o where
  graph := by
    rw [hsame.graph]
    exact h.graph
  has := by
    rw [hsame.has]
    exact h.has

def CreatedBefore (y : GroupCrdtInnerState ID OP C) (heads : Finset OP) (groupId : ID) : Prop :=
  ∃ c oc, y.Has c oc ∧ oc.action.isCreate = true ∧ oc.groupId = groupId ∧ y.InPast heads c

theorem IsExtension.history (h : IsExtension y y' o) (hy : y.History)
    (hcrtd : o.action.isCreate = false → y.CreatedBefore o.dependencies.toFinset o.groupId) :
    y'.History where
  known := by
    intro x hx
    rw [h.graph.nodes, Finset.mem_insert] at hx
    rcases hx with rfl | hx
    · exact ⟨o, h.has_new⟩
    · obtain ⟨ox, hox⟩ := hy.known hx
      exact ⟨ox, h.has_old hox⟩
  id := by
    intro x ox hx
    rcases h.has.mp hx with ⟨rfl, rfl⟩ | hx
    · rfl
    · exact hy.id hx
  adj := by
    intro a x ox hx
    rw [h.graph.adj]
    rcases h.has.mp hx with ⟨rfl, rfl⟩ | hx
    · constructor
      · rintro (hadj | ⟨-, hdep⟩)
        · exact absurd hadj.right_mem h.graph.fresh
        · exact hdep
      · exact fun hdep => Or.inr ⟨rfl, hdep⟩
    · rw [← hy.adj hx, or_iff_left]
      exact fun hnew => h.ne_of_has hx hnew.1
  acyclic := h.graph.acyclic hy.acyclic
  created := by
    intro x ox hx hcrt
    rcases h.has.mp hx with ⟨rfl, rfl⟩ | hx
    · obtain ⟨c, oc, hc, hcrtd, hgrp, d, hd, hrch⟩ := hcrtd hcrt
      exact ⟨c, oc, h.graph.before_sink.mpr ⟨d, mem_toFinset.mp hd, hrch⟩, h.has_old hc,
        hcrtd, hgrp⟩
    · obtain ⟨c, oc, hbef, hc, hcrtd, hgrp⟩ := hy.created hx hcrt
      exact ⟨c, oc, (h.graph.before_old hx.1).mpr hbef, h.has_old hc, hcrtd, hgrp⟩

end GroupCrdtInnerState

namespace GroupCrdt

variable {y : GroupCrdtInnerState ID OP C} {o : Operation ID OP C} {g : DiGraphMap OP}

theorem adj_foldl_addEdge {l : List OP} {x a b : OP} :
    (l.foldl (fun graph dependency => graph.addEdge dependency x) g).Adj a b ↔
      g.Adj a b ∨ b = x ∧ a ∈ l := by
  induction l generalizing g with
  | nil => simp
  | cons d l ih =>
    rw [foldl_cons, ih, DiGraphMap.adj_addEdge, mem_cons]
    tauto

theorem nodes_foldl_addEdge {l : List OP} {x : OP} (hx : x ∈ g.nodes) (hl : ∀ d ∈ l, d ∈ g.nodes) :
    (l.foldl (fun graph dependency => graph.addEdge dependency x) g).nodes = g.nodes := by
  induction l generalizing g with
  | nil => rfl
  | cons d l ih =>
    have hnds : (g.addEdge d x).nodes = g.nodes := by
      rw [DiGraphMap.nodes_addEdge, Finset.insert_eq_of_mem hx,
        Finset.insert_eq_of_mem (hl d mem_cons_self)]
    rw [foldl_cons, ih (hnds ▸ hx) fun d' hd' => hnds ▸ hl d' (mem_cons_of_mem _ hd'), hnds]

theorem isExtension_addOperation [Conditions C] (hnew : o.id ∉ y.graph.nodes)
    (hdeps : ∀ d ∈ o.dependencies, d ∈ y.graph.nodes) : IsExtension y (addOperation y o) o := by
  have hnds : (addOperation y o).graph.nodes = insert o.id y.graph.nodes := by
    rw [addOperation, nodes_foldl_addEdge]
    · rfl
    · simp
    · exact fun d hd => Finset.mem_insert_of_mem (hdeps d hd)
  refine ⟨⟨hnew, hnds, hdeps _, ?_⟩, ?_⟩
  · intro a b
    rw [addOperation, adj_foldl_addEdge, DiGraphMap.adj_addNode]
  · intro x ox
    rw [Has, Has, hnds, addOperation]
    by_cases hx : x = o.id
    · subst hx
      simp [hnew, eq_comm]
    · simp [hx]

variable [DecidableEq ID] [Conditions C] {E : Runtime ID OP} {heads : Finset OP}
  {states : GroupStates ID C} {ignore : Finset OP} {ops : List (Operation ID OP C)}

theorem rebuildAt_spec (hy : y.History) (E : Runtime ID OP) (heads : Finset OP) :
    ∃ inner, rebuildAt E y heads = .ok inner ∧ SameGraph (y.trimmed E heads) inner ∧
      inner.Resolved := by
  obtain ⟨inner, hrun, hsame, hresd, hign⟩ := process_spec (hy.trimmed E heads)
  refine ⟨inner, by rw [rebuildAt, hrun]; rfl, hsame, ⟨hsame.history (hy.trimmed E heads), ?_, ?_⟩⟩
  · rw [hsame.graph]
    exact hresd
  · rw [hsame.graph]
    exact hign

/-- An operation's group is there, whatever it is validated against, if it was created in its
past. -/
theorem stateBefore_spec (h : y.Resolved) (E : Runtime ID OP) (o : Operation ID OP C) :
    ∃ states ignore, stateBefore E y o = .ok (states, ignore) ∧
      (∀ x ∈ ignore, x ∈ y.graph.nodes) ∧
      ((states.lookup o.groupId).isSome ↔ y.CreatedBefore o.dependencies.toFinset o.groupId) := by
  obtain ⟨tips, htips, habove⟩ := h.heads_spec (ε := GroupCrdtError ID OP) E o.requiredGroups
  by_cases hreb : tips ≠ o.dependencies.toFinset
  · obtain ⟨inner, hinn, hsame, hresd⟩ := rebuildAt_spec h.history E o.dependencies.toFinset
    obtain ⟨states, hsts, hjoin⟩ := hresd.currentState (ε := GroupCrdtError ID OP) E
    refine ⟨states, inner.ignore, ?_, fun x hx => ?_, ?_⟩
    · simp only [stateBefore, htips, ok_bind, if_pos hreb, hinn, hsts, pure_eq]
    · have hnode := hresd.ignore x hx
      rw [hsame.graph] at hnode
      exact (mem_trimmedGraph.mp hnode).1
    · rw [hresd.present_currentState hjoin, hsame.has]
      constructor
      · rintro ⟨c, oc, hc, hcrt, hgrp⟩
        obtain ⟨hhas, hpast⟩ := has_trimmed.mp hc
        exact ⟨c, oc, hhas, hcrt, hgrp, hpast⟩
      · rintro ⟨c, oc, hc, hcrt, hgrp, hpast⟩
        exact ⟨c, oc, has_trimmed.mpr ⟨hc, hpast⟩, hcrt, hgrp⟩
  · obtain ⟨states, hsts, hjoin⟩ := h.currentState (ε := GroupCrdtError ID OP) E
    refine ⟨states, y.ignore, ?_, h.ignore, ?_⟩
    · simp only [stateBefore, htips, ok_bind, if_neg hreb, hsts, pure_eq]
    · rw [h.present_currentState hjoin]
      rw [not_not] at hreb
      constructor
      · rintro ⟨c, oc, hc, hcrt, hgrp⟩
        refine ⟨c, oc, hc, hcrt, hgrp, hreb ▸ habove hc ?_⟩
        rw [hgrp]
        exact o.groupId_mem_requiredGroups
      · rintro ⟨c, oc, hc, hcrt, hgrp, -⟩
        exact ⟨c, oc, hc, hcrt, hgrp⟩

theorem wouldCreateCycle_ok (h : y.Resolved) (E : Runtime ID OP) (o : Operation ID OP C) :
    ∃ result, y.wouldCreateCycle E o = (.ok result : Outcome (GroupCrdtError ID OP) Bool) := by
  obtain ⟨states, hsts, -⟩ := h.currentState E
  unfold wouldCreateCycle
  split
  · exact ⟨_, by rw [hsts]; rfl⟩
  · exact ⟨_, rfl⟩

structure Consistent (y : GroupCrdtInnerState ID OP C) : Prop extends y.Resolved where
  complete : ∀ x, (y.operations.lookup x).isSome → x ∈ y.graph.nodes

theorem Consistent.isSome_iff (h : Consistent y) {x : OP} :
    (y.operations.lookup x).isSome ↔ x ∈ y.graph.nodes := by
  refine ⟨h.complete x, fun hx => ?_⟩
  obtain ⟨o, hhas⟩ := h.history.known hx
  simp [hhas.2]

theorem consistent_init : Consistent (init : GroupCrdtInnerState ID OP C) := by
  have hemp : ∀ {x o}, ¬(init : GroupCrdtInnerState ID OP C).Has x o := by
    simp [Has, init, GroupCrdtInnerState.default]
  refine ⟨⟨⟨?_, fun hx => absurd hx hemp, fun hx => absurd hx hemp, ?_,
    fun hx => absurd hx hemp⟩, ?_, ?_⟩, ?_⟩
  · simp [init, GroupCrdtInnerState.default]
  · intro a ha
    simpa [init, GroupCrdtInnerState.default] using ha.left_mem
  · simp [init, GroupCrdtInnerState.default]
  · simp [init, GroupCrdtInnerState.default]
  · simp [init, GroupCrdtInnerState.default]

/-- The checks of `process` that do not look at the members of the group. -/
structure Admissible (E : Runtime ID OP) (y : GroupCrdtInnerState ID OP C)
    (o : Operation ID OP C) : Prop where
  dependencies : ∀ d ∈ o.dependencies, d ∈ y.graph.nodes
  fresh : o.id ∉ y.graph.nodes
  managerGroup : managerGroup? o.action = none
  cycle : y.wouldCreateCycle E o = (.ok false : Outcome (GroupCrdtError ID OP) Bool)

def membersBefore (states : GroupStates ID C) (o : Operation ID OP C) :
    GroupMembersState (GroupMember ID) C :=
  if o.action.isCreate then .default else (states.lookup o.groupId).getD .default

/-- The outcomes of processing an operation, each with its reason. -/
inductive Processing (E : Runtime ID OP) (y : GroupCrdtInnerState ID OP C)
    (o : Operation ID OP C) :
    Outcome (GroupCrdtError ID OP) (GroupCrdtInnerState ID OP C) → Prop
  | missing {d} : d ∈ o.dependencies → d ∉ y.graph.nodes →
      Processing E y o (.err (.missingDependencies d o.id))
  | duplicate : (∀ d ∈ o.dependencies, d ∈ y.graph.nodes) → o.id ∈ y.graph.nodes →
      Processing E y o (.err (.duplicateOperation o.id o.groupId))
  | managerGroup {member} : (∀ d ∈ o.dependencies, d ∈ y.graph.nodes) → o.id ∉ y.graph.nodes →
      managerGroup? o.action = some member →
      Processing E y o (.err (.managerGroupsNotAllowed member.id))
  | cycle {subGroup access} : (∀ d ∈ o.dependencies, d ∈ y.graph.nodes) → o.id ∉ y.graph.nodes →
      managerGroup? o.action = none → o.action = .add subGroup access →
      y.wouldCreateCycle E o = (.ok true : Outcome (GroupCrdtError ID OP) Bool) →
      Processing E y o (.err (.groupCycle o.groupId subGroup.id o.id))
  | absent : Admissible E y o → o.action.isCreate = false →
      ¬y.CreatedBefore o.dependencies.toFinset o.groupId →
      Processing E y o (.panic "group already present in states map")
  | invalid {states ignore error} : Admissible E y o →
      stateBefore E y o = .ok (states, ignore) →
      o.action.isCreate = true ∨ y.CreatedBefore o.dependencies.toFinset o.groupId →
      changeMembers (membersBefore states o) o.author o.action = .error error →
      Processing E y o (.err (.stateChangeError o.id error))
  | accepted {states ignore members y'} : Admissible E y o →
      stateBefore E y o = .ok (states, ignore) →
      o.action.isCreate = true ∨ y.CreatedBefore o.dependencies.toFinset o.groupId →
      changeMembers (membersBefore states o) o.author o.action = .ok members →
      IsExtension y y' o → Consistent y' → Processing E y o (.ok y')

theorem complete_addOperation (h : Consistent y) (hext : IsExtension y (addOperation y o) o)
    (x : OP) (hx : ((addOperation y o).operations.lookup x).isSome) :
    x ∈ (addOperation y o).graph.nodes := by
  rw [hext.graph.nodes, Finset.mem_insert]
  rw [addOperation, HashMap.lookup_insert_ite] at hx
  split_ifs at hx with heq
  · exact Or.inl heq
  · exact Or.inr (h.complete x hx)

/-- An operation on top of all others of its group needs no rebuild: the rules stay, and say nothing
of it. -/
theorem Consistent.append (h : Consistent y) (hext : IsExtension y (addOperation y o) o)
    (hcrtd : o.action.isCreate = false → y.CreatedBefore o.dependencies.toFinset o.groupId)
    (hlast : ∀ {x ox}, y.Has x ox → ox.groupId = o.groupId → y.InPast o.dependencies.toFinset x)
    {base : GroupStates ID C} (hmrg : y.mergeStates E o.dependencies.toFinset = .ok base)
    (hpres : o.action.isCreate = true ∨ (base.lookup o.groupId).isSome) :
    Consistent { addOperation y o with
      states := y.states.insert o.id (base.insert o.groupId
        (resolveMembers false false o (base.lookup o.groupId))) } := by
  obtain ⟨states, hsts⟩ : ∃ states, states = base.insert o.groupId
    (resolveMembers false false o (base.lookup o.groupId)) := ⟨_, rfl⟩
  rw [← hsts]
  have hext' : IsExtension y { addOperation y o with states := y.states.insert o.id states } o :=
    hext.of_sameGraph ⟨rfl, rfl⟩
  set y' : GroupCrdtInnerState ID OP C :=
    { addOperation y o with states := y.states.insert o.id states } with hy'
  have hbef : ∀ {x ox}, y.Has x ox → ox.groupId = o.groupId → y'.graph.Before x o.id := by
    intro x ox hx hgrp
    obtain ⟨d, hd, hrch⟩ := hlast hx hgrp
    exact hext'.graph.before_sink.mpr ⟨d, mem_toFinset.mp hd, hrch⟩
  have hcyc : ∀ {groupId}, ¬y'.OnCycle groupId o.id :=
    hext'.not_onCycle_of_last h.history.acyclic hbef
  have hframe : ∀ x ∈ y.graph.nodes, y'.states.lookup x = y.states.lookup x := by
    intro x hx
    rw [HashMap.lookup_insert_ite, if_neg]
    rintro rfl
    exact hext.graph.fresh hx
  have hdeps : ∀ a ∈ o.dependencies.toFinset, y'.states.lookup a = y.states.lookup a :=
    fun a ha => hframe a (hext.graph.deps_mem (mem_toFinset.mp ha))
  refine ⟨⟨hext'.history h.history hcrtd, ?_, ?_⟩, ?_⟩
  · intro x hx
    rw [hext'.graph.nodes, Finset.mem_insert] at hx
    rcases hx with rfl | hx
    · refine ⟨o, base, hext'.has_new, ⟨⟨E, ?_⟩, hpres, ?_⟩⟩
      · rw [← hmrg]
        exact mergeStates_congr hdeps
      · have hmut : ¬y'.Mutual o.id := fun ⟨_, _, _, honCycle⟩ => hcyc honCycle
        rw [resolvedMembers_eq (hext'.not_filtered_of_last hbef) hmut, ← hsts,
          HashMap.lookup_insert_ite, if_pos rfl]
    · obtain ⟨ox, basex, hox, hresd⟩ := h.resolved x hx
      refine ⟨ox, basex, hext'.has_old hox, hresd.congr
        (hext'.filtered_of_last hbef hox) (hext'.mutual_old hox hcyc)
        (hframe x hx) fun a ha => ?_⟩
      exact hframe a ((h.history.adj hox).mpr ha).left_mem
  · intro x hx
    rw [hext'.graph.nodes]
    exact Finset.mem_insert_of_mem (h.ignore x hx)
  · exact complete_addOperation h hext

theorem applyAction_unfiltered {ε : Type} (hfresh : o.id ∉ ignore)
    (hpres : o.action.isCreate = true ∨ (states.lookup o.groupId).isSome) :
    ∃ after, applyAction states o.groupId o.id o.author o.action ignore =
      (match changeMembers (membersBefore states o) o.author o.action with
        | .ok _ => .ok (.ok after)
        | .error error => .ok (.error after error) : Outcome ε _) := by
  by_cases hcrt : o.action.isCreate = true
  · simp only [applyAction, membersBefore, hcrt, if_true, pure_eq, ok_bind, if_neg hfresh]
    cases changeMembers .default o.author o.action <;> exact ⟨_, rfl⟩
  · obtain ⟨members, hmbrs⟩ := isSome_iff_exists.mp (hpres.resolve_left hcrt)
    simp only [applyAction, membersBefore, hcrt, hmbrs, Bool.false_eq_true, if_false,
      expect_some, pure_eq, ok_bind, if_neg hfresh, getD_some]
    cases changeMembers members o.author o.action <;> exact ⟨_, rfl⟩

section Processing

variable (h : Consistent y)
include h

theorem validate_eq (hadm : Admissible E y o) (hbef : stateBefore E y o = .ok (states, ignore))
    (hfresh : o.id ∉ ignore) (hpres : o.action.isCreate = true ∨ (states.lookup o.groupId).isSome) :
    validate E y o = match changeMembers (membersBefore states o) o.author o.action with
      | .ok _ => .ok ()
      | .error error => .err (.stateChangeError o.id error) := by
  obtain ⟨after, happly⟩ := applyAction_unfiltered (ε := GroupCrdtError ID OP) hfresh hpres
  have hnew : ¬(y.operations.lookup o.id).isSome := mt h.isSome_iff.mp hadm.fresh
  simp only [validate, if_neg hnew, hadm.managerGroup, hadm.cycle, ok_bind,
    Bool.false_eq_true, if_false, hbef, happly]
  cases changeMembers (membersBefore states o) o.author o.action <;> rfl

theorem validate_panic (hadm : Admissible E y o) (hbef : stateBefore E y o = .ok (states, ignore))
    (hcrt : o.action.isCreate = false) (habs : states.lookup o.groupId = none) :
    validate E y o = .panic "group already present in states map" := by
  have hnew : ¬(y.operations.lookup o.id).isSome := mt h.isSome_iff.mp hadm.fresh
  simp only [validate, if_neg hnew, hadm.managerGroup, hadm.cycle, ok_bind,
    Bool.false_eq_true, if_false, hbef, applyAction_panic hcrt habs, panic_bind]

/-- An operation with known dependencies is validated and attached, with a rebuild unless it is on
top of all operations of its group. -/
theorem process_eq (E : Runtime ID OP) (hdeps : ∀ d ∈ o.dependencies, d ∈ y.graph.nodes) :
    ∃ rebuild, process E y o = (validate E y o >>= fun _ => attach E y o rebuild) ∧
      (rebuild = false → ∀ {x ox}, y.Has x ox → ox.groupId = o.groupId →
        y.InPast o.dependencies.toFinset x) := by
  obtain ⟨tips, htips, habove⟩ := h.heads_spec (ε := GroupCrdtError ID OP) E o.requiredGroups
  have hfind : o.dependencies.find? (fun d => (y.operations.lookup d).isNone) = none := by
    rw [find?_eq_none]
    intro d hd
    simpa [isSome_iff_ne_none] using h.isSome_iff.mpr (hdeps d hd)
  refine ⟨decide (tips ≠ o.dependencies.toFinset), ?_, fun hreb {x ox} hx hgrp => ?_⟩
  · simp only [process, hfind, rebuildRequired, htips, ok_bind, pure_eq]
  · rw [decide_eq_false_iff_not, not_not] at hreb
    rw [← hreb]
    refine habove hx ?_
    rw [hgrp]
    exact o.groupId_mem_requiredGroups

theorem attach_spec (hfresh : o.id ∉ y.graph.nodes)
    (hdeps : ∀ d ∈ o.dependencies, d ∈ y.graph.nodes)
    (hcrtd : o.action.isCreate = true ∨ y.CreatedBefore o.dependencies.toFinset o.groupId)
    {rebuild : Bool} (hlast : rebuild = false → ∀ {x ox}, y.Has x ox → ox.groupId = o.groupId →
      y.InPast o.dependencies.toFinset x) :
    ∃ y', attach E y o rebuild = .ok y' ∧ IsExtension y y' o ∧ Consistent y' := by
  have hext := isExtension_addOperation hfresh hdeps
  have hcreated' : o.action.isCreate = false →
      y.CreatedBefore o.dependencies.toFinset o.groupId := by
    intro hcrt
    exact hcrtd.resolve_left (by simp [hcrt])
  cases rebuild with
  | true =>
    have hhist := hext.history h.history hcreated'
    obtain ⟨y', hrun, hsame, hresd, hign⟩ := process_spec (E := E) hhist
    refine ⟨y', by simp [attach, hrun], hext.of_sameGraph hsame,
      ⟨⟨hsame.history hhist, ?_, ?_⟩, ?_⟩⟩
    · rw [hsame.graph]
      exact hresd
    · rw [hsame.graph]
      exact hign
    · rw [hsame.operations, hsame.graph]
      exact complete_addOperation h hext
  | false =>
    have hdeps' : ∀ d ∈ o.dependencies.toFinset, d ∈ y.graph.nodes :=
      fun d hd => hdeps d (mem_toFinset.mp hd)
    obtain ⟨base, hmrg, hjoin⟩ := h.mergeStates E hdeps'
    have hpres : o.action.isCreate = true ∨ (base.lookup o.groupId).isSome := by
      refine hcrtd.imp_right ?_
      rintro ⟨c, oc, hc, hcrt, hgrp, d, hd, hrch⟩
      rw [hjoin.present]
      exact ⟨d, hd, (h.present_stateOf (hdeps' d hd)).mpr ⟨c, oc, hc, hcrt, hgrp, hrch⟩⟩
    have hfilt : o.id ∉ y.ignore := fun hmem => hfresh (h.ignore _ hmem)
    obtain ⟨result, happly, hst⟩ := applyAction_eq y.ignore hpres
    rw [decide_eq_false hfilt] at hst
    have hknown : ¬(!o.action.isCreate && (base.lookup o.groupId).isNone) = true := by
      rcases hpres with hcrt | hsome
      · simp [hcrt]
      · simp [isNone_eq_false_iff.mpr hsome]
    refine ⟨_, ?_, ?_, h.append hext hcreated' (hlast rfl) hmrg hpres⟩
    swap
    · exact hext.of_sameGraph ⟨rfl, rfl⟩
    have hmerged' : (addOperation y o).stateAt E o.dependencies.toFinset = .ok base := hmrg
    have happly' : applyAction base o.groupId o.id o.author o.action (addOperation y o).ignore =
      (.ok result : Outcome (GroupCrdtError ID OP) _) := happly
    simp only [attach, Bool.false_eq_true, if_false, hmerged', mapErr_ok,
      ok_bind, if_neg hknown, happly', hst, pure_eq]
    rfl

theorem validate_duplicate (hold : o.id ∈ y.graph.nodes) :
    validate E y o = .err (.duplicateOperation o.id o.groupId) := by
  simp only [validate, if_pos (h.isSome_iff.mpr hold)]

theorem validate_managerGroup (hfresh : o.id ∉ y.graph.nodes) {member : GroupMember ID}
    (hmgr : managerGroup? o.action = some member) :
    validate E y o = .err (.managerGroupsNotAllowed member.id) := by
  simp only [validate, if_neg (mt h.isSome_iff.mp hfresh), hmgr]

theorem validate_cycle (hfresh : o.id ∉ y.graph.nodes) (hmgr : managerGroup? o.action = none)
    (hcyc : y.wouldCreateCycle E o = (.ok true : Outcome (GroupCrdtError ID OP) Bool)) :
    ∃ subGroup access, o.action = .add subGroup access ∧
      validate E y o = .err (.groupCycle o.groupId subGroup.id o.id) := by
  have hadd : ∃ subGroup access, o.action = .add subGroup access := by
    unfold wouldCreateCycle at hcyc
    split at hcyc
    · rename_i hactn
      exact ⟨_, _, hactn⟩
    · simp at hcyc
  obtain ⟨subGroup, access, hactn⟩ := hadd
  refine ⟨subGroup, access, hactn, ?_⟩
  rw [hactn] at hmgr
  simp only [validate, if_neg (mt h.isSome_iff.mp hfresh), hmgr, hcyc, ok_bind, if_true, hactn]

theorem processing (E : Runtime ID OP) (o : Operation ID OP C) :
    Processing E y o (process E y o) := by
  by_cases hdeps : ∀ d ∈ o.dependencies, d ∈ y.graph.nodes
  swap
  · cases hfind : o.dependencies.find? fun d => (y.operations.lookup d).isNone with
    | none =>
      refine absurd (fun d hd => ?_) hdeps
      rw [find?_eq_none] at hfind
      exact h.isSome_iff.mp (by simpa [isSome_iff_ne_none] using hfind d hd)
    | some d =>
      simp only [process, hfind]
      refine .missing (mem_of_find?_eq_some hfind) (mt h.isSome_iff.mpr ?_)
      simpa using find?_some hfind
  obtain ⟨rebuild, hproc, hlast⟩ := process_eq h E hdeps
  rw [hproc]
  by_cases hfresh : o.id ∈ y.graph.nodes
  · rw [validate_duplicate h hfresh]
    exact .duplicate hdeps hfresh
  cases hmgr : managerGroup? o.action with
  | some member =>
    rw [validate_managerGroup h hfresh hmgr]
    exact .managerGroup hdeps hfresh hmgr
  | none =>
  obtain ⟨closes, hcyc⟩ := wouldCreateCycle_ok h.toResolved E o
  cases closes with
  | true =>
    obtain ⟨subGroup, access, hactn, hvalidate⟩ := validate_cycle h hfresh hmgr hcyc
    rw [hvalidate]
    exact .cycle hdeps hfresh hmgr hactn hcyc
  | false =>
  have hadm : Admissible E y o := ⟨hdeps, hfresh, hmgr, hcyc⟩
  obtain ⟨states, ignore, hbef, hign, hpres⟩ := stateBefore_spec h.toResolved E o
  by_cases hcrtd : o.action.isCreate = true ∨ y.CreatedBefore o.dependencies.toFinset o.groupId
  · rw [validate_eq h hadm hbef (fun hmem => hfresh (hign _ hmem)) (hcrtd.imp_right hpres.mpr)]
    cases hchg : changeMembers (membersBefore states o) o.author o.action with
    | error error => exact .invalid hadm hbef hcrtd hchg
    | ok members =>
      obtain ⟨y', hattach, hext, hcons⟩ := attach_spec h hfresh hdeps hcrtd hlast
      rw [hattach]
      exact .accepted hadm hbef hcrtd hchg hext hcons
  · obtain ⟨hcrt, habs⟩ := not_or.mp hcrtd
    rw [Bool.not_eq_true] at hcrt
    rw [validate_panic h hadm hbef hcrt (by simpa [isSome_iff_ne_none] using mt hpres.mp habs)]
    exact .absent hadm hcrt habs

theorem process_ok {y' : GroupCrdtInnerState ID OP C} (hok : process E y o = .ok y') :
    IsExtension y y' o ∧ Consistent y' ∧ Admissible E y o := by
  have hprocg := processing h E o
  rw [hok] at hprocg
  cases hprocg with
  | accepted hadm _ _ _ hext hcons => exact ⟨hext, hcons, hadm⟩

end Processing

/-- The states reached by processing some operations, from the empty state. -/
inductive Run : List (Operation ID OP C) → GroupCrdtInnerState ID OP C → Prop
  | init : Run [] init
  | step {ops y o y'} (E : Runtime ID OP) : Run ops y → process E y o = .ok y' →
      Run (ops ++ [o]) y'

theorem Run.consistent (h : Run ops y) : Consistent y := by
  induction h with
  | init => exact consistent_init
  | step E _ hok ih => exact (process_ok ih hok).2.1

theorem Run.has_iff (h : Run ops y) {x : OP} : y.Has x o ↔ o ∈ ops ∧ o.id = x := by
  induction h with
  | init => simp [Has, GroupCrdt.init, GroupCrdtInnerState.default]
  | @step ops y o' y' E hrun hok ih =>
    rw [(process_ok hrun.consistent hok).1.has, ih, mem_append, mem_singleton]
    constructor
    · rintro (⟨rfl, rfl⟩ | ⟨hmem, hid⟩)
      · exact ⟨Or.inr rfl, rfl⟩
      · exact ⟨Or.inl hmem, hid⟩
    · rintro ⟨hmem | rfl, hid⟩
      · exact Or.inr ⟨hmem, hid⟩
      · exact Or.inl ⟨hid.symm, rfl⟩

def processAll (E : Runtime ID OP) (ops : List (Operation ID OP C)) :
    Outcome (GroupCrdtError ID OP) (GroupCrdtInnerState ID OP C) :=
  ops.foldlM (process E) init

theorem Run.of_processAll (h : processAll E ops = .ok y) : Run ops y := by
  induction ops using List.reverseRecOn generalizing y with
  | nil =>
    cases h
    exact .init
  | append_singleton ops o ih =>
    obtain ⟨y0, hops, hstep⟩ := foldlM_concat_eq_ok.mp h
    exact .step E (ih hops) hstep

theorem Run.of_returns {p : GroupCrdtInnerState ID OP C → Prop} (E : Runtime ID OP)
    (ops : List (Operation ID OP C)) (h : (processAll E ops).Returns p) : ∃ y, Run ops y ∧ p y := by
  obtain ⟨y, hy, hp⟩ := h
  exact ⟨y, .of_processAll hy, hp⟩

def createManagers (ids : List Nat) : GroupAction Nat Unit :=
  .create (ids.map fun id => (.individual id, .manage))

end GroupCrdt

end P2Panda.Auth.Group
