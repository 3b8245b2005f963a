import P2Panda.Auth.Group.Resolution

/-!
# Parts of a history

The graph up to a set of heads is again a history; the graph of some groups has every operation of
the groups it was made for, below one of its heads.
-/

namespace P2Panda.Auth.Group.GroupCrdtInnerState

open P2Panda.Library Outcome Relation List DiGraphMap

variable {ID OP C ε : Type} [DecidableEq ID] [DecidableEq OP]
variable {E : Runtime ID OP} {y : GroupCrdtInnerState ID OP C} {heads : Finset OP} {a b : OP}
  {x : OP}

def InPast (y : GroupCrdtInnerState ID OP C) (heads : Finset OP) (x : OP) : Prop :=
  ∃ d ∈ heads, y.graph.Reaches x d

omit [DecidableEq ID] [DecidableEq OP] in
theorem InPast.of_adj (hadj : y.graph.Adj a b) (hb : y.InPast heads b) : y.InPast heads a := by
  obtain ⟨d, hd, hrch⟩ := hb
  exact ⟨d, hd, hadj.reaches.trans hrch⟩

theorem mem_foldl_union {α β : Type} [DecidableEq β] {f : α → Finset β} {l : List α}
    {s : Finset β} {x : β} : x ∈ l.foldl (fun s a => s ∪ f a) s ↔ x ∈ s ∨ ∃ a ∈ l, x ∈ f a := by
  induction l generalizing s with
  | nil => simp
  | cons a l ih =>
    rw [foldl_cons, ih, Finset.mem_union]
    simp only [mem_cons, exists_eq_or_imp, or_assoc]

theorem mem_removed_trimmedGraph :
    x ∈ (E.ops.iter y.graph.nodes).filter (fun n => n ∉ (E.ops.iter heads).foldl
      (fun predecessors dependency =>
        predecessors ∪ (E.graph.dfs y.graph.reversed dependency).toFinset) ∅) ↔
      x ∈ y.graph.nodes ∧ ¬y.InPast heads x := by
  simp only [mem_filter, HashOrder.mem_iter, decide_eq_true_eq, mem_foldl_union,
    Finset.notMem_empty, false_or, mem_toFinset, E.graph.mem_dfs, reaches_reversed]
  rfl

theorem mem_trimmedGraph :
    x ∈ (y.trimmedGraph E heads).nodes ↔ x ∈ y.graph.nodes ∧ y.InPast heads x := by
  simp only [trimmedGraph, mem_nodes_removeNodes, mem_removed_trimmedGraph]
  tauto

theorem adj_trimmedGraph :
    (y.trimmedGraph E heads).Adj a b ↔ y.graph.Adj a b ∧ y.InPast heads b := by
  simp only [trimmedGraph, adj_removeNodes, mem_removed_trimmedGraph]
  constructor
  · rintro ⟨hadj, -, hb⟩
    exact ⟨hadj, by_contra fun hnot => hb ⟨hadj.right_mem, hnot⟩⟩
  · rintro ⟨hadj, hb⟩
    exact ⟨hadj, fun h => h.2 (hb.of_adj hadj), fun h => h.2 hb⟩

theorem reaches_trimmedGraph (hb : y.InPast heads b) :
    (y.trimmedGraph E heads).Reaches a b ↔ y.graph.Reaches a b :=
  reaches_iff_of_downClosed adj_trimmedGraph InPast.of_adj hb

theorem before_trimmedGraph (hb : y.InPast heads b) :
    (y.trimmedGraph E heads).Before a b ↔ y.graph.Before a b := by
  simp only [before_iff_exists_adj, adj_trimmedGraph, hb, and_true]
  constructor
  · rintro ⟨c, hac, hcb⟩
    exact ⟨c, (reaches_trimmedGraph (hb.of_adj hcb)).mp hac, hcb⟩
  · rintro ⟨c, hac, hcb⟩
    exact ⟨c, (reaches_trimmedGraph (hb.of_adj hcb)).mpr hac, hcb⟩

abbrev trimmed (E : Runtime ID OP) (y : GroupCrdtInnerState ID OP C) (heads : Finset OP) :
    GroupCrdtInnerState ID OP C :=
  { y with graph := y.trimmedGraph E heads }

theorem has_trimmed {o : Operation ID OP C} :
    (y.trimmed E heads).Has x o ↔ y.Has x o ∧ y.InPast heads x := by
  simp only [Has, mem_trimmedGraph]
  tauto

theorem History.trimmed (hy : y.History) (E : Runtime ID OP) (heads : Finset OP) :
    (y.trimmed E heads).History where
  known := by
    intro x hx
    obtain ⟨hnode, hpast⟩ := mem_trimmedGraph.mp hx
    obtain ⟨o, hhas⟩ := hy.known hnode
    exact ⟨o, has_trimmed.mpr ⟨hhas, hpast⟩⟩
  id hx := hy.id (has_trimmed.mp hx).1
  adj := by
    intro a x o hx
    obtain ⟨hhas, hpast⟩ := has_trimmed.mp hx
    rw [← hy.adj hhas, adj_trimmedGraph, and_iff_left hpast]
  acyclic := by
    intro a ha
    exact hy.acyclic a (TransGen.mono (fun x z hxz => (adj_trimmedGraph.mp hxz).1) _ _ ha)
  created := by
    intro x o hx hcrt
    obtain ⟨hhas, hpast⟩ := has_trimmed.mp hx
    obtain ⟨c, oc, hbef, hc, hcrtd, hgrp⟩ := hy.created hhas hcrt
    obtain ⟨d, hd, hrch⟩ := hpast
    refine ⟨c, oc, (before_trimmedGraph ⟨d, hd, hrch⟩).mpr hbef, has_trimmed.mpr ⟨hc, ?_⟩,
      hcrtd, hgrp⟩
    exact ⟨d, hd, hbef.reaches.trans hrch⟩

variable [Conditions C]

/-- The state stores what the resolver computes for its history. -/
structure Resolved (y : GroupCrdtInnerState ID OP C) : Prop where
  history : y.History
  resolved : ∀ x ∈ y.graph.nodes, y.ResolvedAt x
  ignore : ∀ x ∈ y.ignore, x ∈ y.graph.nodes

namespace Resolved

variable (h : y.Resolved) {states : GroupStates ID C} {dependencies : Finset ID}
include h

theorem stored (hx : x ∈ y.graph.nodes) : (y.states.lookup x).isSome := by
  obtain ⟨o, base, -, hresd⟩ := h.resolved x hx
  rw [hresd.state]
  rfl

theorem mergeStates (E : Runtime ID OP) (hhds : ∀ d ∈ heads, d ∈ y.graph.nodes) :
    ∃ states, y.mergeStates E heads = .ok states ∧ IsJoin y.stateOf heads states :=
  mergeStates_ok E fun d hd => h.stored (hhds d hd)

theorem currentState (E : Runtime ID OP) :
    ∃ states, y.currentState E = (.ok states : Outcome ε _) ∧
      IsJoin y.stateOf y.headsGlobal states := by
  obtain ⟨states, hmerge, hjoin⟩ := h.mergeStates E fun d hd => (mem_externals.mp hd).1
  exact ⟨states, by rw [GroupCrdtInnerState.currentState, headsGlobal, hmerge]; rfl, hjoin⟩

theorem isJoin_of_currentState {E : Runtime ID OP}
    (hsts : y.currentState E = (.ok states : Outcome ε _)) :
    IsJoin y.stateOf y.headsGlobal states := by
  obtain ⟨states', hstates', hjoin⟩ := h.currentState E
  cases hsts.symm.trans hstates'
  exact hjoin

theorem present_stateOf (hx : x ∈ y.graph.nodes) {groupId : ID} :
    ((y.stateOf x).lookup groupId).isSome ↔ ∃ c oc, y.Has c oc ∧ oc.action.isCreate = true ∧
      oc.groupId = groupId ∧ y.graph.Reaches c x :=
  present_iff h.history h.resolved (fun _ hadj => hadj.left_mem) hx

theorem present_currentState (hjoin : IsJoin y.stateOf y.headsGlobal states) {groupId : ID} :
    (states.lookup groupId).isSome ↔
      ∃ c oc, y.Has c oc ∧ oc.action.isCreate = true ∧ oc.groupId = groupId := by
  rw [hjoin.present]
  constructor
  · rintro ⟨d, hd, hsome⟩
    obtain ⟨c, oc, hc, hcrt, hgrp, -⟩ := (h.present_stateOf (mem_externals.mp hd).1).mp hsome
    exact ⟨c, oc, hc, hcrt, hgrp⟩
  · rintro ⟨c, oc, hc, hcrt, hgrp⟩
    obtain ⟨d, hd, hrch⟩ := h.history.acyclic.exists_external hc.1
    refine ⟨d, hd, (h.present_stateOf (mem_externals.mp hd).1).mpr ?_⟩
    exact ⟨c, oc, hc, hcrt, hgrp, hrch⟩

theorem groups (E : Runtime ID OP) (groupId : ID) :
    ∃ nested, y.groups E groupId = (.ok nested : Outcome ε _) := by
  obtain ⟨states, hsts, -⟩ := h.currentState (ε := ε) E
  simp only [GroupCrdtInnerState.groups, traverseMembers, hsts, ok_bind, Outcome.pure_eq]
  exact ⟨_, rfl⟩

theorem groupDependencies (E : Runtime ID OP) (groups : List ID) :
    ∃ dependencies, y.groupDependencies E groups = (.ok dependencies : Outcome ε _) ∧
      ∀ groupId ∈ groups, groupId ∈ dependencies := by
  refine foldlM_spec (fun done dependencies => ∀ groupId ∈ done, groupId ∈ dependencies)
    groups ∅ (by simp) ?_
  intro done groupId rest dependencies _ hdone
  obtain ⟨nested, hnest⟩ := h.groups (ε := ε) E groupId
  simp only [hnest, ok_bind, Outcome.pure_eq, Outcome.ok.injEq, exists_eq_left']
  intro groupId' hmem
  rw [Finset.mem_union, Finset.mem_insert]
  rcases mem_append.mp hmem with hmem | hmem
  · exact Or.inl (Or.inr (hdone groupId' hmem))
  · exact Or.inl (Or.inl (mem_singleton.mp hmem))

theorem filteredGraph_spec (E : Runtime ID OP) {groups : List ID}
    (hrun : y.groupDependencies E groups = (.ok dependencies : Outcome ε _)) :
    ∃ graph, y.filteredGraph E groups = (.ok graph : Outcome ε _) ∧ graph.Acyclic ∧
      (∀ {a b}, graph.Adj a b → y.graph.Adj a b) ∧
      ∀ {x}, x ∈ graph.nodes ↔ ∃ o, y.Has x o ∧ o.groupId ∈ dependencies := by
  set removed := (y.operations.entries E.ops).filterMap fun entry =>
    if entry.2.groupId ∈ dependencies then none else some entry.1 with hrmd
  have hmem : ∀ {x o}, y.Has x o → (x ∈ removed ↔ o.groupId ∉ dependencies) := by
    intro x o hx
    simp only [hrmd, mem_filterMap, Prod.exists, HashMap.mem_entries]
    constructor
    · rintro ⟨id, o', hlook, hif⟩
      split_ifs at hif with hgrp
      cases hif
      rw [hx.2] at hlook
      cases hlook
      exact hgrp
    · exact fun hgrp => ⟨x, o, hx.2, by rw [if_neg hgrp]⟩
  have hadj : ∀ {a b}, (y.graph.removeNodes removed).Adj a b → y.graph.Adj a b :=
    fun hab => (adj_removeNodes.mp hab).1
  refine ⟨y.graph.removeNodes removed, ?_, fun a ha => ?_, hadj, ?_⟩
  · simp only [filteredGraph, hrun, ok_bind, Outcome.pure_eq]
    rfl
  · exact h.history.acyclic a (TransGen.mono (fun b c hbc => hadj hbc) _ _ ha)
  · intro x
    rw [mem_nodes_removeNodes]
    constructor
    · rintro ⟨hnode, hkept⟩
      obtain ⟨o, hx⟩ := h.history.known hnode
      rw [hmem hx, not_not] at hkept
      exact ⟨o, hx, hkept⟩
    · rintro ⟨o, hx, hgrp⟩
      exact ⟨hx.1, (hmem hx).not.mpr fun hnot => hnot hgrp⟩

theorem heads_above (E : Runtime ID OP) {groups : List ID}
    (hrun : y.groupDependencies E groups = (.ok dependencies : Outcome ε _)) :
    ∃ heads, y.heads E groups = (.ok heads : Outcome ε _) ∧
      ∀ {x o}, y.Has x o → o.groupId ∈ dependencies → y.InPast heads x := by
  obtain ⟨graph, hgr, hacyc, hadj, hnds⟩ := h.filteredGraph_spec E hrun
  refine ⟨graph.externals, ?_, ?_⟩
  · rw [GroupCrdtInnerState.heads, hgr]
    rfl
  · intro x o hx hgrp
    obtain ⟨d, hd, hrch⟩ := hacyc.exists_external (hnds.mpr ⟨o, hx, hgrp⟩)
    exact ⟨d, hd, ReflTransGen.mono (fun b c hbc => hadj hbc) _ _ hrch⟩

theorem heads_spec (E : Runtime ID OP) (groups : List ID) :
    ∃ heads, y.heads E groups = (.ok heads : Outcome ε _) ∧
      ∀ {x o}, y.Has x o → o.groupId ∈ groups → y.InPast heads x := by
  obtain ⟨dependencies, hrun, hgroups⟩ := h.groupDependencies E groups
  obtain ⟨heads, hhds, habove⟩ := h.heads_above E hrun
  exact ⟨heads, hhds, fun hx hgrp => habove hx (hgroups _ hgrp)⟩

end Resolved

end P2Panda.Auth.Group.GroupCrdtInnerState
