import P2Panda.Auth.Group.Rules

/-!
# Resolving one bubble

The causal order in a bubble is that of the whole graph, concurrent operations share a bubble, and
no cycle of authority leaves one.
-/

namespace P2Panda.Auth.Group.StrongRemove

open P2Panda.Library Outcome Relation GroupCrdtInnerState DiGraphMap List ReflTransGen
open AuthorityGraphs

variable {ID OP : Type} [DecidableEq ID] [DecidableEq OP]
variable {E : Runtime ID OP} {graph : DiGraphMap OP} {bubble : Finset OP} {a b : OP} {x : OP}

theorem adj_bubbleGraph : (bubbleGraph E graph bubble).Adj a b ↔
    graph.Adj a b ∧ a ∈ bubble ∧ b ∈ bubble := by
  simp only [bubbleGraph, adj_removeNodes, mem_filter, HashOrder.mem_iter,
    decide_eq_true_eq, not_and, not_not]
  constructor
  · rintro ⟨hadj, ha, hb⟩
    exact ⟨hadj, ha hadj.left_mem, hb hadj.right_mem⟩
  · rintro ⟨hadj, ha, hb⟩
    exact ⟨hadj, fun _ => ha, fun _ => hb⟩

theorem acyclic_bubbleGraph (hacyc : graph.Acyclic) : (bubbleGraph E graph bubble).Acyclic := by
  intro a ha
  exact hacyc a (TransGen.mono (fun x y hxy => (adj_bubbleGraph.mp hxy).1) _ _ ha)

abbrev IsBubble (E : Runtime ID OP) (graph : DiGraphMap OP) (bubble : Finset OP) : Prop :=
  bubble ∈ concurrentBubbles E.ops E.graph graph

section Bubble

variable (hbubble : IsBubble E graph bubble)
include hbubble

theorem mem_bubbleGraph {a : OP} : a ∈ (bubbleGraph E graph bubble).nodes ↔ a ∈ bubble := by
  simp only [bubbleGraph, mem_nodes_removeNodes, mem_filter, HashOrder.mem_iter,
    decide_eq_true_eq, not_and, not_not]
  exact ⟨fun h => h.2 h.1, fun h => ⟨mem_nodes_of_mem_bubble hbubble h, fun _ => h⟩⟩

theorem reaches_bubbleGraph (hacyc : graph.Acyclic) (ha : a ∈ bubble) (hb : b ∈ bubble) :
    (bubbleGraph E graph bubble).Reaches a b ↔ graph.Reaches a b := by
  constructor
  · exact mono (fun x y hxy => (adj_bubbleGraph.mp hxy).1) _ _
  · intro hab
    induction hab with
    | refl => exact DiGraphMap.Reaches.refl _ a
    | @tail c d hac hcd ih =>
      -- What lies between two operations of a bubble is in the bubble.
      have hc : c ∈ bubble := by
        rcases reaches_iff_eq_or_before.mp hac with rfl | hac
        · exact ha
        · rw [mem_bubble_iff hbubble ha, ← sameComponent_iff_sameBubble]
          refine Incomparability.sameComponent_of_between (fun _ _ _ => DiGraphMap.Before.trans)
            hacyc (DiGraphMap.Before.right_mem hac) ?_ hac (DiGraphMap.Adj.before hcd)
          rw [sameComponent_iff_sameBubble, ← mem_bubble_iff hbubble ha]
          exact hb
      exact (ih hc).tail (adj_bubbleGraph.mpr ⟨hcd, hc, hb⟩)

theorem before_bubbleGraph (hacyc : graph.Acyclic) (ha : a ∈ bubble) (hb : b ∈ bubble) :
    (bubbleGraph E graph bubble).Before a b ↔ graph.Before a b := by
  rw [(acyclic_bubbleGraph hacyc).before_iff, hacyc.before_iff,
    reaches_bubbleGraph hbubble hacyc ha hb]

theorem concurrent_bubbleGraph (hacyc : graph.Acyclic) (ha : a ∈ bubble) (hb : b ∈ bubble) :
    (bubbleGraph E graph bubble).Concurrent a b ↔ graph.Concurrent a b := by
  simp only [Concurrent, mem_bubbleGraph hbubble, ha, hb,
    mem_nodes_of_mem_bubble hbubble ha, mem_nodes_of_mem_bubble hbubble hb,
    reaches_bubbleGraph hbubble hacyc ha hb, reaches_bubbleGraph hbubble hacyc hb ha]

theorem onAuthorityCycle_bubble (hacyc : graph.Acyclic) {R D : ID → ID → OP → Prop}
    (hnds : ∀ {op}, IsEntry R D op → op ∈ graph.nodes) (hx : x ∈ bubble) :
    OnAuthorityCycle (bubbleGraph E graph bubble) (fun a b op => R a b op ∧ op ∈ bubble)
      (fun a b op => D a b op ∧ op ∈ bubble) x ↔ OnAuthorityCycle graph R D x := by
  constructor
  · intro hcyc
    refine hcyc.mono (fun _ h => h.1) (fun _ h => h.1)
      (fun hop hop' => (concurrent_bubbleGraph hbubble hacyc hop hop').mp)
      (before_bubbleGraph hbubble hacyc) ?_
    rintro actor n ⟨a, b, h | h⟩ - -
    · exact h.2
    · exact h.2
  · intro hcyc
    refine hcyc.mono (fun hop h => ⟨h, hop⟩) (fun hop h => ⟨h, hop⟩)
      (fun hop hop' => (concurrent_bubbleGraph hbubble hacyc hop hop').mpr)
      (fun hop hop' => (before_bubbleGraph hbubble hacyc hop hop').symm) ?_
    intro actor n _ hout hback
    exact (mem_bubble_iff hbubble hx).mpr (sameBubble_of_cycle hacyc hnds
      (mem_nodes_of_mem_bubble hbubble hx) hout hback)

end Bubble

section Resolve

variable {C ε : Type} {y : GroupCrdtInnerState ID OP C} {authority : AuthorityGraphs ID OP}

/-- The entries are the removals and delegations among the operations in `P`. -/
structure Registered (y : GroupCrdtInnerState ID OP C) (P : OP → Prop)
    (authority : AuthorityGraphs ID OP) : Prop where
  removal : ∀ g a b op, authority.IsRemoval g a b op ↔ y.Removes g a b op ∧ P op
  delegation : ∀ g a b op, authority.IsDelegation g a b op ↔ y.Delegates g a b op ∧ P op

theorem Registered.insert {P : OP → Prop} {authority authority' : AuthorityGraphs ID OP}
    (h : Registered y P authority) (hrmv : ∀ g a b op, authority'.IsRemoval g a b op ↔
      authority.IsRemoval g a b op ∨ op = x ∧ y.Removes g a b x)
    (hdeleg : ∀ g a b op, authority'.IsDelegation g a b op ↔
      authority.IsDelegation g a b op ∨ op = x ∧ y.Delegates g a b x) :
    Registered y (fun op => P op ∨ op = x) authority' where
  removal g a b op := by
    rw [hrmv, h.removal]
    grind
  delegation g a b op := by
    rw [hdeleg, h.delegation]
    grind

theorem registerOperation_spec {P : OP → Prop} {o : Operation ID OP C} (hx : y.Has x o)
    (h : Registered y P authority) (hgrs : authority.graphs = ∅) :
    ∃ authority', registerOperation y.operations authority x = (.ok authority' : Outcome ε _) ∧
      authority'.depsGraph = authority.depsGraph ∧ authority'.graphs = ∅ ∧
      Registered y (fun op => P op ∨ op = x) authority' := by
  simp only [registerOperation, hx.2, expect_some, ok_bind, Outcome.pure_eq,
    Outcome.ok.injEq, exists_eq_left']
  cases hrmd : o.removedOrDemotedManager with
  | some removed =>
    rw [Operation.addedOrPromotedManager_eq_none hrmd]
    refine ⟨depsGraph_addRemoval, graphs_addRemoval hgrs,
      h.insert (fun g a b op => ?_) fun g a b op => ?_⟩
    · rw [isRemoval_addRemoval, removes_iff hx]
      grind
    · rw [isDelegation_addRemoval, delegates_iff hx, Operation.addedOrPromotedManager_eq_none hrmd]
      simp
  | none =>
    cases hadd : o.addedOrPromotedManager with
    | some added =>
      refine ⟨rfl, graphs_addDelegation hgrs, h.insert (fun g a b op => ?_) fun g a b op => ?_⟩
      · rw [isRemoval_addDelegation, removes_iff hx, hrmd]
        simp
      · rw [isDelegation_addDelegation, delegates_iff hx]
        grind
    | none =>
      refine ⟨rfl, hgrs, h.insert (fun g a b op => ?_) fun g a b op => ?_⟩
      · simp [removes_iff hx, hrmd]
      · simp [delegates_iff hx, hadd]

structure AuthorityOf (E : Runtime ID OP) (y : GroupCrdtInnerState ID OP C) (bubble : Finset OP)
    (authority : AuthorityGraphs ID OP) : Prop where
  depsGraph : authority.depsGraph = bubbleGraph E y.graph bubble
  caches : authority.CachesCurrent
  registered : Registered y (· ∈ bubble) authority

theorem buildAuthorityGraphs_spec (hy : y.History) (hbubble : IsBubble E y.graph bubble) :
    ∃ authority, buildAuthorityGraphs E y.operations (bubbleGraph E y.graph bubble) =
        (.ok authority : Outcome ε _) ∧ AuthorityOf E y bubble authority := by
  obtain ⟨authority, hrun, hdeps, hgrs, hregd⟩ := foldlM_spec
    (fun done authority => authority.depsGraph = bubbleGraph E y.graph bubble ∧
      authority.graphs = ∅ ∧ Registered y (· ∈ done) authority)
    (E.ops.iter (bubbleGraph E y.graph bubble).nodes)
    (new (bubbleGraph E y.graph bubble))
    ⟨rfl, rfl, by simp [new, IsRemoval], by simp [new, IsDelegation]⟩
    (by
      rintro done x rest authority hl ⟨hdeps, hgrs, hregd⟩
      have hmem : x ∈ E.ops.iter (bubbleGraph E y.graph bubble).nodes := by simp [hl]
      rw [HashOrder.mem_iter, mem_bubbleGraph hbubble] at hmem
      obtain ⟨o, hx⟩ := hy.known (mem_nodes_of_mem_bubble hbubble hmem)
      obtain ⟨authority', hstep, hdeps', hgraphs', hregistered'⟩ :=
        registerOperation_spec (ε := ε) hx hregd hgrs
      refine ⟨authority', hstep, hdeps'.trans hdeps, hgraphs', ?_⟩
      simpa using hregistered')
  refine ⟨authority, hrun, hdeps, ?_, by simpa [mem_bubbleGraph hbubble] using hregd⟩
  intro groupId hsome
  simp [hgrs] at hsome

theorem isCycle_bubble (hy : y.History) (hbubble : IsBubble E y.graph bubble)
    (h : AuthorityOf E y bubble authority) (groupId : ID) (hmem : x ∈ bubble) :
    ∃ result authority', authority.isCycle E.graph E.authority groupId x =
        (.ok (result, authority') : Outcome ε _) ∧
      (result = true ↔ y.OnCycle groupId x) ∧ AuthorityOf E y bubble authority' := by
  have hknown : authority.DepsKnown := by
    refine ⟨h.depsGraph ▸ acyclic_bubbleGraph hy.acyclic, fun hrmv => ?_⟩
    rw [h.depsGraph, mem_bubbleGraph hbubble]
    exact ((h.registered.removal _ _ _ _).mp hrmv).2
  obtain ⟨result, authority', hrun, hsame, hcaches, hres⟩ :=
    isCycle_spec hknown h.caches E.graph E.authority groupId x
  refine ⟨result, authority', hrun, ?_, hsame.depsGraph.trans h.depsGraph, hcaches, ?_, ?_⟩
  · have hrmv : authority.IsRemoval groupId =
        fun a b op => y.Removes groupId a b op ∧ op ∈ bubble := by
      funext a b op
      exact propext (h.registered.removal _ a b op)
    have hdeleg : authority.IsDelegation groupId =
        fun a b op => y.Delegates groupId a b op ∧ op ∈ bubble := by
      funext a b op
      exact propext (h.registered.delegation _ a b op)
    rw [hres, h.depsGraph, hrmv, hdeleg, onAuthorityCycle_bubble hbubble hy.acyclic
      mem_nodes_of_isEntry hmem, OnCycle]
  · intro g a b op
    rw [← h.registered.removal, IsRemoval, hsame.removals]
    rfl
  · intro g a b op
    rw [← h.registered.delegation, IsDelegation, hsame.delegations]
    rfl

theorem retainFiltered_spec (concurrent : Finset OP) {r : Operation ID OP C} {removed : ID}
    (hr : r.removedOrDemotedManager = some removed)
    (hknown : ∀ z ∈ concurrent, ∃ o, y.operations.lookup z = some o) :
    ∃ kept, retainFiltered E y.operations r.groupId removed concurrent =
        (.ok kept : Outcome ε _) ∧
      ∀ z, z ∈ kept ↔ z ∈ concurrent ∧ ∃ o, y.operations.lookup z = some o ∧ Cancels r o := by
  have hcanc : ∀ o : Operation ID OP C, Cancels r o ↔
      (isRemoved r.groupId removed o || isReadd r.groupId removed o) = true := by
    intro o
    constructor
    · rintro ⟨removed', hr', h⟩
      rw [hr] at hr'
      cases hr'
      exact h
    · exact fun h => ⟨removed, hr, h⟩
  obtain ⟨kept, hrun, hkept⟩ := foldlM_spec (f := (retainOperation y.operations r.groupId removed))
    (fun done kept => ∀ z, z ∈ kept ↔ z ∈ done ∧ ∃ o, y.operations.lookup z = some o ∧ Cancels r o)
    (E.ops.iter concurrent) ∅ (by simp)
    (by
      intro done x rest kept hl hkept
      obtain ⟨o, ho⟩ := hknown x (E.ops.mem_iter.mp (by simp [hl]))
      simp only [retainOperation, ho, expect_some, ok_bind, Outcome.pure_eq,
        mem_append, mem_singleton]
      by_cases hcancel : Cancels r o
      · refine ⟨insert x kept, by rw [if_pos ((hcanc o).mp hcancel)], fun z => ?_⟩
        grind
      · refine ⟨kept, by rw [if_neg (mt (hcanc o).mpr hcancel)], fun z => ?_⟩
        grind)
  exact ⟨kept, hrun, fun z => by rw [hkept, E.ops.mem_iter]⟩

/-- The loop of `computeFilter` after the operations in `done`. -/
structure FilterInv (E : Runtime ID OP) (y : GroupCrdtInnerState ID OP C) (bubble : Finset OP)
    (done : List OP) (acc : FilterState ID OP) : Prop where
  filter : ∀ z, z ∈ acc.filter ↔ ∃ r ∈ done, ∃ ro oz, y.Has r ro ∧ y.Has z oz ∧
    y.graph.Concurrent r z ∧ Cancels ro oz
  isMutual : ∀ z, z ∈ acc.mutualRemoves ↔ z ∈ done ∧ y.Mutual z
  authority : AuthorityOf E y bubble acc.authorityGraphs

theorem filterOperation_spec (hy : y.History) (hbubble : IsBubble E y.graph bubble) {done : List OP}
    {acc : FilterState ID OP} (hacc : FilterInv E y bubble done acc) (hmem : x ∈ bubble) :
    ∃ acc', filterOperation E y bubble acc x = (.ok acc' : Outcome ε _) ∧
      FilterInv E y bubble (done ++ [x]) acc' := by
  obtain ⟨o, hx⟩ := hy.known (mem_nodes_of_mem_bubble hbubble hmem)
  have hlast : ∀ {P : OP → Prop}, (∃ r ∈ done ++ [x], P r) ↔ (∃ r ∈ done, P r) ∨ P x := by
    intro P
    simp only [mem_append, mem_singleton, or_and_right, exists_or, exists_eq_left]
  simp only [filterOperation, hx.2, expect_some, ok_bind]
  cases hrmd : o.removedOrDemotedManager with
  | none =>
    refine ⟨acc, rfl, fun z => ?_, fun z => ?_, hacc.authority⟩
    · rw [hacc.filter, hlast, iff_self_or]
      rintro ⟨ro, oz, hr, -, -, removed, hr', -⟩
      cases hx.unique hr
      rw [hrmd] at hr'
      cases hr'
    · rw [hacc.isMutual, mem_append, mem_singleton, or_and_right, iff_self_or]
      rintro ⟨rfl, hmut⟩
      rw [mutual_iff hx, hrmd] at hmut
      cases hmut.1
  | some removed =>
    obtain ⟨result, authority, hcyc, hres, hauthority⟩ :=
      isCycle_bubble hy hbubble hacc.authority o.groupId hmem
    have hmut : isMutualRemove E o acc.authorityGraphs =
        (.ok (result, authority) : Outcome ε _) := by
      simp only [isMutualRemove, hrmd, hy.id hx]
      simpa using hcyc
    have hspl : ∀ z, z ∈ (splitBubble E.graph y.graph bubble x).1 ↔ y.graph.Concurrent x z :=
      fun z => mem_splitBubble_of_bubble hbubble hmem
    obtain ⟨kept, hretain, hkept⟩ := retainFiltered_spec (ε := ε) (E := E)
      (splitBubble E.graph y.graph bubble x).1 hrmd fun z hz => by
        obtain ⟨oz, hoz⟩ := hy.known ((hspl z).mp hz).2.1
        exact ⟨oz, hoz.2⟩
    simp only [hmut, ok_bind, hretain, Outcome.pure_eq]
    refine ⟨_, rfl, fun z => ?_, fun z => ?_, hauthority⟩
    · rw [Finset.mem_union, hacc.filter, hlast, hkept, hspl]
      refine or_congr Iff.rfl ⟨?_, ?_⟩
      · rintro ⟨hconc, oz, hoz, hcanc⟩
        exact ⟨o, oz, hx, ⟨hconc.2.1, hoz⟩, hconc, hcanc⟩
      · rintro ⟨ro, oz, hr, hz, hconc, hcanc⟩
        cases hx.unique hr
        exact ⟨hconc, oz, hz.2, hcanc⟩
    · rw [mem_append, mem_singleton, or_and_right, ← hacc.isMutual]
      cases result with
      | true =>
        have hx' : y.Mutual x := (mutual_iff hx).mpr ⟨by simp [hrmd], hres.mp rfl⟩
        rw [if_pos rfl, Finset.mem_insert, or_comm]
        refine or_congr Iff.rfl ⟨fun h => ⟨h, h ▸ hx'⟩, And.left⟩
      | false =>
        rw [if_neg Bool.false_ne_true, iff_self_or]
        rintro ⟨rfl, hmut⟩
        exact absurd (hres.mpr ((mutual_iff hx).mp hmut).2) Bool.false_ne_true

theorem computeFilter_spec (hy : y.History) (hbubble : IsBubble E y.graph bubble)
    (h : AuthorityOf E y bubble authority) :
    ∃ ignore mutualRemoves, computeFilter E y bubble authority =
        (.ok { y with ignore := ignore, mutualRemoves := mutualRemoves } : Outcome ε _) ∧
      (∀ z, z ∈ ignore ↔ z ∈ bubble ∧ y.Filtered z) ∧
      ∀ z, z ∈ mutualRemoves ↔ z ∈ bubble ∧ y.Mutual z := by
  obtain ⟨acc, hrun, hacc⟩ := foldlM_spec
    (f := (filterOperation E y bubble : _ → _ → Outcome ε _)) (FilterInv E y bubble)
    (E.ops.iter bubble) ⟨∅, ∅, authority⟩ ⟨by simp, by simp, h⟩
    (fun done x rest acc hl hacc => filterOperation_spec hy hbubble hacc
      (E.ops.mem_iter.mp (by simp [hl])))
  refine ⟨acc.filter, acc.mutualRemoves, by simp [computeFilter, hrun], fun z => ?_, fun z => ?_⟩
  · rw [hacc.filter]
    constructor
    · rintro ⟨r, hr, ro, oz, hhas, hz, hconc, hcanc⟩
      refine ⟨?_, oz, r, ro, hz, hhas, hconc, hcanc⟩
      rw [mem_bubble_iff hbubble (E.ops.mem_iter.mp hr)]
      exact single hconc
    · -- The removal that filters an operation of the bubble is in the bubble.
      rintro ⟨hmem, oz, r, ro, hz, hr, hconc, hcanc⟩
      refine ⟨r, E.ops.mem_iter.mpr ?_, ro, oz, hr, hz, hconc, hcanc⟩
      rw [mem_bubble_iff hbubble hmem]
      exact single hconc.symm
  · rw [hacc.isMutual, E.ops.mem_iter]

theorem not_filtered_of_no_bubble (hy : y.History)
    (hnone : ∀ bubble, IsBubble E y.graph bubble → x ∉ bubble) :
    ¬y.Filtered x ∧ ¬y.Mutual x := by
  have hconc : ∀ z, ¬y.graph.Concurrent x z := by
    intro z hz
    obtain ⟨bubble, hbubble, hmem⟩ := exists_bubble hz
    exact hnone bubble hbubble hmem
  constructor
  · rintro ⟨_, r, _, -, -, hr, -⟩
    exact hconc r hr.symm
  · rintro ⟨o, hhas, -, hcyc⟩
    obtain ⟨z, hz⟩ := hcyc.exists_concurrent hy.acyclic hhas
    exact hconc z hz

end Resolve

end P2Panda.Auth.Group.StrongRemove
