import P2Panda.Auth.Group.Bubbles

/-!
# What the resolver computes

The states at an operation are those of its dependencies, merged, with its own effect: none if it is
filtered, an unchecked removal if it is a mutual remove, and else what the state change rules say.
-/

namespace P2Panda.Auth.Group

open P2Panda.Library Outcome List

namespace GroupCrdtInnerState

variable {ID OP C : Type} [DecidableEq OP]
variable {y y' : GroupCrdtInnerState ID OP C} {x : OP} {o : Operation ID OP C}

structure SameGraph (y y' : GroupCrdtInnerState ID OP C) : Prop where
  operations : y'.operations = y.operations
  graph : y'.graph = y.graph

namespace SameGraph

theorem has (h : SameGraph y y') : y'.Has = y.Has := by
  unfold Has
  rw [h.operations, h.graph]

theorem mutual_eq (h : SameGraph y y') : y'.Mutual = y.Mutual := by
  unfold Mutual OnCycle Removes Delegates
  rw [h.has, h.graph]

theorem history (h : SameGraph y y') (hy : y.History) : y'.History := by
  constructor
  all_goals simp only [h.graph, h.has]
  exacts [hy.known, hy.id, hy.adj, hy.acyclic, hy.created]

theorem filtered [DecidableEq ID] (h : SameGraph y y') : y'.Filtered = y.Filtered := by
  unfold Filtered
  rw [h.has, h.graph]

end SameGraph

variable [DecidableEq ID] [Conditions C] {before : Option (GroupMembersState (GroupMember ID) C)}
  {base : GroupStates ID C}

open Classical in
/-- The members of the group of `o`, resolved after `o`. -/
noncomputable def resolvedMembers (y : GroupCrdtInnerState ID OP C) (x : OP)
    (o : Operation ID OP C) (before : Option (GroupMembersState (GroupMember ID) C)) :
    GroupMembersState (GroupMember ID) C :=
  resolveMembers (decide (y.Filtered x)) (decide (y.Mutual x)) o before

theorem resolvedMembers_eq (hfilt : ¬y.Filtered x) (hmut : ¬y.Mutual x) :
    y.resolvedMembers x o before = resolveMembers false false o before := by
  simp [resolvedMembers, hfilt, hmut]

theorem resolvedMembers_congr (hmut : y.Mutual x ↔ y'.Mutual x)
    (hfilt : ¬y.Mutual x → (y.Filtered x ↔ y'.Filtered x)) :
    y.resolvedMembers x o before = y'.resolvedMembers x o before := by
  by_cases hx : y.Mutual x
  · simp [resolvedMembers, resolveMembers, hx, hmut.mp hx]
  · rw [resolvedMembers, resolvedMembers, decide_eq_decide.mpr hmut,
      decide_eq_decide.mpr (hfilt hx)]

/-- The states at an operation are resolved from those of its dependencies `base`. -/
structure ResolvedFrom (y : GroupCrdtInnerState ID OP C) (x : OP) (o : Operation ID OP C)
    (base : GroupStates ID C) : Prop where
  merged : ∃ E : Runtime ID OP, y.mergeStates E o.dependencies.toFinset = .ok base
  present : o.action.isCreate = true ∨ (base.lookup o.groupId).isSome
  state : y.states.lookup x =
    some (base.insert o.groupId (y.resolvedMembers x o (base.lookup o.groupId)))

def ResolvedAt (y : GroupCrdtInnerState ID OP C) (x : OP) : Prop :=
  ∃ o base, y.Has x o ∧ y.ResolvedFrom x o base

/-- An operation stays resolved when the rules and the states of it and of its dependencies stay. -/
theorem ResolvedFrom.congr (hresd : y.ResolvedFrom x o base) (hfilt : y'.Filtered x ↔ y.Filtered x)
    (hmut : y'.Mutual x ↔ y.Mutual x) (hx : y'.states.lookup x = y.states.lookup x)
    (hdeps : ∀ a ∈ o.dependencies, y'.states.lookup a = y.states.lookup a) :
    y'.ResolvedFrom x o base := by
  obtain ⟨⟨E, hmrg⟩, hpres, hst⟩ := hresd
  refine ⟨⟨E, ?_⟩, hpres, ?_⟩
  · rw [← hmrg]
    exact mergeStates_congr fun d hd => hdeps d (mem_toFinset.mp hd)
  · rw [hx, hst, resolvedMembers, resolvedMembers, decide_eq_decide.mpr hfilt,
      decide_eq_decide.mpr hmut]

theorem SameGraph.resolvedFrom (h : SameGraph y y') (hx : y'.states.lookup x = y.states.lookup x)
    (hdeps : ∀ a ∈ o.dependencies, y'.states.lookup a = y.states.lookup a)
    (hresd : y.ResolvedFrom x o base) : y'.ResolvedFrom x o base :=
  hresd.congr (by rw [h.filtered]) (by rw [h.mutual_eq]) hx hdeps

theorem present_iff (hy : y.History) {S : OP → Prop} (hresd : ∀ x, S x → y.ResolvedAt x)
    (hcl : ∀ {a x}, S x → y.graph.Adj a x → S a) (hx : S x) {groupId : ID} :
    ((y.stateOf x).lookup groupId).isSome ↔ ∃ c oc, y.Has c oc ∧ oc.action.isCreate = true ∧
      oc.groupId = groupId ∧ y.graph.Reaches c x := by
  induction x using hy.acyclic.wellFounded.induction with
  | _ x ih =>
  obtain ⟨o, base, hhas, ⟨E, hmrg⟩, hpres, hst⟩ := hresd x hx
  have hjoin := isJoin_of_mergeStates hmrg
  have hbase : (base.lookup groupId).isSome ↔ ∃ c oc, y.Has c oc ∧ oc.action.isCreate = true ∧
      oc.groupId = groupId ∧ y.graph.Before c x := by
    rw [hjoin.present]
    constructor
    · rintro ⟨a, ha, hsome⟩
      have hadj := (hy.adj_iff_dep hhas).mpr ha
      obtain ⟨c, oc, hc, hcrt, hgrp, hrch⟩ := (ih a hadj.before (hcl hx hadj)).mp hsome
      exact ⟨c, oc, hc, hcrt, hgrp, hrch.trans_before hadj.before⟩
    · rintro ⟨c, oc, hc, hcrt, hgrp, hbef⟩
      obtain ⟨a, hrch, hadj⟩ := DiGraphMap.before_iff_exists_adj.mp hbef
      exact ⟨a, (hy.adj_iff_dep hhas).mp hadj,
        (ih a hadj.before (hcl hx hadj)).mpr ⟨c, oc, hc, hcrt, hgrp, hrch⟩⟩
  rw [stateOf_eq hst, HashMap.lookup_insert_ite]
  split_ifs with hgrp
  · simp only [Option.isSome_some, true_iff]
    rcases hpres with hcrt | hsome
    · exact ⟨x, o, hhas, hcrt, hgrp.symm, DiGraphMap.Reaches.refl _ x⟩
    · obtain ⟨c, oc, hc, hcrt, hgrp, hbef⟩ := hbase.mp (hgrp ▸ hsome)
      exact ⟨c, oc, hc, hcrt, hgrp, hbef.reaches⟩
  · rw [hbase]
    constructor
    · rintro ⟨c, oc, hc, hcrt, hgrp, hbef⟩
      exact ⟨c, oc, hc, hcrt, hgrp, hbef.reaches⟩
    · rintro ⟨c, oc, hc, hcrt, hgroup', hrch⟩
      rcases DiGraphMap.reaches_iff_eq_or_before.mp hrch with rfl | hbef
      · cases hc.unique hhas
        exact absurd hgroup'.symm hgrp
      · exact ⟨c, oc, hc, hcrt, hgroup', hbef⟩

end GroupCrdtInnerState

namespace StrongRemove

open GroupCrdtInnerState

variable {ID OP C ε : Type} [DecidableEq ID] [DecidableEq OP] [Conditions C]
variable {E : Runtime ID OP} {y₀ y : GroupCrdtInnerState ID OP C} {S : OP → Prop}
  {bubble : Finset OP} {acc : GroupCrdtInnerState ID OP C × List (Finset OP)}

/-- The resolver started from `y₀` and has resolved the operations in `S`. -/
structure Progress (y₀ : GroupCrdtInnerState ID OP C) (S : OP → Prop)
    (y : GroupCrdtInnerState ID OP C) : Prop where
  same : SameGraph y₀ y
  resolved : ∀ x, S x → y.ResolvedAt x
  closed : ∀ {a x}, S x → y₀.graph.Adj a x → S a

variable {x : OP}

theorem Progress.stored (h : Progress y₀ S y) (hx : S x) : (y.states.lookup x).isSome := by
  obtain ⟨o, base, -, hresd⟩ := h.resolved x hx
  rw [hresd.state]
  rfl

theorem applyOperation_eq {o : Operation ID OP C} {base : GroupStates ID C}
    (ho : y.operations.lookup x = some o) (hid : o.id = x)
    (hmrg : y.mergeStates E o.dependencies.toFinset = .ok base)
    (hpres : o.action.isCreate = true ∨ (base.lookup o.groupId).isSome)
    (hrmd : x ∈ y.mutualRemoves → o.removedOrDemotedManager.isSome) :
    applyOperation E y x = (.ok { y with
      states := y.states.insert x (base.insert o.groupId (resolveMembers (decide (x ∈ y.ignore))
        (decide (x ∈ y.mutualRemoves)) o (base.lookup o.groupId))) } : Outcome ε _) := by
  simp only [applyOperation, ho, expect_some, ok_bind, stateAt, hmrg,
    Outcome.expectOk_ok, Outcome.pure_eq]
  by_cases hmut : x ∈ y.mutualRemoves
  · obtain ⟨removed, hrmd⟩ := Option.isSome_iff_exists.mp (hrmd hmut)
    have hcrt := Operation.not_isCreate_of_removed hrmd
    rw [hcrt] at hpres
    simp [hmut, hrmd, hid, applyRemoveUnsafe_eq hrmd
      (hpres.resolve_left Bool.false_ne_true) (decide (x ∈ y.ignore))]
  · obtain ⟨result, happly, hst⟩ := applyAction_eq (ε := ε) y.ignore hpres
    subst hid
    simp [hmut, happly, hst]

theorem Progress.applyOperation (hy : y₀.History) (h : Progress y₀ S y) (hx : x ∈ y₀.graph.nodes)
    (hnew : ¬S x) (hdeps : ∀ a, y₀.graph.Adj a x → S a) (hign : x ∈ y.ignore ↔ y₀.Filtered x)
    (hmut : x ∈ y.mutualRemoves ↔ y₀.Mutual x) :
    ∃ y', applyOperation E y x = (.ok y' : Outcome ε _) ∧
      Progress y₀ (fun z => S z ∨ z = x) y' ∧ y'.ignore = y.ignore ∧
      y'.mutualRemoves = y.mutualRemoves := by
  obtain ⟨o, hhas⟩ := hy.known hx
  have hhas' : y.Has x o := by
    rw [h.same.has]
    exact hhas
  have hdep : ∀ a ∈ o.dependencies, S a := fun a ha => hdeps a ((hy.adj hhas).mpr ha)
  obtain ⟨base, hmrg, hjoin⟩ := mergeStates_ok E fun a ha => h.stored (hdep a (mem_toFinset.mp ha))
  -- The group was created before, so one of the dependencies has it.
  have hpres : o.action.isCreate = true ∨ (base.lookup o.groupId).isSome := by
    by_cases hcrt : o.action.isCreate = true
    · exact Or.inl hcrt
    · right
      obtain ⟨c, oc, hbef, hc, hcrtd, hgrp⟩ := hy.created hhas (by simpa using hcrt)
      obtain ⟨a, hrch, hadj⟩ := DiGraphMap.before_iff_exists_adj.mp hbef
      rw [hjoin.present]
      refine ⟨a, (hy.adj_iff_dep hhas).mp hadj, ?_⟩
      rw [present_iff (h.same.history hy) h.resolved
        (fun hz hadj => h.closed hz (h.same.graph ▸ hadj)) (hdeps a hadj)]
      exact ⟨c, oc, by rwa [h.same.has], hcrtd, hgrp, by rwa [h.same.graph]⟩
  have happly := applyOperation_eq (ε := ε) hhas'.2 (hy.id hhas) hmrg hpres fun hmem =>
    ((mutual_iff hhas).mp (hmut.mp hmem)).1
  obtain ⟨states, hsts⟩ : ∃ states, states = base.insert o.groupId (resolveMembers
      (decide (x ∈ y.ignore)) (decide (x ∈ y.mutualRemoves)) o (base.lookup o.groupId)) := ⟨_, rfl⟩
  rw [← hsts] at happly
  have hframe : ∀ z, S z → (y.states.insert x states).lookup z = y.states.lookup z := by
    intro z hz
    rw [HashMap.lookup_insert_ite, if_neg]
    rintro rfl
    exact hnew hz
  have hsame : SameGraph y₀ { y with states := y.states.insert x states } :=
    ⟨h.same.operations, h.same.graph⟩
  refine ⟨_, happly, ⟨hsame, ?_, ?_⟩, rfl, rfl⟩
  · rintro z (hz | rfl)
    · obtain ⟨oz, basez, hhasz, hresd⟩ := h.resolved z hz
      have hhasz0 : y₀.Has z oz := by rwa [← h.same.has]
      have hstep : SameGraph y { y with states := y.states.insert x states } := ⟨rfl, rfl⟩
      refine ⟨oz, basez, hhasz, hstep.resolvedFrom (hframe z hz) ?_ hresd⟩
      exact fun a ha => hframe a (h.closed hz ((hy.adj hhasz0).mpr ha))
    · refine ⟨o, base, hhas', ⟨⟨E, ?_⟩, hpres, ?_⟩⟩
      · rw [← hmrg]
        exact mergeStates_congr fun a ha => hframe a (hdep a (mem_toFinset.mp ha))
      · rw [HashMap.lookup_insert_ite, if_pos rfl, resolvedMembers, hsame.filtered,
          hsame.mutual_eq, ← decide_eq_decide.mpr hign, ← decide_eq_decide.mpr hmut, hsts]
  · rintro a z (hz | rfl) hadj
    · exact Or.inl (h.closed hz hadj)
    · exact Or.inl (hdeps a hadj)

theorem Progress.of_states (h : Progress y₀ S y) {y' : GroupCrdtInnerState ID OP C}
    (hsame : SameGraph y y') (hsts : y'.states = y.states) : Progress y₀ S y' where
  same := ⟨hsame.operations.trans h.same.operations, hsame.graph.trans h.same.graph⟩
  resolved x hx := by
    obtain ⟨o, base, hhas, hresd⟩ := h.resolved x hx
    exact ⟨o, base, by rwa [hsame.has], hsame.resolvedFrom (by rw [hsts])
      (fun a _ => by rw [hsts]) hresd⟩
  closed := h.closed

theorem Progress.congr (h : Progress y₀ S y) {S' : OP → Prop} (hS : ∀ z, S' z ↔ S z) :
    Progress y₀ S' y := by
  obtain rfl : S' = S := funext fun z => propext (hS z)
  exact h

theorem Progress.processBubble (hy : y₀.History) (h : Progress y₀ S y)
    (hbub : IsBubble E y₀.graph bubble) (hnew : ∀ x ∈ bubble, ¬S x)
    (hdeps : ∀ {a x}, x ∈ bubble → y₀.graph.Adj a x → S a ∨ a ∈ bubble) :
    ∃ y', processBubble E y bubble = (.ok y' : Outcome ε _) ∧
      Progress y₀ (fun z => S z ∨ z ∈ bubble) y' ∧
      (∀ z, z ∈ y'.ignore ↔ z ∈ bubble ∧ y₀.Filtered z) ∧
      ∀ z, z ∈ y'.mutualRemoves ↔ z ∈ bubble ∧ y₀.Mutual z := by
  have hy' := h.same.history hy
  rw [← h.same.graph] at hbub
  obtain ⟨authority, hbuild, hauthority⟩ := buildAuthorityGraphs_spec (ε := ε) hy' hbub
  obtain ⟨ignore, mutualRemoves, hflt, hign, hmut⟩ :=
    computeFilter_spec (ε := ε) hy' hbub hauthority
  have hacyc : (bubbleGraph E y.graph bubble).Acyclic := acyclic_bubbleGraph hy'.acyclic
  have hmem : ∀ {x}, x ∈ E.graph.topo (bubbleGraph E y.graph bubble) ↔ x ∈ bubble := by
    intro x
    rw [E.graph.mem_topo hacyc, mem_bubbleGraph hbub]
  have hstart : Progress y₀ S { y with ignore := ignore, mutualRemoves := mutualRemoves } :=
    h.of_states ⟨rfl, rfl⟩ rfl
  obtain ⟨y', hrun, hprog, hignore', hmutual'⟩ := foldlM_spec
    (fun done y' => Progress y₀ (fun z => S z ∨ z ∈ done) y' ∧ y'.ignore = ignore ∧
      y'.mutualRemoves = mutualRemoves)
    (E.graph.topo (bubbleGraph E y.graph bubble))
    { y with ignore := ignore, mutualRemoves := mutualRemoves }
    ⟨by simpa using hstart, rfl, rfl⟩
    (by
      rintro done x rest y' htopo ⟨hprog, rfl, rfl⟩
      have hx : x ∈ bubble := hmem.mp (by simp [htopo])
      obtain ⟨y'', hstep, hprogress', hignore', hmutual'⟩ := hprog.applyOperation (ε := ε)
        (E := E) hy (h.same.graph ▸ mem_nodes_of_mem_bubble hbub hx)
        (fun hold => hold.elim (hnew x hx) (E.graph.not_mem_done hacyc htopo))
        (fun a hadj => (hdeps hx hadj).imp_right fun ha => E.graph.topo_order hacyc htopo a
          (adj_bubbleGraph.mpr ⟨h.same.graph ▸ hadj, ha, hx⟩))
        (by rw [hign, h.same.filtered]; exact and_iff_right hx)
        (by rw [hmut, h.same.mutual_eq]; exact and_iff_right hx)
      refine ⟨y'', hstep, ?_, hignore', hmutual'⟩
      simpa [or_assoc] using hprogress')
  refine ⟨y', ?_, by simpa only [hmem] using hprog, ?_, ?_⟩
  · simp only [StrongRemove.processBubble, hbuild, ok_bind, hflt, hrun]
  · rw [hignore', ← h.same.filtered]
    exact hign
  · rw [hmutual', ← h.same.mutual_eq]
    exact hmut

/-- The loop of `process` after the operations in `done`. -/
structure Processed (E : Runtime ID OP) (y₀ : GroupCrdtInnerState ID OP C) (done : List OP)
    (acc : GroupCrdtInnerState ID OP C × List (Finset OP)) : Prop where
  progress : Progress y₀ (fun z => z ∈ done ∨ ∃ bubble ∈ acc.2, z ∈ bubble) acc.1
  bubbles : ∀ bubble ∈ acc.2, IsBubble E y₀.graph bubble
  entered : ∀ {z bubble}, z ∈ done → IsBubble E y₀.graph bubble → z ∈ bubble → bubble ∈ acc.2
  met : ∀ bubble ∈ acc.2, ∃ z ∈ done, z ∈ bubble
  stacked : acc.2.Pairwise (Precedes y₀.graph)
  ignore : ∀ z, z ∈ acc.1.ignore ↔ ∃ bubble ∈ acc.2.getLast?, z ∈ bubble ∧ y₀.Filtered z
  mutualRemoves : ∀ z, z ∈ acc.1.mutualRemoves ↔
    ∃ bubble ∈ acc.2.getLast?, z ∈ bubble ∧ y₀.Mutual z

theorem Processed.precedes (hy : y₀.History) {done rest : List OP}
    (htopo : E.graph.topo y₀.graph = done ++ x :: rest) (h : Processed E y₀ done acc)
    (hbub : IsBubble E y₀.graph bubble) (hx : x ∈ bubble) {bubble' : Finset OP}
    (hbubble' : bubble' ∈ acc.2) (hne : bubble' ≠ bubble) :
    Precedes y₀.graph bubble' bubble := by
  rcases precedes_or_precedes hy.acyclic (h.bubbles bubble' hbubble') hbub hne with hbef | hafter
  · exact hbef
  · -- the walk would have met `x` before it met the other bubble
    obtain ⟨z, hz, hz'⟩ := h.met bubble' hbubble'
    obtain ⟨done1, done2, rfl⟩ := append_of_mem hz
    have htopo' : E.graph.topo y₀.graph = done1 ++ z :: (done2 ++ x :: rest) := by
      simpa using htopo
    have hmet := E.graph.topo_before hy.acyclic htopo' (hafter x hx z hz')
    exact absurd (mem_append_left _ hmet) (E.graph.not_mem_done hy.acyclic htopo)

theorem Processed.concat {done : List OP} {processed : List (Finset OP)}
    (h : Processed E y₀ done (y, processed)) (y' : GroupCrdtInnerState ID OP C)
    (new : List (Finset OP))
    (hprog : Progress y₀ (fun z => z ∈ done ++ [x] ∨ ∃ bubble ∈ processed ++ new, z ∈ bubble) y')
    (hnew : ∀ bubble ∈ new, IsBubble E y₀.graph bubble ∧ x ∈ bubble)
    (hent : ∀ bubble, IsBubble E y₀.graph bubble → x ∈ bubble → bubble ∈ processed ++ new)
    (hstacked : (processed ++ new).Pairwise (Precedes y₀.graph))
    (hign : ∀ z, z ∈ y'.ignore ↔ ∃ bubble ∈ (processed ++ new).getLast?, z ∈ bubble ∧ y₀.Filtered z)
    (hmut : ∀ z, z ∈ y'.mutualRemoves ↔
      ∃ bubble ∈ (processed ++ new).getLast?, z ∈ bubble ∧ y₀.Mutual z) :
    Processed E y₀ (done ++ [x]) (y', processed ++ new) where
  progress := hprog
  bubbles bubble hmem :=
    (mem_append.mp hmem).elim (h.bubbles bubble) fun hmem => (hnew bubble hmem).1
  entered {z bubble} hz hbub hmem := by
    rcases mem_append.mp hz with hz | hz
    · exact mem_append_left _ (h.entered hz hbub hmem)
    · rw [mem_singleton.mp hz] at hmem
      exact hent bubble hbub hmem
  met bubble hmem := by
    rcases mem_append.mp hmem with hmem | hmem
    · obtain ⟨z, hz, hz'⟩ := h.met bubble hmem
      exact ⟨z, mem_append_left _ hz, hz'⟩
    · exact ⟨x, mem_append_right _ mem_cons_self, (hnew bubble hmem).2⟩
  stacked := hstacked
  ignore := hign
  mutualRemoves := hmut

section Next

variable (hy : y₀.History) {done rest : List OP} {x : OP} {processed : List (Finset OP)}
  (htopo : E.graph.topo y₀.graph = done ++ x :: rest) (h : Processed E y₀ done (y, processed))
include hy htopo h

theorem Processed.applyOperation (hnone : ∀ bubble, IsBubble E y₀.graph bubble → x ∉ bubble) :
    ∃ y', StrongRemove.applyOperation E y x = (.ok y' : Outcome ε _) ∧
      Processed E y₀ (done ++ [x]) (y', processed) := by
  have hx : x ∈ y₀.graph.nodes := by
    rw [← E.graph.mem_topo hy.acyclic, htopo]
    simp
  obtain ⟨hfilt, hmut⟩ := not_filtered_of_no_bubble hy hnone
  have hout : ¬∃ bubble ∈ processed, x ∈ bubble := by
    rintro ⟨bubble, hbub, hmem⟩
    exact hnone bubble (h.bubbles bubble hbub) hmem
  have hnotIgnored : x ∉ y.ignore := by
    intro hmem
    obtain ⟨_, -, -, hx⟩ := (h.ignore x).mp hmem
    exact hfilt hx
  have hnotMutual : x ∉ y.mutualRemoves := by
    intro hmem
    obtain ⟨_, -, -, hx⟩ := (h.mutualRemoves x).mp hmem
    exact hmut hx
  obtain ⟨y', hstep, hprog, hign, hmutual'⟩ := h.progress.applyOperation
    hy hx (fun hold => hold.elim (E.graph.not_mem_done hy.acyclic htopo) hout)
    (fun a hadj => Or.inl (E.graph.topo_order hy.acyclic htopo a hadj))
    (iff_of_false hnotIgnored hfilt) (iff_of_false hnotMutual hmut)
  have hcat := h.concat (x := x) y' []
  rw [append_nil, hign, hmutual'] at hcat
  refine ⟨y', hstep, hcat (hprog.congr fun z => ?_) (by simp) ?_ h.stacked h.ignore h.mutualRemoves⟩
  · rw [mem_append, mem_singleton, or_right_comm]
  · exact fun bubble hbub hmem => absurd hmem (hnone bubble hbub)

theorem Processed.processBubble (hbub : IsBubble E y₀.graph bubble) (hx : x ∈ bubble)
    (hold : bubble ∉ processed) :
    ∃ y', StrongRemove.processBubble E y bubble = (.ok y' : Outcome ε _) ∧
      Processed E y₀ (done ++ [x]) (y', processed ++ [bubble]) := by
  have hnew : ∀ z ∈ bubble, ¬(z ∈ done ∨ ∃ bubble' ∈ processed, z ∈ bubble') := by
    rintro z hz (hdone | ⟨bubble', hbubble', hz'⟩)
    · exact hold (h.entered hdone hbub hz)
    · rw [bubble_eq_of_mem hbub (h.bubbles bubble' hbubble') hz hz'] at hold
      exact hold hbubble'
  have hdeps {a z : OP} (hz : z ∈ bubble) (hadj : y₀.graph.Adj a z) :
      (a ∈ done ∨ ∃ bubble' ∈ processed, a ∈ bubble') ∨ a ∈ bubble := by
    by_cases ha : a ∈ bubble
    · exact Or.inr ha
    · -- what is before one operation of the bubble is before all of them
      refine Or.inl (Or.inl (E.graph.topo_before hy.acyclic htopo ?_))
      refine Incomparability.below_of_sameComponent_right
        (fun _ _ _ => DiGraphMap.Before.trans) hadj.left_mem hadj.before ?_ ?_
      · rw [sameComponent_iff_sameBubble]
        exact fun hsame => ha ((mem_bubble_iff hbub hz).mpr hsame.symm)
      · rw [sameComponent_iff_sameBubble, ← mem_bubble_iff hbub hz]
        exact hx
  obtain ⟨y', hstep, hprog, hign, hmut⟩ := h.progress.processBubble hy hbub hnew hdeps
  refine ⟨y', hstep, h.concat y' [bubble] (hprog.congr fun z => ?_) ?_ ?_ ?_ (by simpa) (by simpa)⟩
  · grind
  · intro bubble' hmem
    rw [mem_singleton.mp hmem]
    exact ⟨hbub, hx⟩
  · intro bubble' hbubble' hmem
    rw [bubble_eq_of_mem hbub hbubble' hx hmem]
    exact mem_append_right _ mem_cons_self
  · rw [pairwise_append]
    refine ⟨h.stacked, pairwise_singleton _ _, ?_⟩
    intro bubble' hmem bubble'' hmem'
    rw [mem_singleton.mp hmem']
    refine h.precedes hy htopo hbub hx hmem ?_
    rintro rfl
    exact hold hmem

end Next

theorem processNext_spec (hy : y₀.History) {done rest : List OP}
    (htopo : E.graph.topo y₀.graph = done ++ x :: rest) (h : Processed E y₀ done acc) :
    ∃ acc', processNext E (concurrentBubbles E.ops E.graph y₀.graph) acc x =
        (.ok acc' : Outcome ε _) ∧ Processed E y₀ (done ++ [x]) acc' := by
  obtain ⟨y, processed⟩ := acc
  unfold processNext
  split
  · rename_i hfind
    obtain ⟨y', hstep, hnext⟩ := h.applyOperation (ε := ε) hy htopo (by simpa using hfind)
    exact ⟨(y', processed), by simp [hstep], hnext⟩
  · rename_i bubble hfind
    have hbub : IsBubble E y₀.graph bubble := mem_of_find?_eq_some hfind
    have hx : x ∈ bubble := by simpa using find?_some hfind
    split
    · rename_i hold
      have hcat := h.concat (x := x) y []
      rw [append_nil] at hcat
      refine ⟨_, rfl, hcat (h.progress.congr fun z => ?_) (by simp) ?_ h.stacked h.ignore
        h.mutualRemoves⟩
      · rw [mem_append, mem_singleton, or_right_comm, or_iff_left_iff_imp]
        rintro rfl
        exact Or.inr ⟨bubble, hold, hx⟩
      · intro bubble' hbubble' hmem
        rw [← bubble_eq_of_mem hbub hbubble' hx hmem]
        exact hold
    · rename_i hold
      obtain ⟨y', hstep, hnext⟩ := h.processBubble (ε := ε) hy htopo hbub hx hold
      exact ⟨(y', processed ++ [bubble]), by simp [hstep], hnext⟩

theorem process_eq (hy : y.History) :
    ∃ y' processed, process E y = .ok y' ∧
      Processed E y (E.graph.topo y.graph) (y', processed) := by
  obtain ⟨⟨y', processed⟩, hrun, h⟩ := foldlM_spec
    (f := (processNext E (concurrentBubbles E.ops E.graph y.graph) :
      _ → _ → Outcome (GroupCrdtInnerError OP) _)) (Processed E y) (E.graph.topo y.graph)
    ({ y with ignore := ∅, mutualRemoves := ∅ }, [])
    ⟨⟨⟨rfl, rfl⟩, by simp, by simp⟩, by simp, by simp, by simp, by simp, by simp, by simp⟩
    (fun done x rest acc htopo h => processNext_spec hy htopo h)
  exact ⟨y', processed, by simp [process, hrun], h⟩

theorem process_spec (hy : y.History) :
    ∃ y', process E y = .ok y' ∧ SameGraph y y' ∧ (∀ x ∈ y.graph.nodes, y'.ResolvedAt x) ∧
      ∀ z ∈ y'.ignore, z ∈ y.graph.nodes := by
  obtain ⟨y', processed, hrun, h⟩ := process_eq hy
  refine ⟨y', hrun, h.progress.same, fun x hx => ?_, fun z hz => ?_⟩
  · exact h.progress.resolved x (Or.inl ((E.graph.mem_topo hy.acyclic).mpr hx))
  · obtain ⟨bubble, hbub, hmem, -⟩ := (h.ignore z).mp hz
    exact mem_nodes_of_mem_bubble (h.bubbles bubble (mem_of_getLast? hbub)) hmem

end StrongRemove

end P2Panda.Auth.Group
