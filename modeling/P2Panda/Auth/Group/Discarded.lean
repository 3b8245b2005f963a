import P2Panda.Auth.Group.Authority

/-!
# Discarded removals

A removal by a removed member is filtered, but still filters others. It has no influence if it
cancels nothing that is not cancelled without it.
-/

namespace P2Panda.Auth.Group

open P2Panda.Library Finset StrongRemove

namespace GroupCrdtInnerState

variable {ID OP C : Type} [DecidableEq OP] {y y' : GroupCrdtInnerState ID OP C}
variable {o r : Operation ID OP C}

theorem isExtension_of_has (h : y.History) (h' : y'.History) (hfresh : o.id ∉ y.graph.nodes)
    (hhas : ∀ {x ox}, y'.Has x ox ↔ x = o.id ∧ ox = o ∨ y.Has x ox) : IsExtension y y' o := by
  have hnew : y'.Has o.id o := hhas.mpr (Or.inl ⟨rfl, rfl⟩)
  have hnds : ∀ x, x ∈ y'.graph.nodes ↔ x = o.id ∨ x ∈ y.graph.nodes := by
    intro x
    constructor
    · intro hx
      obtain ⟨ox, hox⟩ := h'.known hx
      exact (hhas.mp hox).imp And.left fun hold => hold.1
    · rintro (rfl | hx)
      · exact hnew.1
      · obtain ⟨ox, hox⟩ := h.known hx
        exact (hhas.mpr (Or.inr hox)).1
  refine ⟨⟨hfresh, ?_, ?_, ?_⟩, hhas⟩
  · ext x
    rw [hnds, mem_insert]
  · intro d hd
    have hadj := (h'.adj hnew).mpr hd
    refine ((hnds d).mp hadj.left_mem).resolve_left ?_
    rintro rfl
    exact h'.acyclic _ hadj.before
  · intro a b
    constructor
    · intro hadj
      obtain ⟨ob, hob⟩ := h'.known hadj.right_mem
      have hdep := (h'.adj hob).mp hadj
      rcases hhas.mp hob with ⟨rfl, rfl⟩ | hold
      · exact Or.inr ⟨rfl, hdep⟩
      · exact Or.inl ((h.adj hold).mpr hdep)
    · rintro (hadj | ⟨rfl, hdep⟩)
      · obtain ⟨ob, hob⟩ := h.known hadj.right_mem
        exact (h'.adj (hhas.mpr (Or.inr hob))).mpr ((h.adj hob).mp hadj)
      · exact (h'.adj hnew).mpr hdep

theorem IsExtension.not_onCycle_of_not_mutual (h : IsExtension y y' r)
    (hrmv : r.removedOrDemotedManager.isSome) (hmut : ¬y'.Mutual r.id) (groupId : ID) :
    ¬y'.OnCycle groupId r.id := by
  intro hcyc
  obtain ⟨actor, node, hedge⟩ := hcyc.exists_edge
  obtain ⟨o', ho', hgrp, -⟩ := exists_has_of_isEntry hedge.isEntry_source
  cases ho'.unique h.has_new
  exact hmut ((mutual_iff h.has_new).mpr ⟨hrmv, hgrp ▸ hcyc⟩)

variable [DecidableEq ID] [Conditions C]

theorem ResolvedFrom.eq_of_filtered {x : OP} {base : GroupStates ID C}
    (hfrom : y.ResolvedFrom x o base) (hcrt : o.action.isCreate = false)
    (hfilt : y.Filtered x) (hmut : ¬y.Mutual x) : y.stateOf x = base := by
  obtain ⟨members, hmbrs⟩ := Option.isSome_iff_exists.mp
    (hfrom.present.resolve_left (by simp [hcrt]))
  have hresd : y.resolvedMembers x o (base.lookup o.groupId) = members := by
    simp [resolvedMembers, resolveMembers, hfilt, hmut, hcrt, hmbrs]
  rw [stateOf_eq hfrom.state, hresd, HashMap.insert_lookup_self hmbrs]

/-- An operation that changes neither the states of others nor the merge of its dependencies is not
seen in the current one. -/
theorem IsExtension.ranks_currentState_eq (hext : IsExtension y y' o) (h : y.Resolved)
    (h' : y'.Resolved) {groupId : ID} (hy' : y'.UnconditionalIn groupId)
    (honce : y.CreatedBefore o.dependencies.toFinset groupId → y.CreatedOnceIn groupId)
    (hold : ∀ x ∈ y.graph.nodes, (y.stateOf x).ranks groupId = (y'.stateOf x).ranks groupId)
    (hnew : (y'.stateOf o.id).ranks groupId =
      o.dependencies.toFinset.sup fun d => (y'.stateOf d).ranks groupId)
    {states states' : GroupStates ID C} (hjoin : IsJoin y.stateOf y.headsGlobal states)
    (hjoin' : IsJoin y'.stateOf y'.headsGlobal states') :
    states.ranks groupId = states'.ranks groupId := by
  have hy : y.UnconditionalIn groupId := fun hx => hy' (hext.has_old hx)
  have hdep : ∀ d ∈ o.dependencies.toFinset, d ∈ y.graph.nodes :=
    fun d hd => hext.graph.deps_mem (List.mem_toFinset.mp hd)
  rw [hext.ranks_currentState h' hy' hold hjoin', hnew]
  apply le_antisymm
  · rw [GroupCrdtInnerState.ranks_currentState h hy hjoin]
    refine Finset.sup_le fun d hd => ?_
    by_cases hmem : d ∈ o.dependencies.toFinset
    · rw [hold d (hdep d hmem)]
      exact le_sup_of_le_left (le_sup (f := fun d => (y'.stateOf d).ranks groupId) hmem)
    · exact le_sup_of_le_right (le_sup (f := fun d => (y.stateOf d).ranks groupId)
        (mem_sdiff.mpr ⟨hd, hmem⟩))
  · refine sup_le (Finset.sup_le fun d hd => ?_) (Finset.sup_le fun d hd => ?_)
    · rw [← hold d (hdep d hd)]
      cases hlook : (y.stateOf d).lookup groupId with
      | none => simp [GroupStates.ranks, hlook]
      | some group =>
        obtain ⟨c, oc, hc, hcrt, hgrp, hrch⟩ :=
          (h.present_stateOf (hdep d hd)).mp (Option.isSome_of_eq_some hlook)
        exact ranks_le_currentState h (honce ⟨c, oc, hc, hcrt, hgrp, d, hd, hrch⟩) hy hjoin
          (hdep d hd)
    · rw [GroupCrdtInnerState.ranks_currentState h hy hjoin]
      exact le_sup (f := fun d => (y.stateOf d).ranks groupId) (mem_sdiff.mp hd).1

end GroupCrdtInnerState

namespace GroupCrdt

open GroupCrdtInnerState

variable {ID OP C ε : Type} [DecidableEq ID] [DecidableEq OP] [Conditions C]

section Compare

variable {ops ops' : List (Operation ID OP C)} {y y' : GroupCrdtInnerState ID OP C}
variable {r : Operation ID OP C}

theorem Run.isExtension (h : Run ops y) (h' : Run ops' y')
    (hops : ∀ o, o ∈ ops ↔ o = r ∨ o ∈ ops') (hnot : r ∉ ops') : IsExtension y' y r := by
  refine isExtension_of_has h'.consistent.history h.consistent.history (fun hold => ?_)
    fun {x ox} => ?_
  · obtain ⟨o, ho⟩ := h'.consistent.history.known hold
    obtain ⟨hmem, hid⟩ := h'.has_iff.mp ho
    have hr : y.Has r.id r := h.has_iff.mpr ⟨(hops r).mpr (Or.inl rfl), rfl⟩
    have heq := hr.unique (h.has_iff.mpr ⟨(hops o).mpr (Or.inr hmem), hid⟩)
    exact hnot (heq ▸ hmem)
  · rw [h.has_iff, h'.has_iff, hops]
    constructor
    · rintro ⟨rfl | hmem, rfl⟩
      · exact Or.inl ⟨rfl, rfl⟩
      · exact Or.inr ⟨hmem, rfl⟩
    · rintro (⟨rfl, rfl⟩ | ⟨hmem, rfl⟩)
      · exact ⟨Or.inl rfl, rfl⟩
      · exact ⟨Or.inr hmem, rfl⟩

/-- What the removal cancels is cancelled by another one as well, or is a mutual remove, which is
applied anyway. -/
def CancelsNothingAlone (E : Runtime ID OP) (y : GroupCrdtInnerState ID OP C)
    (r : Operation ID OP C) : Prop :=
  ∀ {x ox}, y.Has x ox → y.graph.Concurrent r.id x → Cancels r ox →
    StrongRemove.OnBubbleCycle E y x ox ∨
    ∃ z rz, z ≠ r.id ∧ y.Has z rz ∧ y.graph.Concurrent z x ∧ Cancels rz ox

omit [Conditions C] in
/-- The rules say the same without a removal on no cycle that cancels nothing alone. -/
theorem rules_without_discarded (hy : y.History) (hext : IsExtension y' y r)
    (hrmv : r.removedOrDemotedManager.isSome) (hmut : ¬y.Mutual r.id) {E : Runtime ID OP}
    (hcanc : CancelsNothingAlone E y r) {x : OP} {ox : Operation ID OP C} (hx : y'.Has x ox) :
    (y'.Mutual x ↔ y.Mutual x) ∧ (¬y'.Mutual x → (y'.Filtered x ↔ y.Filtered x)) := by
  have hsame := hext.mutual_old hx (hext.not_onCycle_of_not_mutual hrmv hmut ox.groupId)
  refine ⟨hsame.symm, fun hx' => ?_⟩
  rw [hext.filtered_old hx, iff_self_or]
  rintro ⟨hconc, hcancel⟩
  rcases hcanc (hext.has_old hx) hconc hcancel with hcyc | ⟨z, rz, hne, hz, hzx, hcancel'⟩
  · have hmutual' := (onBubbleCycle_iff hy (hext.has_old hx) E).mp hcyc
    exact absurd (hsame.mp hmutual') hx'
  · have hz' := (hext.has.mp hz).resolve_left fun heq => hne heq.1
    exact ⟨ox, z, rz, hx, hz', (hext.graph.concurrent_old hz'.1 hx.1).mp hzx, hcancel'⟩

/-- A discarded removal that cancels nothing alone has no influence on a group whose operations give
no conditions, and which is created once if it is there before the removal. So the current states
are the same if all groups are such. -/
theorem currentState_eq_without_discarded (h : Run ops y) (h' : Run ops' y')
    (hops : ∀ o, o ∈ ops ↔ o = r ∨ o ∈ ops') (hnot : r ∉ ops')
    (hremoval : r.removedOrDemotedManager.isSome)
    (hremoved : ∃ z rz, y.Has z rz ∧ y.graph.Concurrent z r.id ∧ rz.groupId = r.groupId ∧
      rz.removedOrDemotedManager = some r.author)
    {E₀ : Runtime ID OP} (hcycle : ¬StrongRemove.OnBubbleCycle E₀ y r.id r)
    (hcancels : CancelsNothingAlone E₀ y r) (E E' : Runtime ID OP) :
    ∃ states states', y.currentState E = (.ok states : Outcome ε _) ∧
      y'.currentState E' = (.ok states' : Outcome ε _) ∧
      ∀ groupId, y.UnconditionalIn groupId →
        (y.CreatedBefore r.dependencies.toFinset groupId → y.CreatedOnceIn groupId) →
        states.lookup groupId = states'.lookup groupId := by
  have hc := h.consistent.toResolved
  have hc' := h'.consistent.toResolved
  have hext := h.isExtension h' hops hnot
  have hr := hext.has_new
  have hmut : ¬y.Mutual r.id := mt (onBubbleCycle_iff hc.history hr E₀).mpr hcycle
  have hfilt : y.Filtered r.id := by
    obtain ⟨z, rz, hz, hconc, hgrp, hauthor⟩ := hremoved
    refine ⟨r, z, rz, hr, hz, hconc, r.author, hauthor, ?_⟩
    simp [isRemoved, hgrp]
  obtain ⟨states, hsts, hjoin⟩ := hc.currentState E
  obtain ⟨states', hstates', hjoin'⟩ := hc'.currentState E'
  refine ⟨states, states', hsts, hstates', fun groupId hy honce => Eq.symm ?_⟩
  have hy' : y'.UnconditionalIn groupId := fun hx => hy (hext.has_old hx)
  have honce' : y'.CreatedBefore r.dependencies.toFinset groupId → y'.CreatedOnceIn groupId := by
    rintro ⟨c, oc, hcr, hcrt, hgrp, d, hd, hrch⟩ c1 c2 o1 o2 h1 h2
    refine honce ⟨c, oc, hext.has_old hcr, hcrt, hgrp, d, hd, ?_⟩ (hext.has_old h1)
      (hext.has_old h2)
    exact (reaches_iff_of_subset hc'.history hc.history hext.has_old
      (hext.graph.deps_mem (List.mem_toFinset.mp hd))).mp hrch
  apply GroupStates.lookup_eq_of_ranks (hc'.grantsOnly_currentState hy'.grantsOnly hjoin')
    (hc.grantsOnly_currentState hy.grantsOnly hjoin)
  refine hext.ranks_currentState_eq hc' hc hy honce' (fun x hx => ?_) ?_ hjoin' hjoin
  · rw [GroupStates.ranks, GroupStates.ranks, lookup_stateOf_eq hc' hc hext.has_old
      (mergesAlike_of_unconditional hc' hc hy hext.has_old)
      (fun hx _ => rules_without_discarded hc.history hext hremoval hmut hcancels hx) hx]
  · -- The removal stores what it found.
    obtain ⟨o, base, ho, hfrom⟩ := hc.resolved r.id hr.1
    cases ho.unique hr
    obtain ⟨removed, hsome⟩ := Option.isSome_iff_exists.mp hremoval
    rw [hfrom.eq_of_filtered (Operation.not_isCreate_of_removed hsome) hfilt hmut]
    exact hfrom.ranks_base hc hy hr

end Compare

/-- The first of three managers removes the second, while the third adds somebody. -/
def removalBesideBystander : List (Operation Nat Nat Unit) :=
  [⟨0, 1, [], 9, createManagers [1, 2, 3]⟩, ⟨1, 1, [0], 9, .remove (.individual 2)⟩,
    ⟨2, 3, [0], 9, .add (.individual 4) .read⟩]

def backdated : Operation Nat Nat Unit := ⟨3, 2, [0], 9, .remove (.individual 3)⟩

/-- The first manager has removed the third as well, so the add is cancelled either way. -/
theorem currentState_eq_without_backdated : ∃ y y',
    Run (removalBesideBystander ++ [⟨4, 1, [1], 9, .remove (.individual 3)⟩, backdated]) y ∧
    Run (removalBesideBystander ++ [⟨4, 1, [1], 9, .remove (.individual 3)⟩]) y' ∧
    ∃ states, y.currentState .reference = (.ok states : Outcome Empty _) ∧
      y'.currentState .reference = (.ok states : Outcome Empty _) := by
  obtain ⟨y, h, hconc, hconcurrent', hcyc⟩ := Run.of_returns
    (p := fun y => isConcurrent Runtime.reference.graph y.graph 1 3 = true ∧
      isConcurrent Runtime.reference.graph y.graph 4 2 = true ∧
      ¬OnBubbleCycle .reference y backdated.id backdated)
    .reference (removalBesideBystander ++ [⟨4, 1, [1], 9, .remove (.individual 3)⟩, backdated])
    (by decide +kernel)
  obtain ⟨y', h', -⟩ := Run.of_returns (p := fun _ => True) .reference
    (removalBesideBystander ++ [⟨4, 1, [1], 9, .remove (.individual 3)⟩]) (by decide +kernel)
  have hacyc := h.consistent.history.acyclic
  have h1 : y.Has 1 ⟨1, 1, [0], 9, .remove (.individual 2)⟩ := h.has_iff.mpr (by decide)
  have h2 : y.Has 2 ⟨2, 3, [0], 9, .add (.individual 4) .read⟩ := h.has_iff.mpr (by decide)
  have h3 : y.Has 3 backdated := h.has_iff.mpr (by decide)
  have h4 : y.Has 4 ⟨4, 1, [1], 9, .remove (.individual 3)⟩ := h.has_iff.mpr (by decide)
  have hops : ∀ o, o ∈ removalBesideBystander ++
        [⟨4, 1, [1], 9, .remove (.individual 3)⟩, backdated] ↔
      o = backdated ∨ o ∈ removalBesideBystander ++
        [⟨4, 1, [1], 9, .remove (.individual 3)⟩] := by
    simp only [removalBesideBystander, List.cons_append, List.nil_append, List.mem_cons,
      List.not_mem_nil, or_false]
    tauto
  have hcancels : CancelsNothingAlone .reference y backdated := by
    intro x ox hx _ hcancel
    have honly : ∀ o ∈ removalBesideBystander ++
        [⟨4, 1, [1], 9, .remove (.individual 3)⟩, backdated], Cancels backdated o → o.id = 2 := by
      decide
    obtain ⟨hmem, rfl⟩ := h.has_iff.mp hx
    have hid := honly ox hmem hcancel
    rw [hid] at hx ⊢
    cases h2.unique hx
    exact Or.inr ⟨4, _, by decide, h4, (isConcurrent_iff hacyc h4.1 h2.1).mp hconcurrent',
      by decide⟩
  obtain ⟨states, states', hsts, hstates', hsame⟩ := currentState_eq_without_discarded h h' hops
    (by decide) rfl ⟨1, _, h1, (isConcurrent_iff hacyc h1.1 h3.1).mp hconc, rfl, rfl⟩ hcyc hcancels
    .reference .reference
  have hy : y.Unconditional := h.unconditional (by decide)
  have honce : y.CreatedOnce := h.createdOnce (by decide)
  have heq : states = states' := Finmap.ext_lookup fun groupId =>
    hsame groupId (hy.on groupId) fun _ => honce.on groupId
  exact ⟨y, y', h, h', states, hsts, heq ▸ hstates'⟩

/-- The backdated removal is discarded, and yet the third manager's add is lost. -/
theorem discarded_removal_cancels : ∃ y y', Run (removalBesideBystander ++ [backdated]) y ∧
    Run removalBesideBystander y' ∧
    (∀ o ∈ removalBesideBystander ++ [backdated], backdated.id ∉ o.dependencies) ∧
    backdated.removedOrDemotedManager.isSome ∧
    (∃ z rz, y.Has z rz ∧ y.graph.Concurrent z backdated.id ∧ rz.groupId = backdated.groupId ∧
      rz.removedOrDemotedManager = some backdated.author) ∧
    ¬StrongRemove.OnBubbleCycle .reference y backdated.id backdated ∧
    ¬∃ states, y.currentState .reference = (.ok states : Outcome Empty _) ∧
      y'.currentState .reference = (.ok states : Outcome Empty _) := by
  obtain ⟨y, h, hconc, hcyc, states, hsts, hinact⟩ := Run.of_returns
    (p := fun y => isConcurrent Runtime.reference.graph y.graph 1 3 = true ∧
      ¬OnBubbleCycle .reference y backdated.id backdated ∧
      (y.currentState .reference : Outcome Empty _).Returns fun states =>
        ¬states.Active 9 (.individual 4))
    .reference (removalBesideBystander ++ [backdated]) (by decide +kernel)
  obtain ⟨y', h', states', hstates', hactv⟩ := Run.of_returns
    (p := fun y => (y.currentState .reference : Outcome Empty _).Returns fun states =>
      states.Active 9 (.individual 4))
    .reference removalBesideBystander (by decide +kernel)
  have hz : y.Has 1 ⟨1, 1, [0], 9, .remove (.individual 2)⟩ := h.has_iff.mpr (by decide)
  have hr : y.Has 3 backdated := h.has_iff.mpr (by decide)
  refine ⟨y, y', h, h', by decide, rfl, ⟨1, _, hz, ?_, rfl, rfl⟩, hcyc, ?_⟩
  · exact (isConcurrent_iff h.consistent.history.acyclic hz.1 hr.1).mp hconc
  · rintro ⟨_, heq, heq'⟩
    cases hsts.symm.trans heq
    cases hstates'.symm.trans heq'
    exact hinact hactv

end GroupCrdt

end P2Panda.Auth.Group
