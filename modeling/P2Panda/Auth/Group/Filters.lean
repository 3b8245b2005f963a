import P2Panda.Auth.Group.Runs

/-!
# What the filters cover

Every bubble replaces the filters of the one before. So in the end they hold the cancelled
operations and mutual removes of the last bubble only.
-/

namespace P2Panda.Auth.Group.GroupCrdt

open Relation GroupCrdtInnerState StrongRemove

variable {ID OP C : Type} [DecidableEq ID] [DecidableEq OP]
variable {y : GroupCrdtInnerState ID OP C} {x : OP} {E : Runtime ID OP}

/-- The operation takes a manager away, on a cycle of the authority graph of its bubble. -/
def MutualInBubble (E : Runtime ID OP) (y : GroupCrdtInnerState ID OP C) (x : OP) : Prop :=
  ∃ bubble, IsBubble E y.graph bubble ∧ x ∈ bubble ∧
    ∃ o, y.Has x o ∧ o.removedOrDemotedManager.isSome ∧
      OnAuthorityCycle (bubbleGraph E y.graph bubble)
        (fun a b op => y.Removes o.groupId a b op ∧ op ∈ bubble)
        (fun a b op => y.Delegates o.groupId a b op ∧ op ∈ bubble) x

/-- No bubble comes after the operation's own. -/
def InLastBubble (y : GroupCrdtInnerState ID OP C) (x : OP) : Prop :=
  ∀ z z', y.graph.Concurrent z z' → SameBubble y.graph x z ∨ y.graph.Before z x

theorem mutualInBubble_iff (hy : y.History) : MutualInBubble E y x ↔ y.Mutual x := by
  constructor
  · rintro ⟨bubble, hbub, hx, o, hhas, hrmd, hcyc⟩
    refine ⟨o, hhas, hrmd, ?_⟩
    exact (onAuthorityCycle_bubble hbub hy.acyclic mem_nodes_of_isEntry hx).mp hcyc
  · rintro ⟨o, hhas, hrmd, hcyc⟩
    obtain ⟨z, hz⟩ := hcyc.exists_concurrent hy.acyclic hhas
    obtain ⟨bubble, hbub, hx⟩ := exists_bubble hz
    exact ⟨bubble, hbub, hx, o, hhas, hrmd,
      (onAuthorityCycle_bubble hbub hy.acyclic mem_nodes_of_isEntry hx).mpr hcyc⟩

variable [Conditions C] {bubble : Finset OP}

structure IsLast (E : Runtime ID OP) (y : GroupCrdtInnerState ID OP C) (bubble : Finset OP) :
    Prop where
  isBubble : IsBubble E y.graph bubble
  last : ∀ bubble', IsBubble E y.graph bubble' → bubble' = bubble ∨ Precedes y.graph bubble' bubble

omit [Conditions C] in
theorem IsLast.mem_iff (hy : y.History) (h : IsLast E y bubble) {z : OP}
    (hconc : y.graph.Concurrent x z) : x ∈ bubble ↔ InLastBubble y x := by
  constructor
  · intro hx w w' hw
    obtain ⟨bubble', hbubble', hmem⟩ := exists_bubble hw
    rcases h.last bubble' hbubble' with rfl | hbef
    · exact Or.inl ((mem_bubble_iff hbubble' hx).mp hmem)
    · exact Or.inr (hbef w hmem x hx)
  · intro hx
    obtain ⟨own, hown, hmem⟩ := exists_bubble hconc
    rcases h.last own hown with rfl | hbef
    · exact hmem
    · -- any operation of the last bubble would have to come before `x`
      obtain ⟨w, hw⟩ := nonempty_bubble h.isBubble
      obtain ⟨w', hw'⟩ := exists_concurrent_of_mem_bubble h.isBubble hw
      rcases hx w w' hw' with hsame | hafter
      · exact (mem_bubble_iff h.isBubble hw).mpr hsame.symm
      · exact absurd ((hbef x hmem w hw).trans hafter) (hy.acyclic x)

theorem isLast_of_processed (hy : y.History) {y' : GroupCrdtInnerState ID OP C}
    {processed : List (Finset OP)} (h : Processed E y (E.graph.topo y.graph) (y', processed))
    (hlast : processed.getLast? = some bubble) : IsLast E y bubble := by
  refine ⟨h.bubbles bubble (List.mem_of_getLast? hlast), ?_⟩
  intro bubble' hbubble'
  obtain ⟨z, hz⟩ := nonempty_bubble hbubble'
  have hmet : z ∈ E.graph.topo y.graph :=
    (E.graph.mem_topo hy.acyclic).mpr (mem_nodes_of_mem_bubble hbubble' hz)
  have hent : bubble' ∈ processed := h.entered hmet hbubble' hz
  have hstacked : processed.Pairwise (Precedes y.graph) := h.stacked
  obtain ⟨earlier, rfl⟩ := List.getLast?_eq_some_iff.mp hlast
  rcases List.mem_append.mp hent with hearlier | hsame
  · exact Or.inr ((List.pairwise_append.mp hstacked).2.2 bubble' hearlier bubble (by simp))
  · exact Or.inl (List.mem_singleton.mp hsame)

theorem process_filters (hy : y.History) (E : Runtime ID OP) :
    ∃ y', StrongRemove.process E y = .ok y' ∧
      (∀ x, x ∈ y'.ignore ↔ InLastBubble y x ∧ y.Filtered x) ∧
      ∀ x, x ∈ y'.mutualRemoves ↔ InLastBubble y x ∧ y.Mutual x := by
  obtain ⟨y', processed, hrun, h⟩ := StrongRemove.process_eq hy
  have hmem {P : Prop} {x : OP} (hP : P → ∃ z, y.graph.Concurrent x z) :
      (∃ bubble ∈ processed.getLast?, x ∈ bubble ∧ P) ↔ InLastBubble y x ∧ P := by
    by_cases hx : P
    · obtain ⟨z, hconc⟩ := hP hx
      obtain ⟨own, hown, hmem⟩ := exists_bubble hconc
      have hmet : x ∈ E.graph.topo y.graph := (E.graph.mem_topo hy.acyclic).mpr hconc.1
      have hent : own ∈ processed := h.entered hmet hown hmem
      cases hlast : processed.getLast? with
      | none =>
        rw [List.getLast?_eq_none_iff.mp hlast] at hent
        cases hent
      | some bubble =>
        rw [← (isLast_of_processed hy h hlast).mem_iff hy hconc]
        simp
    · simp [hx]
  refine ⟨y', hrun, fun x => ?_, fun x => ?_⟩
  · rw [h.ignore]
    apply hmem
    rintro ⟨_, r, _, -, -, hconc, -⟩
    exact ⟨r, hconc.symm⟩
  · rw [h.mutualRemoves]
    apply hmem
    rintro ⟨o, hhas, -, hcyc⟩
    exact hcyc.exists_concurrent hy.acyclic hhas

/-- The filters cover the whole graph exactly if all they should hold is in the last bubble. -/
theorem filters_cover_iff {ops : List (Operation ID OP C)} (h : Run ops y) (E : Runtime ID OP) :
    ∃ y', StrongRemove.process E y = .ok y' ∧
      ((∀ x, x ∈ y'.ignore ↔ y.Filtered x) ∧
          (∀ x, x ∈ y'.mutualRemoves ↔ MutualInBubble E y x) ↔
        ∀ x, y.Filtered x ∨ MutualInBubble E y x → InLastBubble y x) := by
  have hy := h.consistent.history
  obtain ⟨y', hrun, hign, hmut⟩ := process_filters hy E
  refine ⟨y', hrun, ?_⟩
  simp only [hign, hmut, mutualInBubble_iff hy]
  constructor
  · rintro ⟨hfilt, hmut⟩ x (hx | hx)
    · exact ((hfilt x).mpr hx).1
    · exact ((hmut x).mpr hx).1
  · intro hlast
    exact ⟨fun x => and_iff_right_of_imp fun hx => hlast x (Or.inl hx),
      fun x => and_iff_right_of_imp fun hx => hlast x (Or.inr hx)⟩

def removedEachOther : List (Operation Nat Nat Unit) :=
  [⟨0, 1, [], 9, createManagers [1, 2, 3, 4]⟩, ⟨1, 1, [0], 9, .remove (.individual 2)⟩,
    ⟨2, 2, [0], 9, .remove (.individual 1)⟩]

theorem filters_cover_removedEachOther : ∃ y, Run removedEachOther y ∧
    ∃ y', StrongRemove.process .reference y = .ok y' ∧ (∀ x, x ∈ y'.ignore ↔ y.Filtered x) ∧
      ∀ x, x ∈ y'.mutualRemoves ↔ MutualInBubble .reference y x := by
  obtain ⟨y, h, hall, hnds, hnodes', hmut⟩ := Run.of_returns
    (p := fun y => (∀ a ∈ y.graph.nodes, ∀ b ∈ y.graph.nodes,
        isConcurrent Runtime.reference.graph y.graph a b = true → a = 1 ∨ a = 2) ∧
      1 ∈ y.graph.nodes ∧ 2 ∈ y.graph.nodes ∧
      isConcurrent Runtime.reference.graph y.graph 1 2 = true)
    .reference removedEachOther (by decide +kernel)
  have hacyc := h.consistent.history.acyclic
  have hconc {a b : Nat} (hab : y.graph.Concurrent a b) : a = 1 ∨ a = 2 :=
    hall a hab.1 b hab.2.1 ((isConcurrent_iff hacyc hab.1 hab.2.1).mpr hab)
  have hsame : SameBubble y.graph 1 2 :=
    ReflTransGen.single ((isConcurrent_iff hacyc hnds hnodes').mp hmut)
  have hlast {x z : Nat} (hx : y.graph.Concurrent x z) : InLastBubble y x := by
    intro w w' hw
    left
    rcases hconc hx with rfl | rfl
    · rcases hconc hw with rfl | rfl
      · exact SameBubble.refl _
      · exact hsame
    · rcases hconc hw with rfl | rfl
      · exact hsame.symm
      · exact SameBubble.refl _
  obtain ⟨y', hrun, hcover⟩ := filters_cover_iff h .reference
  refine ⟨y, h, y', hrun, hcover.mpr ?_⟩
  rintro x (⟨_, r, _, -, -, hr, -⟩ | hx)
  · exact hlast hr.symm
  · obtain ⟨o, hhas, -, hcyc⟩ := (mutualInBubble_iff h.consistent.history).mp hx
    obtain ⟨z, hz⟩ := hcyc.exists_concurrent hacyc hhas
    exact hlast hz

def removedEachOtherThenAdds : List (Operation Nat Nat Unit) :=
  removedEachOther ++ [⟨3, 3, [1, 2], 9, .add (.individual 5) .read⟩,
    ⟨4, 3, [3], 9, .add (.individual 6) .read⟩, ⟨5, 4, [3], 9, .add (.individual 7) .read⟩]

/-- Each removal cancels the other, but the filters are empty. -/
theorem filters_lost_removedEachOtherThenAdds : ∃ y, Run removedEachOtherThenAdds y ∧
    y.Filtered 1 ∧ y.Filtered 2 ∧
    ∃ y', StrongRemove.process .reference y = .ok y' ∧ y'.ignore = ∅ ∧ y'.mutualRemoves = ∅ := by
  obtain ⟨y, h, hconc, hnds, hnodes', y', hrun, hign⟩ := Run.of_returns
    (p := fun y => isConcurrent Runtime.reference.graph y.graph 1 2 = true ∧
      1 ∈ y.graph.nodes ∧ 2 ∈ y.graph.nodes ∧
      (StrongRemove.process .reference y).Returns fun y' => y'.ignore = ∅ ∧ y'.mutualRemoves = ∅)
    .reference removedEachOtherThenAdds (by decide +kernel)
  have hacyc := h.consistent.history.acyclic
  have hconc := (isConcurrent_iff hacyc hnds hnodes').mp hconc
  have hfst : y.Has 1 ⟨1, 1, [0], 9, .remove (.individual 2)⟩ := h.has_iff.mpr (by decide)
  have hsnd : y.Has 2 ⟨2, 2, [0], 9, .remove (.individual 1)⟩ := h.has_iff.mpr (by decide)
  exact ⟨y, h, ⟨_, _, _, hfst, hsnd, hconc.symm, by decide⟩,
    ⟨_, _, _, hsnd, hfst, hconc, by decide⟩, y', hrun, hign⟩

end P2Panda.Auth.Group.GroupCrdt
