import P2Panda.Library.Incomparability
import P2Panda.Library.Reference

/-!
# Concurrent operations in the operation graph

Finding the operations concurrent with a given one, and the bubbles of operations linked by
concurrency.
-/

namespace P2Panda.Auth

open P2Panda.Library Relation Finset DiGraphMap Incomparability

variable {OP : Type} [DecidableEq OP]

def concurrentOperations (t : Traversals OP) (graph : DiGraphMap OP) (target : OP) : Finset OP :=
  let successors := (t.dfs graph target).toFinset
  let predecessors := (t.dfs graph.reversed target).toFinset
  let relatives := successors ∪ predecessors
  graph.nodes.filter fun n => n ∉ relatives

/-- Identify all operations concurrent with the target. Returns the bubble and what is processed by
now. -/
def concurrentBubble (o : HashOrder OP) (t : Traversals OP) (graph : DiGraphMap OP)
    (target : OP) (processed : Finset OP) : Finset OP × Finset OP :=
  mark (fun op => o.iter (concurrentOperations t graph op)) graph.nodes.card target processed

/-- The loop body of `concurrentBubbles`. -/
def collectBubble (o : HashOrder OP) (t : Traversals OP) (graph : DiGraphMap OP)
    (acc : List (Finset OP) × Finset OP) (target : OP) : List (Finset OP) × Finset OP :=
  if target ∈ acc.2 then acc
  else
    let (bubble, processed) := concurrentBubble o t graph target (insert target acc.2)
    if bubble.card > 1 then (acc.1 ++ [bubble], processed) else (acc.1, processed)

def concurrentBubbles (o : HashOrder OP) (t : Traversals OP) (graph : DiGraphMap OP) :
    List (Finset OP) :=
  ((o.iter graph.nodes).foldl (collectBubble o t graph) ([], ∅)).1

def splitBubble (t : Traversals OP) (graph : DiGraphMap OP) (bubble : Finset OP) (target : OP) :
    Finset OP × Finset OP × List OP :=
  let successors := t.dfs graph target
  let concurrent := successors.foldl Finset.erase bubble
  let predecessors := t.dfs graph.reversed target
  let concurrent := predecessors.foldl Finset.erase concurrent
  (concurrent, predecessors.toFinset, successors)

def hasPath (t : Traversals OP) (graph : DiGraphMap OP) (source target : OP) : Bool :=
  source != target && t.hasPathConnecting graph source target

def isConcurrent (t : Traversals OP) (graph : DiGraphMap OP) (a b : OP) : Bool :=
  a != b && !hasPath t graph a b && !hasPath t graph b a

variable {o : HashOrder OP} {t : Traversals OP} {graph : DiGraphMap OP} {bubble : Finset OP}
  {x y : OP}

variable {target x : OP}

theorem mem_concurrentOperations :
    x ∈ concurrentOperations t graph target ↔
      x ∈ graph.nodes ∧ ¬graph.Reaches target x ∧ ¬graph.Reaches x target := by
  simp only [concurrentOperations, mem_filter, mem_union, List.mem_toFinset,
    t.mem_dfs, reaches_reversed, not_or]

theorem mem_concurrentOperations_of_mem (htgt : target ∈ graph.nodes) :
    x ∈ concurrentOperations t graph target ↔ graph.Concurrent target x := by
  rw [mem_concurrentOperations]
  constructor
  · rintro ⟨hx, htx, hxt⟩
    exact ⟨htgt, hx, htx, hxt⟩
  · rintro ⟨-, hx, htx, hxt⟩
    exact ⟨hx, htx, hxt⟩

theorem mem_foldl_erase {l : List OP} {s : Finset OP} {x : OP} :
    x ∈ l.foldl Finset.erase s ↔ x ∈ s ∧ x ∉ l := by
  induction l generalizing s with
  | nil => simp
  | cons a l ih =>
    rw [List.foldl_cons, ih]
    simp only [mem_erase, List.mem_cons]
    tauto

theorem mem_splitBubble_concurrent :
    x ∈ (splitBubble t graph bubble target).1 ↔
      x ∈ bubble ∧ ¬graph.Reaches target x ∧ ¬graph.Reaches x target := by
  simp only [splitBubble, mem_foldl_erase, t.mem_dfs, reaches_reversed, and_assoc]

theorem hasPath_iff (hg : graph.Acyclic) {a b : OP} :
    hasPath t graph a b = true ↔ graph.Before a b := by
  rw [hg.before_iff, and_comm]
  simp only [hasPath, Bool.and_eq_true, bne_iff_ne, t.hasPathConnecting_iff]

theorem isConcurrent_iff (hg : graph.Acyclic) {a b : OP} (ha : a ∈ graph.nodes)
    (hb : b ∈ graph.nodes) : isConcurrent t graph a b = true ↔ graph.Concurrent a b := by
  rw [isConcurrent]
  simp only [Bool.and_eq_true, Bool.not_eq_true', ← Bool.not_eq_true, hasPath_iff hg, bne_iff_ne]
  constructor
  · rintro ⟨⟨hne, hab⟩, hba⟩
    refine ⟨ha, hb, ?_, ?_⟩
    · rw [reaches_iff_eq_or_before]
      exact fun h => h.elim (fun heq => hne heq.symm) hab
    · rw [reaches_iff_eq_or_before]
      exact fun h => h.elim hne hba
  · intro h
    exact ⟨⟨h.ne, fun hab => h.2.2.1 hab.reaches⟩, fun hba => h.2.2.2 hba.reaches⟩

def SameBubble (graph : DiGraphMap OP) : OP → OP → Prop := ReflTransGen graph.Concurrent

omit [DecidableEq OP] in
theorem SameBubble.refl (x : OP) : SameBubble graph x x := ReflTransGen.refl

omit [DecidableEq OP] in
theorem SameBubble.symm (h : SameBubble graph x y) : SameBubble graph y x := by
  induction h with
  | refl => exact ReflTransGen.refl
  | tail _ hstep ih => exact ih.head hstep.symm

omit [DecidableEq OP] in
theorem SameBubble.trans {x y z : OP} (hxy : SameBubble graph x y) (hyz : SameBubble graph y z) :
    SameBubble graph x z :=
  ReflTransGen.trans hxy hyz

omit [DecidableEq OP] in
theorem SameBubble.mem (h : SameBubble graph x y) (hx : x ∈ graph.nodes) : y ∈ graph.nodes := by
  cases h with
  | refl => exact hx
  | tail _ hstep => exact hstep.2.1

omit [DecidableEq OP] in
theorem incomparable_iff_concurrent :
    Incomparability.Incomparable graph.Before (· ∈ graph.nodes) x y ↔ graph.Concurrent x y := by
  simp only [Incomparable, Concurrent, reaches_iff_eq_or_before, not_or]
  constructor
  · rintro ⟨hx, hy, hne, hxy, hyx⟩
    exact ⟨hx, hy, ⟨hne.symm, hxy⟩, hne, hyx⟩
  · rintro ⟨hx, hy, ⟨-, hxy⟩, hne, hyx⟩
    exact ⟨hx, hy, hne, hxy, hyx⟩

omit [DecidableEq OP] in
theorem sameComponent_iff_sameBubble :
    Incomparability.SameComponent graph.Before (· ∈ graph.nodes) x y ↔ SameBubble graph x y := by
  have hrel : Incomparable graph.Before (· ∈ graph.nodes) = graph.Concurrent := by
    funext a b
    exact propext incomparable_iff_concurrent
  rw [SameComponent, hrel, SameBubble]

/-- The state of `concurrentBubbles` after the nodes in `seen`. -/
structure BubblesFound (graph : DiGraphMap OP) (seen : List OP)
    (acc : List (Finset OP) × Finset OP) : Prop where
  seen_mem : ∀ x ∈ seen, x ∈ acc.2
  nodes : ∀ x ∈ acc.2, x ∈ graph.nodes
  closed : ∀ x ∈ acc.2, ∀ y, graph.Concurrent x y → y ∈ acc.2
  component : ∀ bubble ∈ acc.1, ∀ x ∈ bubble,
    x ∈ graph.nodes ∧ ∀ y, y ∈ bubble ↔ SameBubble graph x y
  found : ∀ x ∈ acc.2, ∀ y, graph.Concurrent x y → ∃ bubble ∈ acc.1, x ∈ bubble
  subset : ∀ bubble ∈ acc.1, bubble ⊆ acc.2
  large : ∀ bubble ∈ acc.1, 1 < bubble.card
  nodup : acc.1.Nodup

/-- The bubble collected from a fresh node is its component. -/
theorem mem_concurrentBubble {target : OP} {processed : Finset OP}
    (htgt : target ∈ graph.nodes) (hfresh : target ∉ processed)
    (hcl : ∀ x ∈ processed, ∀ y, graph.Concurrent x y → y ∈ processed) :
    (∀ x, x ∈ (concurrentBubble o t graph target (insert target processed)).1 ↔
      SameBubble graph target x) ∧
    (concurrentBubble o t graph target (insert target processed)).2 =
      processed ∪ (concurrentBubble o t graph target (insert target processed)).1 := by
  let next := fun op => o.iter (concurrentOperations t graph op)
  have hnext : ∀ v w, w ∈ next v → w ∈ graph.nodes := by
    intro v w hw
    exact (mem_concurrentOperations.mp (o.mem_iter.mp hw)).1
  have hfuel : (graph.nodes \ insert target processed).card ≤ graph.nodes.card :=
    card_le_card sdiff_subset
  have hmrk : Marked next target (insert target processed)
      (concurrentBubble o t graph target (insert target processed)) :=
    marked_mark hnext _ target _ (by simp) hfuel
  have hrch : ∀ x, ReflTransGen (Step next) target x ↔ SameBubble graph target x := by
    intro x
    constructor
    · intro h
      induction h with
      | refl => exact SameBubble.refl _
      | tail _ hstep ih =>
        exact ih.tail ((mem_concurrentOperations_of_mem (ih.mem htgt)).mp (o.mem_iter.mp hstep))
    · intro h
      induction h with
      | refl => exact ReflTransGen.refl
      | tail _ hstep ih =>
        exact ih.tail (o.mem_iter.mpr ((mem_concurrentOperations_of_mem hstep.1).mpr hstep))
  have hmem : ∀ x, x ∈ (concurrentBubble o t graph target (insert target processed)).1 ↔
      SameBubble graph target x := by
    intro x
    rw [← hrch]
    refine hmrk.mem_iff (fun v w hv hw hold => ?_) hfresh
    have hvw := (mem_concurrentOperations_of_mem (((hrch v).mp hv).mem htgt)).mp (o.mem_iter.mp hw)
    exact hcl w hold v hvw.symm
  refine ⟨hmem, ?_⟩
  rw [hmrk.shared, insert_union, insert_eq_of_mem]
  exact mem_union_right _ hmrk.target_mem

omit [DecidableEq OP] in
theorem BubblesFound.start : BubblesFound graph [] ([], ∅) := by
  constructor <;> simp

theorem BubblesFound.step {seen : List OP} {acc : List (Finset OP) × Finset OP} {target : OP}
    (h : BubblesFound graph seen acc) (htgt : target ∈ graph.nodes) :
    BubblesFound graph (seen ++ [target]) (collectBubble o t graph acc target) := by
  unfold collectBubble
  by_cases hold : target ∈ acc.2
  · rw [if_pos hold]
    refine { h with seen_mem := ?_ }
    rw [List.forall_mem_append, List.forall_mem_singleton]
    exact ⟨h.seen_mem, hold⟩
  rw [if_neg hold]
  obtain ⟨hmem, hshared⟩ := mem_concurrentBubble htgt hold h.closed
  set result := concurrentBubble o t graph target (insert target acc.2) with hres
  have hself : target ∈ result.1 := (hmem target).mpr (SameBubble.refl _)
  have hmore : acc.2 ⊆ result.2 := by
    rw [hshared]
    exact subset_union_left
  have hadd : result.1 ⊆ result.2 := by
    rw [hshared]
    exact subset_union_right
  have hseen : ∀ x ∈ seen ++ [target], x ∈ result.2 := by
    rw [List.forall_mem_append, List.forall_mem_singleton]
    exact ⟨fun x hx => hmore (h.seen_mem x hx), hadd hself⟩
  have hnds : ∀ x ∈ result.2, x ∈ graph.nodes := by
    intro x hx
    rw [hshared, mem_union] at hx
    exact hx.elim (h.nodes x) fun hx => ((hmem x).mp hx).mem htgt
  have hcl : ∀ x ∈ result.2, ∀ y, graph.Concurrent x y → y ∈ result.2 := by
    intro x hx y hxy
    rw [hshared, mem_union] at hx ⊢
    exact hx.imp (fun hx => h.closed x hx y hxy) fun hx =>
      (hmem y).mpr (((hmem x).mp hx).tail hxy)
  have hcomponent : ∀ x ∈ result.1, x ∈ graph.nodes ∧ ∀ y, y ∈ result.1 ↔ SameBubble graph x y := by
    intro x hx
    have hx := (hmem x).mp hx
    exact ⟨hx.mem htgt, fun y => (hmem y).trans ⟨fun hy => hx.symm.trans hy, fun hy => hx.trans hy⟩⟩
  have hsub : ∀ bubble ∈ acc.1, bubble ⊆ result.2 := fun bubble hbubble =>
    (h.subset bubble hbubble).trans hmore
  by_cases hcard : result.1.card > 1
  · simp only [if_pos hcard]
    refine ⟨hseen, hnds, hcl, ?_, ?_, ?_, ?_, ?_⟩
    · rw [List.forall_mem_append, List.forall_mem_singleton]
      exact ⟨h.component, hcomponent⟩
    · intro x hx y hxy
      rw [hshared, mem_union] at hx
      rcases hx with hx | hx
      · obtain ⟨bubble, hbubble, hxb⟩ := h.found x hx y hxy
        exact ⟨bubble, List.mem_append_left _ hbubble, hxb⟩
      · exact ⟨result.1, by simp, hx⟩
    · rw [List.forall_mem_append, List.forall_mem_singleton]
      exact ⟨hsub, hadd⟩
    · rw [List.forall_mem_append, List.forall_mem_singleton]
      exact ⟨h.large, hcard⟩
    · refine h.nodup.append (List.nodup_singleton _) ?_
      rw [List.disjoint_singleton]
      exact fun hmem' => hold (h.subset _ hmem' hself)
  · simp only [if_neg hcard]
    refine ⟨hseen, hnds, hcl, h.component, ?_, hsub, h.large, h.nodup⟩
    intro x hx y hxy
    rw [hshared, mem_union] at hx
    rcases hx with hx | hx
    · exact h.found x hx y hxy
    · -- A bubble with a single operation has no concurrent operations.
      have hy : y ∈ result.1 := (hmem y).mpr (((hmem x).mp hx).tail hxy)
      exact absurd (one_lt_card.mpr ⟨x, hx, y, hy, hxy.ne⟩) hcard

variable (o t graph) in
theorem bubblesFound_concurrentBubbles :
    ∃ processed, BubblesFound graph (o.iter graph.nodes)
      (concurrentBubbles o t graph, processed) := by
  have hrun : ∀ rest seen acc, BubblesFound graph seen acc → (∀ x ∈ rest, x ∈ graph.nodes) →
      BubblesFound graph (seen ++ rest) (rest.foldl (collectBubble o t graph) acc) := by
    intro rest
    induction rest with
    | nil =>
      intro seen acc h _
      simpa using h
    | cons target rest ih =>
      intro seen acc h hrest
      obtain ⟨htgt, hrest⟩ := List.forall_mem_cons.mp hrest
      have hrun := ih _ _ (h.step (o := o) (t := t) htgt) hrest
      simpa using hrun
  exact ⟨_, hrun (o.iter graph.nodes) [] ([], ∅) BubblesFound.start fun x => o.mem_iter.mp⟩

section Bubble

variable (hbubble : bubble ∈ concurrentBubbles o t graph)

include hbubble

theorem mem_bubble_iff (hx : x ∈ bubble) : y ∈ bubble ↔ SameBubble graph x y := by
  obtain ⟨_, hfnd⟩ := bubblesFound_concurrentBubbles o t graph
  exact (hfnd.component bubble hbubble x hx).2 y

theorem mem_nodes_of_mem_bubble {x : OP} (hx : x ∈ bubble) : x ∈ graph.nodes := by
  obtain ⟨_, hfnd⟩ := bubblesFound_concurrentBubbles o t graph
  exact (hfnd.component bubble hbubble x hx).1

theorem nonempty_bubble : bubble.Nonempty := by
  obtain ⟨_, hfnd⟩ := bubblesFound_concurrentBubbles o t graph
  exact card_pos.mp (Nat.zero_lt_one.trans (hfnd.large bubble hbubble))

theorem exists_concurrent_of_mem_bubble {x : OP} (hx : x ∈ bubble) : ∃ y, graph.Concurrent x y := by
  obtain ⟨_, hfnd⟩ := bubblesFound_concurrentBubbles o t graph
  obtain ⟨y, hy, hne⟩ := exists_mem_ne (hfnd.large bubble hbubble) x
  rcases ReflTransGen.cases_head ((mem_bubble_iff hbubble hx).mp hy) with heq | ⟨z, hxz, -⟩
  · exact absurd heq.symm hne
  · exact ⟨z, hxz⟩

theorem bubble_eq_of_mem {bubble' : Finset OP} {x : OP}
    (hbubble' : bubble' ∈ concurrentBubbles o t graph) (hx : x ∈ bubble) (hx' : x ∈ bubble') :
    bubble = bubble' := by
  ext z
  rw [mem_bubble_iff hbubble hx, mem_bubble_iff hbubble' hx']

theorem mem_splitBubble_of_bubble (hx : x ∈ bubble) :
    y ∈ (splitBubble t graph bubble x).1 ↔ graph.Concurrent x y := by
  rw [mem_splitBubble_concurrent]
  constructor
  · rintro ⟨hy, hxy, hyx⟩
    exact ⟨mem_nodes_of_mem_bubble hbubble hx, mem_nodes_of_mem_bubble hbubble hy, hxy, hyx⟩
  · intro h
    exact ⟨(mem_bubble_iff hbubble hx).mpr (ReflTransGen.single h), h.2.2.1, h.2.2.2⟩

end Bubble

theorem exists_bubble (h : graph.Concurrent x y) :
    ∃ bubble ∈ concurrentBubbles o t graph, x ∈ bubble := by
  obtain ⟨_, hfnd⟩ := bubblesFound_concurrentBubbles o t graph
  exact hfnd.found x (hfnd.seen_mem x (o.mem_iter.mpr h.1)) y h

/-- Every operation of `a` is an ancestor of every operation of `b`. -/
def Precedes (graph : DiGraphMap OP) (a b : Finset OP) : Prop :=
  ∀ x ∈ a, ∀ y ∈ b, graph.Before x y

/-- An operation outside of a bubble precedes all of it, or comes after all of it. -/
theorem before_bubble_or_after (hg : graph.Acyclic) {z : OP}
    (hbubble : bubble ∈ concurrentBubbles o t graph) (hz : z ∈ graph.nodes) (hout : z ∉ bubble) :
    (∀ x ∈ bubble, graph.Before z x) ∨ ∀ x ∈ bubble, graph.Before x z := by
  obtain ⟨w, hw⟩ := nonempty_bubble hbubble
  have hsame {x : OP} (hx : x ∈ bubble) : SameComponent graph.Before (· ∈ graph.nodes) w x := by
    rw [sameComponent_iff_sameBubble]
    exact (mem_bubble_iff hbubble hw).mp hx
  have hnot : ¬SameComponent graph.Before (· ∈ graph.nodes) w z := by
    rw [sameComponent_iff_sameBubble, ← mem_bubble_iff hbubble hw]
    exact hout
  have hw' : w ∈ graph.nodes := mem_nodes_of_mem_bubble hbubble hw
  have hne : w ≠ z := by
    rintro rfl
    exact hout hw
  rcases reaches_or_concurrent hw' hz with hrch | hrch | hconc
  · right
    intro x hx
    have hbef : graph.Before w z := hg.before_iff.mpr ⟨hrch, hne⟩
    exact below_of_sameComponent_left (fun _ _ _ => DiGraphMap.Before.trans) hz hbef hnot (hsame hx)
  · left
    intro x hx
    have hbef : graph.Before z w := hg.before_iff.mpr ⟨hrch, hne.symm⟩
    exact below_of_sameComponent_right (fun _ _ _ => DiGraphMap.Before.trans)
      hz hbef (fun h => hnot h.symm) (hsame hx)
  · exact absurd ((mem_bubble_iff hbubble hw).mpr (ReflTransGen.single hconc)) hout

theorem precedes_or_precedes (hg : graph.Acyclic) {bubble bubble' : Finset OP}
    (hbubble : bubble ∈ concurrentBubbles o t graph)
    (hbubble' : bubble' ∈ concurrentBubbles o t graph) (hne : bubble ≠ bubble') :
    Precedes graph bubble bubble' ∨ Precedes graph bubble' bubble := by
  have hout {x : OP} (hx : x ∈ bubble) : x ∉ bubble' := fun hx' =>
    hne (bubble_eq_of_mem hbubble hbubble' hx hx')
  have hout' {x : OP} (hx' : x ∈ bubble') : x ∉ bubble := fun hx => hout hx hx'
  obtain ⟨w, hw⟩ := nonempty_bubble hbubble
  rcases before_bubble_or_after hg hbubble' (mem_nodes_of_mem_bubble hbubble hw) (hout hw)
    with hbef | hafter
  · left
    intro x hx z hz
    rcases before_bubble_or_after hg hbubble (mem_nodes_of_mem_bubble hbubble' hz) (hout' hz)
      with hzw | hwz
    · exact absurd ((hbef z hz).trans (hzw w hw)) (hg w)
    · exact hwz x hx
  · right
    intro z hz x hx
    rcases before_bubble_or_after hg hbubble (mem_nodes_of_mem_bubble hbubble' hz) (hout' hz)
      with hzw | hwz
    · exact hzw x hx
    · exact absurd ((hwz w hw).trans (hafter z hz)) (hg w)

/-- The bubbles are the components of concurrency with more than one operation, each found once.
They are stacked: what an operation of a bubble depends on is in the bubble or precedes all of
it. -/
theorem concurrentBubbles_partition (hg : graph.Acyclic) :
    (concurrentBubbles o t graph).Nodup ∧
    (∀ bubble : Finset OP, bubble ∈ concurrentBubbles o t graph ↔
      1 < bubble.card ∧ ∃ x ∈ graph.nodes, ∀ y, y ∈ bubble ↔ SameBubble graph x y) ∧
    (∀ bubble ∈ concurrentBubbles o t graph, ∀ bubble' ∈ concurrentBubbles o t graph,
      bubble ≠ bubble' → Precedes graph bubble bubble' ∨ Precedes graph bubble' bubble) ∧
    (∀ bubble ∈ concurrentBubbles o t graph, ∀ z ∈ graph.nodes,
      (∀ bubble' ∈ concurrentBubbles o t graph, z ∉ bubble') →
        Precedes graph {z} bubble ∨ Precedes graph bubble {z}) ∧
    ∀ bubble ∈ concurrentBubbles o t graph, ∀ x ∈ bubble, ∀ d, graph.Adj d x →
      d ∈ bubble ∨ Precedes graph {d} bubble := by
  obtain ⟨_, hfnd⟩ := bubblesFound_concurrentBubbles o t graph
  refine ⟨hfnd.nodup, ?_, ?_, ?_, ?_⟩
  · intro bubble
    constructor
    · intro hbubble
      obtain ⟨x, hx⟩ := nonempty_bubble hbubble
      exact ⟨hfnd.large bubble hbubble, x, mem_nodes_of_mem_bubble hbubble hx,
        fun y => mem_bubble_iff hbubble hx⟩
    · rintro ⟨hlarge, x, hx, hmem⟩
      obtain ⟨y, hy, hne⟩ := exists_mem_ne hlarge x
      rcases ReflTransGen.cases_head ((hmem y).mp hy) with heq | ⟨z, hxz, -⟩
      · exact absurd heq.symm hne
      · obtain ⟨found, hbubble, hxfound⟩ := exists_bubble hxz
        have heq : bubble = found := by
          ext w
          rw [hmem, mem_bubble_iff hbubble hxfound]
        rwa [heq]
  · intro bubble hbubble bubble' hbubble' hne
    exact precedes_or_precedes hg hbubble hbubble' hne
  · intro bubble hbubble z hz hout
    rcases before_bubble_or_after hg hbubble hz (hout bubble hbubble) with hbef | hafter
    · exact Or.inl (by simpa [Precedes] using hbef)
    · exact Or.inr (by simpa [Precedes] using hafter)
  · intro bubble hbubble x hx d hadj
    by_cases hd : d ∈ bubble
    · exact Or.inl hd
    · rcases before_bubble_or_after hg hbubble hadj.left_mem hd with hbef | hafter
      · exact Or.inr (by simpa [Precedes] using hbef)
      · exact absurd ((hafter x hx).trans hadj.before) (hg x)

def diamond : DiGraphMap Nat :=
  (((DiGraphMap.empty.addEdge 0 1).addEdge 0 2).addEdge 1 3).addEdge 2 3

theorem acyclic_diamond : diamond.Acyclic := by
  apply acyclic_of_rank id
  intro a b hadj
  have hedges : ∀ e ∈ diamond.edges, e.1 < e.2 := by decide
  exact hedges (a, b) hadj

theorem concurrentBubbles_diamond :
    let order : HashOrder Nat := .increasing id Function.injective_id
    {1, 2} ∈ concurrentBubbles order (.reference order) diamond := by
  intro order
  have hpartition := concurrentBubbles_partition (o := order) (t := .reference order)
    acyclic_diamond
  have hone : 1 ∈ diamond.nodes := by decide
  have hconc : concurrentOperations (.reference order) diamond 1 = {2} := by decide +kernel
  have hconcurrent' : concurrentOperations (.reference order) diamond 2 = {1} := by
    decide +kernel
  rw [hpartition.2.1]
  refine ⟨by decide, 1, hone, fun y => ⟨?_, ?_⟩⟩
  · intro hy
    rcases mem_insert.mp hy with rfl | hy
    · exact SameBubble.refl _
    · rw [mem_singleton.mp hy]
      apply ReflTransGen.single
      rw [← mem_concurrentOperations_of_mem hone, hconc]
      simp
  · intro hy
    induction hy with
    | refl => simp
    | tail _ hstep ih =>
      rw [← mem_concurrentOperations_of_mem hstep.1] at hstep
      rcases mem_insert.mp ih with rfl | ih
      · rw [hconc] at hstep
        simp_all
      · simp_all

end P2Panda.Auth
