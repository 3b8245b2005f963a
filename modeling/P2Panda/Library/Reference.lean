import P2Panda.Library.DiGraph
import P2Panda.Library.HashMap
import P2Panda.Library.Search

/-!
# Walks that can be run

An implementation of `Traversals` for any type that injects into the natural numbers: the interface
can be met, and programs that use it can be evaluated.
-/

namespace P2Panda.Library

open Finset

variable {α : Type} [DecidableEq α] {g : DiGraphMap α} {a b : α} {o : HashOrder α}

namespace DiGraphMap

def successors (g : DiGraphMap α) (a : α) : Finset α :=
  (g.edges.filter fun e => e.1 = a).image Prod.snd

@[simp] theorem mem_successors : b ∈ g.successors a ↔ g.Adj a b := by
  simp [successors, Adj]

def reach (o : HashOrder α) (g : DiGraphMap α) (a : α) : Finset α :=
  (mark (fun v => o.iter (g.successors v)) g.nodes.card a {a}).1

@[simp] theorem mem_reach :
    b ∈ g.reach o a ↔ g.Reaches a b := by
  let next := fun v => o.iter (g.successors v)
  have hstep : Step next = g.Adj := by
    funext v w
    simp [next, Step]
  have hnext : ∀ v w, w ∈ next v → w ∈ g.nodes := by
    intro v w hw
    have hadj : g.Adj v w := by simpa [next] using hw
    exact hadj.right_mem
  have hfuel : (g.nodes \ insert a ∅).card ≤ g.nodes.card :=
    card_le_card sdiff_subset
  have hmrk := marked_mark hnext g.nodes.card a (insert a ∅) (by simp) hfuel
  have hiff := hmrk.mem_iff (v := b) (fun v w _ _ hold => by simp at hold) (by simp)
  rw [hstep] at hiff
  exact hiff

def depth (o : HashOrder α) (g : DiGraphMap α) (a : α) : Nat :=
  (g.nodes.filter fun x => a ∈ g.reach o x).card

theorem depth_lt_depth (hg : g.Acyclic) (hab : g.Adj a b) : g.depth o a < g.depth o b := by
  apply card_lt_card
  rw [ssubset_iff_of_subset]
  · refine ⟨b, ?_, ?_⟩
    · simp [hab.right_mem, Reaches.refl]
    · simp [hg.not_reaches_of_before hab.before]
  · intro x hx
    rw [mem_filter, mem_reach] at hx ⊢
    exact ⟨hx.1, hx.2.trans hab.reaches⟩

def topoByDepth (o : HashOrder α) (g : DiGraphMap α) : List α :=
  (o.iter g.nodes).insertionSort fun a b => g.depth o a ≤ g.depth o b

theorem topoByDepth_perm (o : HashOrder α) (g : DiGraphMap α) :
    (g.topoByDepth o).Perm (o.iter g.nodes) :=
  List.perm_insertionSort _ _

theorem topoByDepth_order (hg : g.Acyclic) {before after : List α}
    (htopo : g.topoByDepth o = before ++ a :: after) (hab : g.Adj b a) : b ∈ before := by
  have hlt := depth_lt_depth (o := o) hg hab
  have hmem : b ∈ g.topoByDepth o :=
    (topoByDepth_perm o g).mem_iff.mpr (o.mem_iter.mpr hab.left_mem)
  have hsort : (g.topoByDepth o).Pairwise fun a b => g.depth o a ≤ g.depth o b :=
    List.pairwise_insertionSort _ _
  rw [htopo, List.pairwise_append, List.pairwise_cons] at hsort
  rw [htopo] at hmem
  rcases List.mem_append.mp hmem with hbef | hrest
  · exact hbef
  · rcases List.mem_cons.mp hrest with rfl | hafter
    · exact absurd hlt (lt_irrefl _)
    · exact absurd (hsort.2.1.1 b hafter) (not_le.mpr hlt)

def component (o : HashOrder α) (g : DiGraphMap α) (a : α) : List α :=
  (o.iter g.nodes).filter fun b => b ∈ g.reach o a ∧ a ∈ g.reach o b

theorem mem_component : b ∈ g.component o a ↔ b ∈ g.nodes ∧ g.Reaches a b ∧ g.Reaches b a := by
  simp [component]

end DiGraphMap

/-- Walks computed from the reachable sets. -/
def Traversals.reference (o : HashOrder α) : Traversals α where
  dfs g a := o.iter (g.reach o a)
  mem_dfs := by simp
  hasPathConnecting g a b := decide (b ∈ g.reach o a)
  hasPathConnecting_iff := by simp
  topo g := g.topoByDepth o
  nodup_topo _ := (DiGraphMap.topoByDepth_perm o _).nodup_iff.mpr (o.nodup_iter _)
  mem_topo _ := (DiGraphMap.topoByDepth_perm o _).mem_iff.trans o.mem_iter
  topo_order hg htopo _ hba := DiGraphMap.topoByDepth_order hg htopo hba
  scc g := ((o.iter g.nodes).map (g.component o)).dedup
  nodup_scc hc := by
    rw [List.mem_dedup, List.mem_map] at hc
    obtain ⟨a, _, rfl⟩ := hc
    exact (o.nodup_iter _).filter _
  mem_nodes_scc hc ha := by
    rw [List.mem_dedup, List.mem_map] at hc
    obtain ⟨a, _, rfl⟩ := hc
    exact (DiGraphMap.mem_component.mp ha).1
  mem_scc_iff := by
    intro g c a b hc ha
    rw [List.mem_dedup, List.mem_map] at hc
    obtain ⟨r, _, rfl⟩ := hc
    rw [DiGraphMap.mem_component] at ha ⊢
    constructor
    · rintro ⟨_, hrb, hbr⟩
      exact ⟨ha.2.2.trans hrb, hbr.trans ha.2.1⟩
    · rintro ⟨hab, hba⟩
      exact ⟨hab.right_mem ha.1, ha.2.1.trans hab, hba.trans ha.2.2⟩
  exists_scc := by
    intro g a ha
    refine ⟨g.component o a, ?_, DiGraphMap.mem_component.mpr
      ⟨ha, DiGraphMap.Reaches.refl g a, DiGraphMap.Reaches.refl g a⟩⟩
    rw [List.mem_dedup]
    exact List.mem_map_of_mem (o.mem_iter.mpr ha)

end P2Panda.Library
