import Mathlib.Data.Finset.Prod
import Mathlib.Data.Finset.Max

/-!
# Directed graphs keyed by their nodes

The graph container of `petgraph`. Its paths are closures of the edge relation; `Traversals` states
what to expect of its walks and leaves the order of visits open.
-/

namespace P2Panda.Library

open Relation Finset

/-- A directed graph whose edges join its own nodes. -/
structure DiGraphMap (α : Type) where
  nodes : Finset α
  edges : Finset (α × α)
  nodes_of_edge : ∀ {a b}, (a, b) ∈ edges → a ∈ nodes ∧ b ∈ nodes

namespace DiGraphMap

variable {α : Type}

def Adj (g : DiGraphMap α) (a b : α) : Prop := (a, b) ∈ g.edges

def Reaches (g : DiGraphMap α) : α → α → Prop := ReflTransGen g.Adj

def Before (g : DiGraphMap α) : α → α → Prop := TransGen g.Adj

def Acyclic (g : DiGraphMap α) : Prop := ∀ a, ¬g.Before a a

/-- No path between the two, in either direction. -/
def Concurrent (g : DiGraphMap α) (a b : α) : Prop :=
  a ∈ g.nodes ∧ b ∈ g.nodes ∧ ¬g.Reaches a b ∧ ¬g.Reaches b a

@[ext] theorem ext' {g h : DiGraphMap α} (hnds : g.nodes = h.nodes)
    (hadj : ∀ a b, g.Adj a b ↔ h.Adj a b) : g = h := by
  obtain ⟨gn, ge, _⟩ := g
  obtain ⟨hn, he, _⟩ := h
  have hedges : ge = he := by
    ext ⟨a, b⟩
    exact hadj a b
  subst hnds hedges
  rfl

variable {g : DiGraphMap α} {a b c : α}

theorem Adj.left_mem (h : g.Adj a b) : a ∈ g.nodes := (g.nodes_of_edge h).1

theorem Adj.right_mem (h : g.Adj a b) : b ∈ g.nodes := (g.nodes_of_edge h).2

theorem Before.left_mem (h : g.Before a b) : a ∈ g.nodes := by
  obtain ⟨c, hac, -⟩ := TransGen.head'_iff.mp h
  exact hac.left_mem

theorem Before.right_mem (h : g.Before a b) : b ∈ g.nodes := by
  obtain ⟨c, -, hcb⟩ := TransGen.tail'_iff.mp h
  exact hcb.right_mem

theorem Reaches.refl (g : DiGraphMap α) (a : α) : g.Reaches a a := ReflTransGen.refl

theorem Reaches.trans (hab : g.Reaches a b) (hbc : g.Reaches b c) : g.Reaches a c :=
  ReflTransGen.trans hab hbc

theorem Before.trans (hab : g.Before a b) (hbc : g.Before b c) : g.Before a c :=
  TransGen.trans hab hbc

theorem Adj.before (h : g.Adj a b) : g.Before a b := TransGen.single h

theorem Adj.reaches (h : g.Adj a b) : g.Reaches a b := ReflTransGen.single h

theorem Before.reaches (h : g.Before a b) : g.Reaches a b := TransGen.to_reflTransGen h

theorem Before.trans_reaches (hab : g.Before a b) (hbc : g.Reaches b c) : g.Before a c :=
  TransGen.trans_left hab hbc

theorem Reaches.trans_before (hab : g.Reaches a b) (hbc : g.Before b c) : g.Before a c :=
  TransGen.trans_right hab hbc

theorem reaches_iff_eq_or_before : g.Reaches a b ↔ b = a ∨ g.Before a b :=
  reflTransGen_iff_eq_or_transGen

theorem Reaches.left_mem (h : g.Reaches a b) (hb : b ∈ g.nodes) : a ∈ g.nodes := by
  rcases reaches_iff_eq_or_before.mp h with rfl | hbef
  · exact hb
  · exact hbef.left_mem

theorem Reaches.right_mem (h : g.Reaches a b) (ha : a ∈ g.nodes) : b ∈ g.nodes := by
  rcases reaches_iff_eq_or_before.mp h with rfl | hbef
  · exact ha
  · exact hbef.right_mem

theorem before_iff_exists_adj : g.Before a b ↔ ∃ c, g.Reaches a c ∧ g.Adj c b :=
  TransGen.tail'_iff

theorem Acyclic.not_reaches_of_before (hg : g.Acyclic) (h : g.Before a b) : ¬g.Reaches b a := by
  intro hba
  exact hg a (h.trans_reaches hba)

theorem Acyclic.before_iff (hg : g.Acyclic) : g.Before a b ↔ g.Reaches a b ∧ a ≠ b := by
  rw [reaches_iff_eq_or_before]
  constructor
  · intro h
    refine ⟨Or.inr h, ?_⟩
    rintro rfl
    exact hg a h
  · rintro ⟨heq | h, hne⟩
    · exact absurd heq.symm hne
    · exact h

theorem Concurrent.symm (h : g.Concurrent a b) : g.Concurrent b a :=
  ⟨h.2.1, h.1, h.2.2.2, h.2.2.1⟩

theorem Concurrent.ne (h : g.Concurrent a b) : a ≠ b := by
  rintro rfl
  exact h.2.2.1 (Reaches.refl g a)

theorem reaches_or_concurrent (ha : a ∈ g.nodes) (hb : b ∈ g.nodes) :
    g.Reaches a b ∨ g.Reaches b a ∨ g.Concurrent a b := by
  by_cases hab : g.Reaches a b
  · exact Or.inl hab
  · by_cases hba : g.Reaches b a
    · exact Or.inr (Or.inl hba)
    · exact Or.inr (Or.inr ⟨ha, hb, hab, hba⟩)

theorem Acyclic.exists_rank (hg : g.Acyclic) :
    ∃ rank : α → Nat, ∀ {a b}, g.Before a b → rank a < rank b := by
  classical
  refine ⟨fun a => (g.nodes.filter fun x => g.Before x a).card, ?_⟩
  intro a b hab
  apply card_lt_card
  rw [ssubset_iff_of_subset]
  · exact ⟨a, by simp [hab, hab.left_mem], by simp [hg a]⟩
  · intro x hx
    rw [mem_filter] at hx ⊢
    exact ⟨hx.1, hx.2.trans hab⟩

theorem acyclic_of_rank (rank : α → Nat) (h : ∀ a b, g.Adj a b → rank a < rank b) : g.Acyclic := by
  have hbef : ∀ {a b}, g.Before a b → rank a < rank b := by
    intro a b hab
    induction hab with
    | single hadj => exact h _ _ hadj
    | tail _ hadj ih => exact ih.trans (h _ _ hadj)
  intro a ha
  exact (hbef ha).false

theorem Acyclic.wellFounded (hg : g.Acyclic) : WellFounded g.Before := by
  obtain ⟨rank, hrank⟩ := hg.exists_rank
  exact Subrelation.wf (fun h => hrank h) (measure rank).wf

def empty : DiGraphMap α := ⟨∅, ∅, by simp⟩

@[simp] theorem nodes_empty : (empty : DiGraphMap α).nodes = ∅ := rfl

@[simp] theorem not_adj_empty : ¬(empty : DiGraphMap α).Adj a b := by
  simp [Adj, empty]

def reversed [DecidableEq α] (g : DiGraphMap α) : DiGraphMap α where
  nodes := g.nodes
  edges := g.edges.image Prod.swap
  nodes_of_edge := by
    intro a b h
    obtain ⟨⟨x, y⟩, hxy, he⟩ := Finset.mem_image.mp h
    cases he
    exact (g.nodes_of_edge hxy).symm

variable [DecidableEq α]

def addNode (g : DiGraphMap α) (a : α) : DiGraphMap α where
  nodes := insert a g.nodes
  edges := g.edges
  nodes_of_edge h := ⟨Finset.mem_insert_of_mem (g.nodes_of_edge h).1,
    Finset.mem_insert_of_mem (g.nodes_of_edge h).2⟩

/-- An edge brings its ends along; adding it twice changes nothing. -/
def addEdge (g : DiGraphMap α) (a b : α) : DiGraphMap α where
  nodes := insert a (insert b g.nodes)
  edges := insert (a, b) g.edges
  nodes_of_edge h := by
    rcases Finset.mem_insert.mp h with heq | hmem
    · cases heq
      simp
    · exact ⟨by simp [(g.nodes_of_edge hmem).1], by simp [(g.nodes_of_edge hmem).2]⟩

/-- A node goes with all its edges. -/
def removeNode (g : DiGraphMap α) (a : α) : DiGraphMap α where
  nodes := g.nodes.erase a
  edges := g.edges.filter fun e => e.1 ≠ a ∧ e.2 ≠ a
  nodes_of_edge h := by
    obtain ⟨hmem, hne⟩ := Finset.mem_filter.mp h
    exact ⟨Finset.mem_erase.mpr ⟨hne.1, (g.nodes_of_edge hmem).1⟩,
      Finset.mem_erase.mpr ⟨hne.2, (g.nodes_of_edge hmem).2⟩⟩

def removeNodes (g : DiGraphMap α) (l : List α) : DiGraphMap α := l.foldl removeNode g

/-- The nodes without outgoing edges. -/
def externals (g : DiGraphMap α) : Finset α :=
  g.nodes.filter fun a => ∀ e ∈ g.edges, e.1 ≠ a

@[simp] theorem nodes_addNode (g : DiGraphMap α) (a : α) :
    (g.addNode a).nodes = insert a g.nodes := rfl

@[simp] theorem adj_addNode : (g.addNode c).Adj a b ↔ g.Adj a b := Iff.rfl

@[simp] theorem nodes_addEdge (g : DiGraphMap α) (a b : α) :
    (g.addEdge a b).nodes = insert a (insert b g.nodes) := rfl

@[simp] theorem adj_addEdge {x y : α} :
    (g.addEdge a b).Adj x y ↔ (x = a ∧ y = b) ∨ g.Adj x y := by
  simp [Adj, addEdge]

@[simp] theorem nodes_removeNode (g : DiGraphMap α) (a : α) :
    (g.removeNode a).nodes = g.nodes.erase a := rfl

@[simp] theorem adj_removeNode : (g.removeNode c).Adj a b ↔ g.Adj a b ∧ a ≠ c ∧ b ≠ c := by
  simp [Adj, removeNode]

@[simp] theorem mem_nodes_removeNodes {l : List α} :
    a ∈ (g.removeNodes l).nodes ↔ a ∈ g.nodes ∧ a ∉ l := by
  induction l generalizing g with
  | nil => simp [removeNodes]
  | cons x l ih =>
    rw [removeNodes, List.foldl_cons, ← removeNodes, ih]
    simp only [nodes_removeNode, mem_erase, List.mem_cons]
    tauto

@[simp] theorem adj_removeNodes {l : List α} :
    (g.removeNodes l).Adj a b ↔ g.Adj a b ∧ a ∉ l ∧ b ∉ l := by
  induction l generalizing g with
  | nil => simp [removeNodes]
  | cons x l ih =>
    rw [removeNodes, List.foldl_cons, ← removeNodes, ih]
    simp only [adj_removeNode, List.mem_cons]
    tauto

@[simp] theorem mem_externals : a ∈ g.externals ↔ a ∈ g.nodes ∧ ∀ b, ¬g.Adj a b := by
  simp only [externals, mem_filter, Adj, Prod.forall]
  constructor
  · rintro ⟨ha, hout⟩
    exact ⟨ha, fun b hb => hout a b hb rfl⟩
  · rintro ⟨ha, hout⟩
    refine ⟨ha, ?_⟩
    rintro x y hxy rfl
    exact hout y hxy

@[simp] theorem adj_reversed : g.reversed.Adj a b ↔ g.Adj b a := by
  simp [Adj, reversed]

@[simp] theorem reaches_reversed : g.reversed.Reaches a b ↔ g.Reaches b a := by
  have hswap : g.reversed.Adj = Function.swap g.Adj := by
    funext x y
    exact propext adj_reversed
  rw [Reaches, hswap]
  exact reflTransGen_swap

theorem Acyclic.exists_external (hg : g.Acyclic) (ha : a ∈ g.nodes) :
    ∃ h ∈ g.externals, g.Reaches a h := by
  classical
  obtain ⟨rank, hrank⟩ := hg.exists_rank
  -- Among the nodes reached from `a`, take one of the highest rank.
  let reached := g.nodes.filter fun x => g.Reaches a x
  have hne : reached.Nonempty := ⟨a, by simp [reached, ha, Reaches.refl]⟩
  obtain ⟨h, hh, hmax⟩ := reached.exists_max_image rank hne
  rw [mem_filter] at hh
  refine ⟨h, mem_externals.mpr ⟨hh.1, fun b hb => ?_⟩, hh.2⟩
  have hbmem : b ∈ reached := by
    rw [mem_filter]
    exact ⟨hb.right_mem, hh.2.trans hb.reaches⟩
  exact absurd (hmax b hbmem) (not_le.mpr (hrank hb.before))

omit [DecidableEq α] in
/-- The paths into a part closed under predecessors are those of the whole graph. -/
theorem reaches_iff_of_downClosed {h : DiGraphMap α} {P : α → Prop}
    (hadj : ∀ {a b}, h.Adj a b ↔ g.Adj a b ∧ P b) (hcl : ∀ {a b}, g.Adj a b → P b → P a)
    (hb : P b) : h.Reaches a b ↔ g.Reaches a b := by
  constructor
  · intro hab
    exact ReflTransGen.mono (fun x y hxy => (hadj.mp hxy).1) _ _ hab
  · intro hab
    induction hab with
    | refl => exact Reaches.refl h a
    | tail _ hxy ih => exact (ih (hcl hxy hb)).trans (Adj.reaches (hadj.mpr ⟨hxy, hb⟩))

/-- `h` is `g` with a fresh node `x` on top of `deps`. -/
structure IsSinkExtension (g h : DiGraphMap α) (x : α) (deps : α → Prop) : Prop where
  fresh : x ∉ g.nodes
  nodes : h.nodes = insert x g.nodes
  deps_mem : ∀ {a}, deps a → a ∈ g.nodes
  adj : ∀ {a b}, h.Adj a b ↔ g.Adj a b ∨ (b = x ∧ deps a)

namespace IsSinkExtension

variable {h : DiGraphMap α} {x : α} {deps : α → Prop}

variable (he : IsSinkExtension g h x deps)
include he

theorem not_adj_sink : ¬h.Adj x b := by
  intro hxb
  rcases he.adj.mp hxb with hold | ⟨-, hdep⟩
  · exact he.fresh hold.left_mem
  · exact he.fresh (he.deps_mem hdep)

theorem reaches_from_sink : h.Reaches x b ↔ b = x := by
  constructor
  · intro hxb
    rcases reaches_iff_eq_or_before.mp hxb with rfl | hbef
    · rfl
    · obtain ⟨c, hxc, -⟩ := TransGen.head'_iff.mp hbef
      exact absurd hxc he.not_adj_sink
  · rintro rfl
    exact Reaches.refl h _

theorem reaches_old (hb : b ∈ g.nodes) : h.Reaches a b ↔ g.Reaches a b := by
  have hne : ∀ {c}, c ∈ g.nodes → c ≠ x := by
    rintro c hc rfl
    exact he.fresh hc
  constructor
  · intro hab
    induction hab with
    | refl => exact Reaches.refl g a
    | tail _ hxy ih =>
      rcases he.adj.mp hxy with hold | ⟨heq, -⟩
      · exact (ih hold.left_mem).trans hold.reaches
      · exact absurd heq (hne hb)
  · intro hab
    exact ReflTransGen.mono (fun y z hyz => he.adj.mpr (Or.inl hyz)) _ _ hab

theorem before_old (hb : b ∈ g.nodes) : h.Before a b ↔ g.Before a b := by
  rw [before_iff_exists_adj, before_iff_exists_adj]
  constructor
  · rintro ⟨c, hac, hcb⟩
    rcases he.adj.mp hcb with hold | ⟨rfl, -⟩
    · exact ⟨c, (he.reaches_old hold.left_mem).mp hac, hold⟩
    · exact absurd hb he.fresh
  · rintro ⟨c, hac, hcb⟩
    exact ⟨c, (he.reaches_old hcb.left_mem).mpr hac, he.adj.mpr (Or.inl hcb)⟩

theorem before_sink : h.Before a x ↔ ∃ d, deps d ∧ g.Reaches a d := by
  rw [before_iff_exists_adj]
  constructor
  · rintro ⟨c, hac, hcx⟩
    rcases he.adj.mp hcx with hold | ⟨-, hdep⟩
    · exact absurd hold.right_mem he.fresh
    · exact ⟨c, hdep, (he.reaches_old (he.deps_mem hdep)).mp hac⟩
  · rintro ⟨d, hdep, had⟩
    exact ⟨d, (he.reaches_old (he.deps_mem hdep)).mpr had, he.adj.mpr (Or.inr ⟨rfl, hdep⟩)⟩

theorem acyclic (hg : g.Acyclic) : h.Acyclic := by
  intro a haa
  have ha := haa.left_mem
  rw [he.nodes, mem_insert] at ha
  rcases ha with rfl | ha
  · obtain ⟨d, hdep, hxd⟩ := he.before_sink.mp haa
    exact he.fresh (hxd.left_mem (he.deps_mem hdep))
  · exact hg a ((he.before_old ha).mp haa)

theorem concurrent_old (ha : a ∈ g.nodes) (hb : b ∈ g.nodes) :
    h.Concurrent a b ↔ g.Concurrent a b := by
  simp only [Concurrent, he.nodes, mem_insert, ha, hb, or_true,
    he.reaches_old ha, he.reaches_old hb]

theorem externals : a ∈ h.externals ↔ a = x ∨ (a ∈ g.externals ∧ ¬deps a) := by
  rw [mem_externals, mem_externals, he.nodes, mem_insert]
  constructor
  · rintro ⟨rfl | ha, hout⟩
    · exact Or.inl rfl
    · refine Or.inr ⟨⟨ha, fun b hb => hout b (he.adj.mpr (Or.inl hb))⟩, fun hdep => ?_⟩
      exact hout x (he.adj.mpr (Or.inr ⟨rfl, hdep⟩))
  · rintro (rfl | ⟨⟨ha, hout⟩, hdep⟩)
    · exact ⟨Or.inl rfl, fun b => he.not_adj_sink⟩
    · refine ⟨Or.inr ha, fun b hb => ?_⟩
      rcases he.adj.mp hb with hold | ⟨-, hdep'⟩
      · exact hout b hold
      · exact hdep hdep'

end IsSinkExtension

end DiGraphMap

/-- The walks of a graph library. A depth-first walk lists the nodes reached from its start, a
topological walk every node after its predecessors, and the strongly connected components the nodes
that reach one another. -/
structure Traversals (α : Type) [DecidableEq α] where
  dfs : DiGraphMap α → α → List α
  mem_dfs : ∀ {g a b}, b ∈ dfs g a ↔ g.Reaches a b
  hasPathConnecting : DiGraphMap α → α → α → Bool
  hasPathConnecting_iff : ∀ {g a b}, hasPathConnecting g a b = true ↔ g.Reaches a b
  topo : DiGraphMap α → List α
  nodup_topo : ∀ {g}, g.Acyclic → (topo g).Nodup
  mem_topo : ∀ {g a}, g.Acyclic → (a ∈ topo g ↔ a ∈ g.nodes)
  topo_order : ∀ {g done a rest}, g.Acyclic → topo g = done ++ a :: rest →
    ∀ b, g.Adj b a → b ∈ done
  scc : DiGraphMap α → List (List α)
  nodup_scc : ∀ {g c}, c ∈ scc g → c.Nodup
  mem_nodes_scc : ∀ {g c a}, c ∈ scc g → a ∈ c → a ∈ g.nodes
  mem_scc_iff : ∀ {g c a b}, c ∈ scc g → a ∈ c →
    (b ∈ c ↔ g.Reaches a b ∧ g.Reaches b a)
  exists_scc : ∀ {g a}, a ∈ g.nodes → ∃ c ∈ scc g, a ∈ c

theorem Traversals.not_mem_done {α : Type} [DecidableEq α] (t : Traversals α) {g : DiGraphMap α}
    (hg : g.Acyclic) {done rest : List α} {a : α} (htopo : t.topo g = done ++ a :: rest) :
    a ∉ done := by
  have hnd := t.nodup_topo hg
  rw [htopo, List.nodup_append] at hnd
  exact fun hmem => hnd.2.2 a hmem a List.mem_cons_self rfl

/-- A topological walk has visited all that comes before its current node. -/
theorem Traversals.topo_before {α : Type} [DecidableEq α] (t : Traversals α) {g : DiGraphMap α}
    {done rest : List α} {a b : α} (hg : g.Acyclic) (htopo : t.topo g = done ++ a :: rest)
    (hbef : g.Before b a) : b ∈ done := by
  induction hbef using TransGen.head_induction_on with
  | single hadj => exact t.topo_order hg htopo _ hadj
  | head hadj _ ih =>
    obtain ⟨before, after, rfl⟩ := List.append_of_mem ih
    rw [List.append_assoc] at htopo
    exact List.mem_append_left _ (t.topo_order hg htopo _ hadj)

end P2Panda.Library
