import P2Panda.Library.DiGraph
import P2Panda.Library.Outcome

/-!
# Programs that add edges to a graph

A graph is often built in two passes: all nodes, then nested loops that join them. `AddsEdges N f E`
is the triple for the second pass: on the nodes `N`, `f` returns and adds exactly the edges in `E`.
-/

namespace P2Panda.Library

variable {α β ε : Type} [DecidableEq α]

/-- A key that was never added panics. -/
def nodeIndex (graph : DiGraphMap α) (key : α) : Outcome ε α :=
  if key ∈ graph.nodes then .ok key else .panic "no entry found for key"

/-- Add an edge between two nodes if it is missing. -/
def link (graph : DiGraphMap α) (source target : α) : Outcome ε (DiGraphMap α) := do
  let sourceIdx ← nodeIndex graph source
  let targetIdx ← nodeIndex graph target
  return graph.addEdge sourceIdx targetIdx

/-- On the nodes `N` the program returns and adds exactly the edges in `E`. -/
def AddsEdges (N : Finset α) (f : DiGraphMap α → Outcome ε (DiGraphMap α))
    (E : α → α → Prop) : Prop :=
  ∀ graph, graph.nodes = N → ∃ graph', f graph = .ok graph' ∧ graph'.nodes = N ∧
    ∀ x y, graph'.Adj x y ↔ graph.Adj x y ∨ E x y

namespace AddsEdges

variable {N : Finset α} {f g : DiGraphMap α → Outcome ε (DiGraphMap α)} {E F : α → α → Prop}

theorem link {source target : α} (hs : source ∈ N) (ht : target ∈ N) :
    AddsEdges N (fun graph => (Library.link graph source target : Outcome ε _))
      fun x y => x = source ∧ y = target := by
  intro graph hnds
  subst hnds
  refine ⟨graph.addEdge source target, by simp [Library.link, nodeIndex, hs, ht], ?_, ?_⟩
  · rw [DiGraphMap.nodes_addEdge, Finset.insert_eq_of_mem ht, Finset.insert_eq_of_mem hs]
  · intro x y
    rw [DiGraphMap.adj_addEdge]
    exact or_comm

omit [DecidableEq α]

theorem consequence (h : AddsEdges N f E) (hE : ∀ x y, E x y ↔ F x y) : AddsEdges N f F := by
  intro graph hnds
  obtain ⟨graph', hrun, hnodes', hadj⟩ := h graph hnds
  refine ⟨graph', hrun, hnodes', fun x y => ?_⟩
  rw [hadj, hE]

theorem skip : AddsEdges N (fun graph => (.ok graph : Outcome ε _)) fun _ _ => False := by
  intro graph hnds
  exact ⟨graph, rfl, hnds, fun x y => by simp⟩

theorem seq (hf : AddsEdges N f E) (hg : AddsEdges N g F) :
    AddsEdges N (fun graph => f graph >>= g) fun x y => E x y ∨ F x y := by
  intro graph hnds
  obtain ⟨graph1, hrun1, hnodes1, hadj1⟩ := hf graph hnds
  obtain ⟨graph2, hrun2, hnodes2, hadj2⟩ := hg graph1 hnodes1
  refine ⟨graph2, by simp only [hrun1, Outcome.ok_bind, hrun2], hnodes2, fun x y => ?_⟩
  rw [hadj2, hadj1, or_assoc]

theorem guarded {P : Prop} [Decidable P] (hf : P → AddsEdges N f E) :
    AddsEdges N (fun graph => if P then f graph else .ok graph) fun x y => P ∧ E x y := by
  by_cases hP : P
  · simpa [hP] using hf hP
  · simpa [hP] using skip

theorem loop {l : List β} {body : DiGraphMap α → β → Outcome ε (DiGraphMap α)}
    {E : β → α → α → Prop} (hbody : ∀ b ∈ l, AddsEdges N (fun graph => body graph b) (E b)) :
    AddsEdges N (fun graph => l.foldlM body graph) fun x y => ∃ b ∈ l, E b x y := by
  induction l with
  | nil => simpa using skip
  | cons b l ih =>
    obtain ⟨hfst, hrest⟩ := List.forall_mem_cons.mp hbody
    exact (hfst.seq (ih hrest)).consequence fun x y => by simp

end AddsEdges

end P2Panda.Library
