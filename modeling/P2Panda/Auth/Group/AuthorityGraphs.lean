import P2Panda.Auth.Graph
import P2Panda.Library.GraphBuilder

/-!
# Authority graphs

For each group, a graph of the removals and delegations between its managers: from a removal to what
happened concurrently, and from a delegation to what happened later. A removal on a cycle is part of
a mutual remove.
-/

namespace P2Panda.Auth.Group

open P2Panda.Library Relation ReflTransGen List DiGraphMap AddsEdges

abbrev Removal (ID OP : Type) := ID × ID × OP

abbrev Delegation (ID OP : Type) := ID × ID × OP

abbrev Node (ID OP : Type) := ID × OP

structure AuthorityGraphs (ID OP : Type) where
  depsGraph : DiGraphMap OP
  removals : HashMap ID (List (Removal ID OP))
  delegations : HashMap ID (List (Delegation ID OP))
  graphs : HashMap ID (DiGraphMap (Node ID OP))
  cycles : HashMap ID (Finset OP)

namespace AuthorityGraphs

variable {ID OP ε : Type} [DecidableEq ID] [DecidableEq OP]

def new (depsGraph : DiGraphMap OP) : AuthorityGraphs ID OP := ⟨depsGraph, ∅, ∅, ∅, ∅⟩

def addRemoval (self : AuthorityGraphs ID OP) (groupId remover removed : ID) (op : OP) :
    AuthorityGraphs ID OP :=
  if remover = removed then self
  else
    { self with
      removals := self.removals.andModifyOrInsert groupId (· ++ [(remover, removed, op)])
        [(remover, removed, op)]
      graphs := self.graphs.erase groupId
      cycles := self.cycles.erase groupId }

def addDelegation (self : AuthorityGraphs ID OP) (groupId delegator delegate : ID) (op : OP) :
    AuthorityGraphs ID OP :=
  { self with
    delegations := self.delegations.andModifyOrInsert groupId (· ++ [(delegator, delegate, op)])
      [(delegator, delegate, op)]
    graphs := self.graphs.erase groupId
    cycles := self.cycles.erase groupId }

def addNodes (graph : DiGraphMap (Node ID OP)) (entries : List (ID × ID × OP)) :
    DiGraphMap (Node ID OP) :=
  entries.foldl (fun graph (source, target, op) =>
    ((graph.addNode (source, op)).addNode (target, op)).addEdge (source, op) (target, op)) graph

def linkRemovals (t : Traversals OP) (deps : DiGraphMap OP) (graph : DiGraphMap (Node ID OP)) :
    Removal ID OP → Removal ID OP → Outcome ε (DiGraphMap (Node ID OP))
  | (remover, removed, op), (removerInner, removedInner, opInner) =>
    if isConcurrent t deps op opInner then
      (if removed = removerInner then link graph (removed, op) (removerInner, opInner)
        else .ok graph) >>= fun graph =>
      if removedInner = remover then link graph (removedInner, opInner) (remover, op)
      else .ok graph
    else .ok graph

def linkDelegationRemoval (t : Traversals OP) (deps : DiGraphMap OP)
    (graph : DiGraphMap (Node ID OP)) :
    Delegation ID OP → Removal ID OP → Outcome ε (DiGraphMap (Node ID OP))
  | (delegator, delegate, op), (remover, removed, opInner) =>
    let isConnected := hasPath t deps op opInner
    -- Only add the removal -> delegation edge if the removal occurred concurrently.
    (if removed = delegator ∧ ¬isConnected then link graph (removed, opInner) (delegator, op)
      else .ok graph) >>= fun graph =>
    -- Only add the delegation -> removal edge if the removal is a successor of the
    -- delegation.
    if delegate = remover ∧ isConnected then link graph (delegate, op) (remover, opInner)
    else .ok graph

def linkDelegations (t : Traversals OP) (deps : DiGraphMap OP)
    (graph : DiGraphMap (Node ID OP)) :
    Delegation ID OP → Delegation ID OP → Outcome ε (DiGraphMap (Node ID OP))
  | (_, delegate, op), (delegatorInner, _, opInner) =>
    if delegate = delegatorInner ∧ hasPath t deps op opInner then
      link graph (delegate, op) (delegatorInner, opInner)
    else .ok graph

/-- The edges between different operations. Those of delegations are only added when the group has
both kinds of entries. -/
def linkEntries (t : Traversals OP) (deps : DiGraphMap OP)
    (removals : Option (List (Removal ID OP))) (delegations : Option (List (Delegation ID OP)))
    (graph : DiGraphMap (Node ID OP)) : Outcome ε (DiGraphMap (Node ID OP)) :=
  (removals.getD []).foldlM (fun graph removal =>
    (removals.getD []).foldlM (fun graph inner =>
      linkRemovals t deps graph removal inner) graph) graph >>= fun graph =>
  if removals.isSome ∧ delegations.isSome then
    (delegations.getD []).foldlM (fun graph delegation =>
      (removals.getD []).foldlM (fun graph removal =>
        linkDelegationRemoval t deps graph delegation removal) graph >>= fun graph =>
      (delegations.getD []).foldlM (fun graph inner =>
        linkDelegations t deps graph delegation inner) graph) graph
  else .ok graph

def buildGraph (t : Traversals OP) (self : AuthorityGraphs ID OP) (groupId : ID) :
    Outcome ε (AuthorityGraphs ID OP) := do
  let removals := self.removals.lookup groupId
  let delegations := self.delegations.lookup groupId
  if removals.isNone ∧ delegations.isNone then
    return self
  -- Add nodes for removals and delegations, then the edges between operations.
  let graph := addNodes (addNodes .empty (removals.getD [])) (delegations.getD [])
  let graph ← linkEntries t self.depsGraph removals delegations graph
  return { self with graphs := self.graphs.insert groupId graph }

def opsInCycles (s : Traversals (Node ID OP)) (graph : DiGraphMap (Node ID OP)) : Finset OP :=
  let sccs := (s.scc graph).filter fun scc => !decide (scc.length < 2)
  (sccs.flatMap fun scc => scc.map Prod.snd).toFinset

def computeCycles (s : Traversals (Node ID OP)) (self : AuthorityGraphs ID OP) (groupId : ID) :
    AuthorityGraphs ID OP :=
  match self.graphs.lookup groupId with
  | some graph => { self with cycles := self.cycles.insert groupId (opsInCycles s graph) }
  | none => { self with cycles := self.cycles.insert groupId ∅ }

/-- Whether the operation is part of a mutual remove cycle. The graph and its cycles are built when
first asked for. -/
def isCycle (t : Traversals OP) (s : Traversals (Node ID OP)) (self : AuthorityGraphs ID OP)
    (groupId : ID) (targetOp : OP) : Outcome ε (Bool × AuthorityGraphs ID OP) := do
  let self ←
    if (self.graphs.lookup groupId).isNone then do
      let self ← buildGraph t self groupId
      pure (computeCycles s self groupId)
    else pure self
  match self.cycles.lookup groupId with
  | some ops => return (decide (targetOp ∈ ops), self)
  | none => return (false, self)

end AuthorityGraphs

variable {ID OP : Type} {x y : Node ID OP}

/-- The edges between the removals `R` and the delegations `D` of one group. -/
inductive AuthorityEdge (deps : DiGraphMap OP) (R D : ID → ID → OP → Prop) :
    Node ID OP → Node ID OP → Prop
  | removal {a b op} : R a b op → AuthorityEdge deps R D (a, op) (b, op)
  | delegation {a b op} : D a b op → AuthorityEdge deps R D (a, op) (b, op)
  | removalRemoval {a b c op op'} : R a b op → R b c op' → deps.Concurrent op op' →
      AuthorityEdge deps R D (b, op) (b, op')
  | removalDelegation {a b c op op'} : R a b op → D b c op' → ¬deps.Before op' op →
      AuthorityEdge deps R D (b, op) (b, op')
  | delegationRemoval {a b c op op'} : D a b op → R b c op' → deps.Before op op' →
      AuthorityEdge deps R D (b, op) (b, op')
  | delegationDelegation {a b c op op'} : D a b op → D b c op' → deps.Before op op' →
      AuthorityEdge deps R D (b, op) (b, op')

/-- Two actors of one operation, or two operations, that hold each other. -/
def OnAuthorityCycle (deps : DiGraphMap OP) (R D : ID → ID → OP → Prop) (op : OP) : Prop :=
  ∃ actor node, node ≠ (actor, op) ∧
    ReflTransGen (AuthorityEdge deps R D) (actor, op) node ∧
    ReflTransGen (AuthorityEdge deps R D) node (actor, op)

variable {deps : DiGraphMap OP} {R D : ID → ID → OP → Prop}

theorem AuthorityEdge.entry (h : AuthorityEdge deps R D x y) :
    ∃ a b, (R a b x.2 ∨ D a b x.2) ∧ (x.1 = a ∨ x.1 = b) := by
  cases h with
  | removal hr => exact ⟨_, _, Or.inl hr, Or.inl rfl⟩
  | delegation hd => exact ⟨_, _, Or.inr hd, Or.inl rfl⟩
  | removalRemoval hr => exact ⟨_, _, Or.inl hr, Or.inr rfl⟩
  | removalDelegation hr => exact ⟨_, _, Or.inl hr, Or.inr rfl⟩
  | delegationRemoval hd => exact ⟨_, _, Or.inr hd, Or.inr rfl⟩
  | delegationDelegation hd => exact ⟨_, _, Or.inr hd, Or.inr rfl⟩

theorem OnAuthorityCycle.exists_edge {op : OP} (h : OnAuthorityCycle deps R D op) :
    ∃ actor node, AuthorityEdge deps R D (actor, op) node := by
  obtain ⟨actor, node, hne, hpath, -⟩ := h
  rcases cases_head hpath with heq | ⟨next, hedge, -⟩
  · exact absurd heq.symm hne
  · exact ⟨actor, next, hedge⟩

def Apart (deps : DiGraphMap OP) (op op' : OP) : Prop :=
  op ≠ op' ∧ ¬deps.Before op op' ∧ ¬deps.Before op' op

theorem isConcurrent_iff_apart [DecidableEq OP] {t : Traversals OP} (hdeps : deps.Acyclic)
    {op op' : OP} :
    isConcurrent t deps op op' = true ↔ Apart deps op op' := by
  rw [isConcurrent, Apart]
  simp only [Bool.and_eq_true, Bool.not_eq_true', ← Bool.not_eq_true, hasPath_iff hdeps,
    bne_iff_ne, and_assoc]

/-- The steps between actors and between operations. A removal leads to the `allowed` delegations of
its target. -/
inductive AuthorityStep (deps : DiGraphMap OP) (allowed : OP → OP → Prop)
    (R D : ID → ID → OP → Prop) : Node ID OP → Node ID OP → Prop
  | removal {a b op} : R a b op → AuthorityStep deps allowed R D (a, op) (b, op)
  | delegation {a b op} : D a b op → AuthorityStep deps allowed R D (a, op) (b, op)
  | removalRemoval {a b c op op'} : R a b op → R b c op' → Apart deps op op' →
      AuthorityStep deps allowed R D (b, op) (b, op')
  | removalDelegation {a b c op op'} : R a b op → D b c op' → allowed op op' →
      AuthorityStep deps allowed R D (b, op) (b, op')
  | delegationRemoval {a b c op op'} : D a b op → R b c op' → deps.Before op op' →
      AuthorityStep deps allowed R D (b, op) (b, op')
  | delegationDelegation {a b c op op'} : D a b op → D b c op' → deps.Before op op' →
      AuthorityStep deps allowed R D (b, op) (b, op')

section Steps

variable (deps : DiGraphMap OP) (R D : ID → ID → OP → Prop)

abbrev BuiltStep : Node ID OP → Node ID OP → Prop :=
  AuthorityStep deps (fun op op' => ¬deps.Before op' op) R D

/-- The operation has a node that reaches another one and back. -/
def OnCycleOf (step : Node ID OP → Node ID OP → Prop) (op : OP) : Prop :=
  ∃ actor node, node ≠ (actor, op) ∧ ReflTransGen step (actor, op) node ∧
    ReflTransGen step node (actor, op)

variable {deps R D}

theorem authorityEdge_iff_builtStep [DecidableEq OP] (t : Traversals OP) (hdeps : deps.Acyclic)
    (hR : ∀ a b op, R a b op → op ∈ deps.nodes) :
    AuthorityEdge deps R D x y ↔ BuiltStep deps R D x y := by
  have hiff {a b c d : ID} {op op' : OP} (hr : R a b op) (hr' : R c d op') :
      deps.Concurrent op op' ↔ Apart deps op op' := by
    rw [← isConcurrent_iff (t := t) hdeps (hR _ _ _ hr) (hR _ _ _ hr'),
      isConcurrent_iff_apart hdeps]
  constructor
  · intro h
    cases h with
    | removal hr => exact .removal hr
    | delegation hd => exact .delegation hd
    | removalRemoval hr hr' hconc =>
      exact .removalRemoval hr hr' ((hiff hr hr').mp hconc)
    | removalDelegation hr hd hnot => exact .removalDelegation hr hd hnot
    | delegationRemoval hd hr hbef => exact .delegationRemoval hd hr hbef
    | delegationDelegation hd hd' hbef => exact .delegationDelegation hd hd' hbef
  · intro h
    cases h with
    | removal hr => exact .removal hr
    | delegation hd => exact .delegation hd
    | removalRemoval hr hr' hapart => exact .removalRemoval hr hr' ((hiff hr hr').mpr hapart)
    | removalDelegation hr hd hnot => exact .removalDelegation hr hd hnot
    | delegationRemoval hd hr hbef => exact .delegationRemoval hd hr hbef
    | delegationDelegation hd hd' hbef => exact .delegationDelegation hd hd' hbef

/-- Without removals, only the actors of one operation can hold each other. -/
theorem onCycleOf_builtStep_of_no_removal (hdeps : deps.Acyclic) (hR : ∀ a b op, ¬R a b op)
    {op : OP} : OnCycleOf (BuiltStep deps R D) op ↔
      OnCycleOf (fun x y => D x.1 y.1 x.2 ∧ x.2 = y.2) op := by
  have hstep {x y : Node ID OP} (h : BuiltStep deps R D x y) :
      (D x.1 y.1 x.2 ∧ x.2 = y.2) ∨ deps.Before x.2 y.2 := by
    cases h with
    | removal hr => exact absurd hr (hR _ _ _)
    | delegation hd => exact Or.inl ⟨hd, rfl⟩
    | removalRemoval hr => exact absurd hr (hR _ _ _)
    | removalDelegation hr => exact absurd hr (hR _ _ _)
    | delegationRemoval _ hr => exact absurd hr (hR _ _ _)
    | delegationDelegation _ _ hbef => exact Or.inr hbef
  have hwalk {x y : Node ID OP} (h : ReflTransGen (BuiltStep deps R D) x y) :
      deps.Reaches x.2 y.2 := by
    induction h with
    | refl => exact DiGraphMap.Reaches.refl _ _
    | tail _ hlast ih =>
      rcases hstep hlast with ⟨-, heq⟩ | hbef
      · rwa [← heq]
      · exact ih.trans hbef.reaches
  -- a walk that comes back never gets to a later operation
  have hstay {x y : Node ID OP} (h : ReflTransGen (BuiltStep deps R D) x y)
      (hback : ReflTransGen (BuiltStep deps R D) y x) :
      ReflTransGen (fun x y => D x.1 y.1 x.2 ∧ x.2 = y.2) x y := by
    induction h with
    | refl => exact refl
    | @tail y z hxy hlast ih =>
      have hyx := hback.head hlast
      rcases hstep hlast with hsame | hbef
      · exact (ih hyx).tail hsame
      · have hloop := hbef.trans_reaches ((hwalk hback).trans (hwalk hxy))
        exact absurd hloop (hdeps y.2)
  constructor
  · rintro ⟨actor, node, hne, hout, hback⟩
    exact ⟨actor, node, hne, hstay hout hback, hstay hback hout⟩
  · have hmono {x y : Node ID OP} (h : D x.1 y.1 x.2 ∧ x.2 = y.2) : BuiltStep deps R D x y := by
      obtain ⟨a, op⟩ := x
      obtain ⟨b, op'⟩ := y
      obtain ⟨hd, rfl⟩ : D a b op ∧ op = op' := h
      exact .delegation hd
    rintro ⟨actor, node, hne, hout, hback⟩
    exact ⟨actor, node, hne, mono (fun _ _ => hmono) _ _ hout, mono (fun _ _ => hmono) _ _ hback⟩

end Steps

namespace AuthorityGraphs

variable {ε : Type} [DecidableEq ID]

def IsRemoval (self : AuthorityGraphs ID OP) (groupId remover removed : ID) (op : OP) : Prop :=
  (remover, removed, op) ∈ (self.removals.lookup groupId).getD []

def IsDelegation (self : AuthorityGraphs ID OP) (groupId delegator delegate : ID) (op : OP) :
    Prop :=
  (delegator, delegate, op) ∈ (self.delegations.lookup groupId).getD []

section Register

variable {self : AuthorityGraphs ID OP} {g g' a a' b b' : ID} {op op' : OP}

theorem isRemoval_addRemoval : (self.addRemoval g a b op).IsRemoval g' a' b' op' ↔
    self.IsRemoval g' a' b' op' ∨ g' = g ∧ a' = a ∧ b' = b ∧ op' = op ∧ a' ≠ b' := by
  unfold addRemoval IsRemoval
  split_ifs with hself
  · refine ⟨Or.inl, fun h => h.elim id ?_⟩
    rintro ⟨-, rfl, rfl, -, hne⟩
    exact absurd hself hne
  · rw [HashMap.lookup_andModifyOrInsert]
    split_ifs with hg
    · subst hg
      cases self.removals.lookup g' <;> simp <;> grind
    · simp [hg]

theorem isDelegation_addDelegation : (self.addDelegation g a b op).IsDelegation g' a' b' op' ↔
    self.IsDelegation g' a' b' op' ∨ g' = g ∧ a' = a ∧ b' = b ∧ op' = op := by
  unfold addDelegation IsDelegation
  rw [HashMap.lookup_andModifyOrInsert]
  split_ifs with hg
  · subst hg
    cases self.delegations.lookup g' <;> simp
  · simp [hg]

theorem isDelegation_addRemoval : (self.addRemoval g a b op).IsDelegation g' a' b' op' ↔
    self.IsDelegation g' a' b' op' := by
  unfold addRemoval IsDelegation
  split_ifs <;> rfl

theorem isRemoval_addDelegation : (self.addDelegation g a b op).IsRemoval g' a' b' op' ↔
    self.IsRemoval g' a' b' op' := Iff.rfl

theorem graphs_addRemoval (h : self.graphs = ∅) : (self.addRemoval g a b op).graphs = ∅ := by
  unfold addRemoval
  split_ifs
  · exact h
  · simp [h]

theorem graphs_addDelegation (h : self.graphs = ∅) : (self.addDelegation g a b op).graphs = ∅ := by
  simp [addDelegation, h]

theorem depsGraph_addRemoval : (self.addRemoval g a b op).depsGraph = self.depsGraph := by
  unfold addRemoval
  split_ifs <;> rfl

end Register

variable [DecidableEq OP] {graph : DiGraphMap (Node ID OP)} {entries : List (ID × ID × OP)}

theorem mem_nodes_addNodes {x : Node ID OP} : x ∈ (addNodes graph entries).nodes ↔
      x ∈ graph.nodes ∨ ∃ e ∈ entries, x = (e.1, e.2.2) ∨ x = (e.2.1, e.2.2) := by
  induction entries generalizing graph with
  | nil => simp [addNodes]
  | cons e entries ih =>
    rw [addNodes, foldl_cons, ← addNodes, ih]
    simp only [nodes_addEdge, nodes_addNode, Finset.mem_insert, mem_cons, exists_eq_or_imp]
    grind

theorem adj_addNodes : (addNodes graph entries).Adj x y ↔
      graph.Adj x y ∨ ∃ e ∈ entries, x = (e.1, e.2.2) ∧ y = (e.2.1, e.2.2) := by
  induction entries generalizing graph with
  | nil => simp [addNodes]
  | cons e entries ih =>
    rw [addNodes, foldl_cons, ← addNodes, ih]
    simp only [adj_addEdge, adj_addNode, mem_cons, exists_eq_or_imp]
    tauto

section Links

variable {t : Traversals OP} {deps : DiGraphMap OP} {N : Finset (Node ID OP)}
variable {a b c d : ID} {op op' : OP}

variable (t deps) in
theorem linkRemovals_adds (hb : (b, op) ∈ N) (ha : (a, op) ∈ N) (hc : (c, op') ∈ N)
    (hd : (d, op') ∈ N) :
    AddsEdges N (fun graph => (linkRemovals t deps graph (a, b, op) (c, d, op') : Outcome ε _))
      fun x y => isConcurrent t deps op op' = true ∧
        (b = c ∧ x = (b, op) ∧ y = (c, op') ∨ d = a ∧ x = (d, op') ∧ y = (a, op)) :=
  .guarded fun _ => .seq (.guarded fun _ => .link hb hc) (.guarded fun _ => .link hd ha)

variable (t deps) in
theorem linkDelegationRemoval_adds (ha : (a, op) ∈ N) (hb : (b, op) ∈ N) (hc : (c, op') ∈ N)
    (hd : (d, op') ∈ N) :
    AddsEdges N
      (fun graph => (linkDelegationRemoval t deps graph (a, b, op) (c, d, op') : Outcome ε _))
      fun x y => (d = a ∧ ¬hasPath t deps op op' = true) ∧ x = (d, op') ∧ y = (a, op) ∨
        (b = c ∧ hasPath t deps op op' = true) ∧ x = (b, op) ∧ y = (c, op') :=
  .seq (.guarded fun _ => .link hd ha) (.guarded fun _ => .link hb hc)

variable (t deps a d) in
theorem linkDelegations_adds (hb : (b, op) ∈ N) (hc : (c, op') ∈ N) :
    AddsEdges N
      (fun graph => (linkDelegations t deps graph (a, b, op) (c, d, op') : Outcome ε _))
      fun x y => (b = c ∧ hasPath t deps op op' = true) ∧ x = (b, op) ∧ y = (c, op') :=
  .guarded fun _ => .link hb hc

/-- The edges which `linkEntries` adds. -/
def Linked (t : Traversals OP) (deps : DiGraphMap OP) (R D : List (ID × ID × OP))
    (x y : Node ID OP) : Prop :=
  (∃ r ∈ R, ∃ i ∈ R, isConcurrent t deps r.2.2 i.2.2 = true ∧
    (r.2.1 = i.1 ∧ x = (r.2.1, r.2.2) ∧ y = (i.1, i.2.2) ∨
      i.2.1 = r.1 ∧ x = (i.2.1, i.2.2) ∧ y = (r.1, r.2.2))) ∨
  ∃ e ∈ D,
    (∃ r ∈ R, (r.2.1 = e.1 ∧ ¬hasPath t deps e.2.2 r.2.2 = true) ∧
        x = (r.2.1, r.2.2) ∧ y = (e.1, e.2.2) ∨
      (e.2.1 = r.1 ∧ hasPath t deps e.2.2 r.2.2 = true) ∧
        x = (e.2.1, e.2.2) ∧ y = (r.1, r.2.2)) ∨
    ∃ i ∈ D, (e.2.1 = i.1 ∧ hasPath t deps e.2.2 i.2.2 = true) ∧
      x = (e.2.1, e.2.2) ∧ y = (i.1, i.2.2)

omit [DecidableEq ID] in
theorem builtStep_iff_linked {R D : List (ID × ID × OP)} (hdeps : deps.Acyclic) :
    BuiltStep deps (fun a b op => (a, b, op) ∈ R) (fun a b op => (a, b, op) ∈ D) x y ↔
      ((∃ e ∈ R, x = (e.1, e.2.2) ∧ y = (e.2.1, e.2.2)) ∨
        ∃ e ∈ D, x = (e.1, e.2.2) ∧ y = (e.2.1, e.2.2)) ∨ Linked t deps R D x y := by
  constructor
  · intro hstep
    cases hstep with
    | removal hr => exact Or.inl (Or.inl ⟨_, hr, rfl, rfl⟩)
    | delegation hd => exact Or.inl (Or.inr ⟨_, hd, rfl, rfl⟩)
    | removalRemoval hr hr' hapart =>
      rw [← isConcurrent_iff_apart hdeps] at hapart
      exact Or.inr (Or.inl ⟨_, hr, _, hr', hapart, Or.inl ⟨rfl, rfl, rfl⟩⟩)
    | removalDelegation hr hd hpath =>
      rw [← hasPath_iff hdeps] at hpath
      exact Or.inr (Or.inr ⟨_, hd, Or.inl ⟨_, hr, Or.inl ⟨⟨rfl, hpath⟩, rfl, rfl⟩⟩⟩)
    | delegationRemoval hd hr hpath =>
      rw [← hasPath_iff hdeps] at hpath
      exact Or.inr (Or.inr ⟨_, hd, Or.inl ⟨_, hr, Or.inr ⟨⟨rfl, hpath⟩, rfl, rfl⟩⟩⟩)
    | delegationDelegation hd hd' hpath =>
      rw [← hasPath_iff hdeps] at hpath
      exact Or.inr (Or.inr ⟨_, hd, Or.inr ⟨_, hd', ⟨rfl, hpath⟩, rfl, rfl⟩⟩)
  · rintro ((⟨⟨a, b, op⟩, he, rfl, rfl⟩ | ⟨⟨a, b, op⟩, he, rfl, rfl⟩) | hlnk | hlnk)
    · exact .removal he
    · exact .delegation he
    · obtain ⟨⟨a, b, op⟩, hr, ⟨c, d, op'⟩, hi, hconc, hends⟩ := hlnk
      rw [isConcurrent_iff_apart hdeps] at hconc
      rcases hends with ⟨rfl, rfl, rfl⟩ | ⟨rfl, rfl, rfl⟩
      · exact .removalRemoval hr hi hconc
      · exact .removalRemoval hi hr ⟨hconc.1.symm, hconc.2.2, hconc.2.1⟩
    · obtain ⟨⟨a, b, op⟩, hd, hlnk⟩ := hlnk
      simp only [hasPath_iff hdeps] at hlnk
      rcases hlnk with ⟨⟨c, d, op'⟩, hr, hends⟩ | ⟨⟨c, d, op'⟩, hi, hends⟩
      · rcases hends with ⟨⟨rfl, hpath⟩, rfl, rfl⟩ | ⟨⟨rfl, hpath⟩, rfl, rfl⟩
        · exact .removalDelegation hr hd hpath
        · exact .delegationRemoval hd hr hpath
      · obtain ⟨⟨rfl, hpath⟩, rfl, rfl⟩ := hends
        exact .delegationDelegation hd hi hpath

variable (t deps) in
theorem linkEntries_adds {removals delegations : Option (List (ID × ID × OP))}
    (hR : ∀ e ∈ removals.getD [], (e.1, e.2.2) ∈ N ∧ (e.2.1, e.2.2) ∈ N)
    (hD : ∀ e ∈ delegations.getD [], (e.1, e.2.2) ∈ N ∧ (e.2.1, e.2.2) ∈ N) :
    ∃ E, AddsEdges N
        (fun graph => (linkEntries t deps removals delegations graph : Outcome ε _)) E ∧
      (removals.isSome → ∀ x y,
        E x y ↔ Linked t deps (removals.getD []) (delegations.getD []) x y) := by
  have hremovals := loop (ε := ε) fun r hr =>
    loop fun i hi =>
      linkRemovals_adds t deps (hR r hr).2 (hR r hr).1 (hR i hi).1 (hR i hi).2
  have hdelegs := loop (ε := ε) fun e he =>
    (loop fun r hr =>
      linkDelegationRemoval_adds t deps (hD e he).1 (hD e he).2 (hR r hr).1 (hR r hr).2).seq
    (loop fun i hi =>
      linkDelegations_adds t deps e.1 i.2.1 (hD e he).2 (hD i hi).1)
  refine ⟨_, hremovals.seq (.guarded fun _ => hdelegs), fun hsome x y => or_congr Iff.rfl ?_⟩
  refine ⟨And.right, fun h => ⟨⟨hsome, ?_⟩, h⟩⟩
  obtain ⟨e, he, -⟩ := h
  cases delegations with
  | none => simp at he
  | some l => rfl

end Links

/-- The removing operations are in the dependency graph, which has no cycles. -/
structure DepsKnown (authority : AuthorityGraphs ID OP) : Prop where
  acyclic : authority.depsGraph.Acyclic
  removal : ∀ {g a b op}, authority.IsRemoval g a b op → op ∈ authority.depsGraph.nodes

structure SameEntries (authority authority' : AuthorityGraphs ID OP) : Prop where
  depsGraph : authority'.depsGraph = authority.depsGraph
  removals : authority'.removals = authority.removals
  delegations : authority'.delegations = authority.delegations

variable {self : AuthorityGraphs ID OP} {groupId : ID} {t : Traversals OP}
  {s : Traversals (Node ID OP)}

abbrev Built (self : AuthorityGraphs ID OP) (groupId : ID) : Node ID OP → Node ID OP → Prop :=
  BuiltStep self.depsGraph (self.IsRemoval groupId) (self.IsDelegation groupId)

theorem mem_opsInCycles_iff {op : OP} : op ∈ opsInCycles s graph ↔ OnCycleOf graph.Adj op := by
  have hops : op ∈ opsInCycles s graph ↔
      ∃ scc ∈ s.scc graph, 2 ≤ scc.length ∧ ∃ x ∈ scc, x.2 = op := by
    simp only [opsInCycles, mem_toFinset, mem_flatMap, mem_filter, mem_map,
      Bool.not_eq_true', decide_eq_false_iff_not, not_lt, and_assoc]
  rw [hops]
  constructor
  · rintro ⟨scc, hscc, hlen, ⟨actor, op⟩, hx, rfl⟩
    -- A component with two entries has a second node besides `(actor, op)`.
    rw [← toFinset_card_of_nodup (s.nodup_scc hscc)] at hlen
    obtain ⟨node, hnode, hne⟩ := Finset.exists_mem_ne hlen (actor, op)
    rw [mem_toFinset] at hnode
    exact ⟨actor, node, hne, (s.mem_scc_iff hscc hx).mp hnode⟩
  · rintro ⟨actor, node, hne, hout, hback⟩
    have hbef := (reaches_iff_eq_or_before.mp hout).resolve_left hne
    obtain ⟨scc, hscc, hmem⟩ := s.exists_scc hbef.left_mem
    have hnode : node ∈ scc := (s.mem_scc_iff hscc hmem).mpr ⟨hout, hback⟩
    have hcard : 2 ≤ scc.toFinset.card :=
      Finset.one_lt_card.mpr ⟨node, by simpa using hnode, (actor, op), by simpa using hmem, hne⟩
    exact ⟨scc, hscc, hcard.trans (toFinset_card_le scc), (actor, op), hmem, rfl⟩

/-- A group without entries has no graph; any other has the cycles of the code's rule. -/
theorem buildGraph_cycles (hdeps : self.depsGraph.Acyclic) (t : Traversals OP) (groupId : ID) :
    (buildGraph t self groupId = (.ok self : Outcome ε _) ∧
      ∀ op, ¬OnCycleOf (self.Built groupId) op) ∨
    ∃ graph, buildGraph t self groupId =
        (.ok { self with graphs := self.graphs.insert groupId graph } : Outcome ε _) ∧
      ∀ op, OnCycleOf graph.Adj op ↔ OnCycleOf (self.Built groupId) op := by
  set removals := self.removals.lookup groupId with hremovals
  set delegations := self.delegations.lookup groupId with hdelegs
  have hR : self.IsRemoval groupId = fun a b op => (a, b, op) ∈ removals.getD [] := rfl
  have hD : self.IsDelegation groupId = fun a b op => (a, b, op) ∈ delegations.getD [] := rfl
  by_cases hnone : removals.isNone ∧ delegations.isNone
  · left
    refine ⟨by simp [buildGraph, ← hremovals, ← hdelegs, hnone], ?_⟩
    rw [Option.isNone_iff_eq_none, Option.isNone_iff_eq_none] at hnone
    intro op
    rw [onCycleOf_builtStep_of_no_removal hdeps (by simp [hR, hnone.1]), hD, hnone.2]
    rintro ⟨actor, node, hne, hout, -⟩
    rcases cases_head hout with heq | ⟨next, hstep, -⟩
    · exact hne heq.symm
    · cases hstep.1
  right
  let graph0 := addNodes (addNodes .empty (removals.getD [])) (delegations.getD [])
  have hN : ∀ x, x ∈ graph0.nodes ↔
      (∃ e ∈ removals.getD [], x = (e.1, e.2.2) ∨ x = (e.2.1, e.2.2)) ∨
      ∃ e ∈ delegations.getD [], x = (e.1, e.2.2) ∨ x = (e.2.1, e.2.2) := by
    simp [graph0, mem_nodes_addNodes]
  have hadj0 : ∀ x y, graph0.Adj x y ↔
      (∃ e ∈ removals.getD [], x = (e.1, e.2.2) ∧ y = (e.2.1, e.2.2)) ∨
      ∃ e ∈ delegations.getD [], x = (e.1, e.2.2) ∧ y = (e.2.1, e.2.2) := by
    simp [graph0, adj_addNodes]
  obtain ⟨E, hadds, hE⟩ := linkEntries_adds t self.depsGraph
    (fun e he => ⟨(hN _).mpr (Or.inl ⟨e, he, Or.inl rfl⟩), (hN _).mpr (Or.inl ⟨e, he, Or.inr rfl⟩)⟩)
    (fun e he => ⟨(hN _).mpr (Or.inr ⟨e, he, Or.inl rfl⟩), (hN _).mpr (Or.inr ⟨e, he, Or.inr rfl⟩)⟩)
  have hbuild {graph : DiGraphMap (Node ID OP)} (hrun : linkEntries t self.depsGraph removals
      delegations graph0 = (.ok graph : Outcome ε _)) : buildGraph t self groupId =
        (.ok { self with graphs := self.graphs.insert groupId graph } : Outcome ε _) := by
    simp only [buildGraph, ← hremovals, ← hdelegs, if_neg hnone]
    rw [hrun]
    rfl
  cases hcase : removals with
  | some entries =>
    obtain ⟨graph, hrun, -, hadj⟩ := hadds graph0 rfl
    refine ⟨graph, hbuild hrun, ?_⟩
    have hsteps : graph.Adj = self.Built groupId := by
      funext x y
      rw [hadj, hadj0, hE (by simp [hcase])]
      exact propext (builtStep_iff_linked hdeps).symm
    intro op
    rw [hsteps]
  | none =>
    have hrun : linkEntries t self.depsGraph removals delegations graph0 =
        (.ok graph0 : Outcome ε _) := by
      simp [linkEntries, hcase]
    refine ⟨graph0, hbuild hrun, ?_⟩
    have hsteps : graph0.Adj = fun x y => self.IsDelegation groupId x.1 y.1 x.2 ∧ x.2 = y.2 := by
      funext x y
      obtain ⟨a, op⟩ := x
      obtain ⟨b, op'⟩ := y
      rw [hadj0, hcase]
      apply propext
      constructor
      · rintro (⟨e, he, -⟩ | ⟨⟨c, d, op''⟩, he, hx, hy⟩)
        · cases he
        · cases hx
          cases hy
          exact ⟨he, rfl⟩
      · rintro ⟨he, hop⟩
        exact Or.inr ⟨(a, b, op), he, rfl, by rw [hop]⟩
    intro op
    rw [hsteps, onCycleOf_builtStep_of_no_removal hdeps]
    intro a b op hr
    rw [hR, hcase] at hr
    cases hr

/-- What is cached for a group are the operations on its cycles. -/
def CachesCurrent (self : AuthorityGraphs ID OP) : Prop :=
  ∀ groupId, (self.graphs.lookup groupId).isSome → ∃ ops, self.cycles.lookup groupId = some ops ∧
    ∀ op, op ∈ ops ↔ OnCycleOf (self.Built groupId) op

theorem isCycle_returns (hdeps : self.depsGraph.Acyclic) (hcaches : self.CachesCurrent)
    (t : Traversals OP) (s : Traversals (Node ID OP)) (groupId : ID) (op : OP) :
    ∃ result self', isCycle t s self groupId op = (.ok (result, self') : Outcome ε _) ∧
      SameEntries self self' ∧ self'.CachesCurrent ∧
      (result = true ↔ OnCycleOf (self.Built groupId) op) := by
  cases hgr : self.graphs.lookup groupId with
  | some graph =>
    obtain ⟨ops, hcycles, hops⟩ := hcaches groupId (by simp [hgr])
    refine ⟨decide (op ∈ ops), self, by simp [isCycle, hgr, hcycles], ⟨rfl, rfl, rfl⟩, hcaches, ?_⟩
    rw [decide_eq_true_iff, hops]
  | none =>
    rcases buildGraph_cycles (ε := ε) hdeps t groupId with ⟨hbuild, hnone⟩ | ⟨graph, hbuild, hops⟩
    · refine ⟨false, { self with cycles := self.cycles.insert groupId ∅ },
        by simp [isCycle, hgr, hbuild, computeCycles], ⟨rfl, rfl, rfl⟩, ?_,
        iff_of_false (by simp) (hnone op)⟩
      intro groupId' hsome
      have hne : groupId' ≠ groupId := by
        rintro rfl
        rw [show Finmap.lookup groupId' _ = none from hgr] at hsome
        cases hsome
      rw [HashMap.lookup_insert_ite, if_neg hne]
      exact hcaches groupId' hsome
    · have hmem : ∀ op, op ∈ opsInCycles s graph ↔ OnCycleOf (self.Built groupId) op := by
        intro op
        rw [mem_opsInCycles_iff, hops]
      refine ⟨decide (op ∈ opsInCycles s graph), { self with
        graphs := self.graphs.insert groupId graph
        cycles := self.cycles.insert groupId (opsInCycles s graph) },
        by simp [isCycle, hgr, hbuild, computeCycles], ⟨rfl, rfl, rfl⟩, ?_, ?_⟩
      · intro groupId' hsome
        rw [HashMap.lookup_insert_ite] at hsome ⊢
        by_cases heq : groupId' = groupId
        · subst heq
          exact ⟨_, if_pos rfl, hmem⟩
        · rw [if_neg heq] at hsome ⊢
          exact hcaches groupId' hsome
      · rw [decide_eq_true_iff, hmem]

/-- `isCycle` returns whether an operation is on a cycle of its group's authority graph; the entries
stay as they are. -/
theorem isCycle_spec (hdeps : self.DepsKnown) (hcaches : self.CachesCurrent) (t : Traversals OP)
    (s : Traversals (Node ID OP)) (groupId : ID) (op : OP) :
    ∃ result self', isCycle t s self groupId op = (.ok (result, self') : Outcome ε _) ∧
      SameEntries self self' ∧ self'.CachesCurrent ∧
      (result = true ↔ OnAuthorityCycle self.depsGraph (self.IsRemoval groupId)
        (self.IsDelegation groupId) op) := by
  have hedge : AuthorityEdge self.depsGraph (self.IsRemoval groupId)
      (self.IsDelegation groupId) = self.Built groupId := by
    funext x y
    exact propext (authorityEdge_iff_builtStep t hdeps.acyclic fun _ _ _ hr => hdeps.removal hr)
  rw [OnAuthorityCycle, hedge]
  exact isCycle_returns hdeps.acyclic hcaches t s groupId op

end AuthorityGraphs

end P2Panda.Auth.Group
