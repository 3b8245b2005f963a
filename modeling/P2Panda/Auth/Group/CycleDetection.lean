import P2Panda.Auth.Group.InnerState

/-!
# Which cycles are detected

The authority graph should lead from a removal only to what its target did concurrently. The code
also adds edges to later delegations, so `isCycle` finds the documented cycles, and those with such
a late step.
-/

namespace P2Panda.Auth.Group

open P2Panda.Library Relation ReflTransGen DiGraphMap

variable {ID OP : Type}

section Rule

variable (deps : DiGraphMap OP) (R D : ID → ID → OP → Prop)

abbrev DocumentedStep : Node ID OP → Node ID OP → Prop :=
  AuthorityStep deps (Apart deps) R D

/-- A step from a removal to a later delegation of its target. -/
def LateStep (x y : Node ID OP) : Prop :=
  ∃ a b c op op', R a b op ∧ D b c op' ∧ deps.Before op op' ∧ x = (b, op) ∧ y = (b, op')

def OnDocumentedCycle (op : OP) : Prop := OnCycleOf (DocumentedStep deps R D) op

def OnLateCycle (op : OP) : Prop :=
  ∃ actor x y, ReflTransGen (BuiltStep deps R D) (actor, op) x ∧ LateStep deps R D x y ∧
    ReflTransGen (BuiltStep deps R D) y (actor, op)

variable {deps R D} {x y : Node ID OP}

theorem DocumentedStep.built (h : DocumentedStep deps R D x y) : BuiltStep deps R D x y := by
  cases h with
  | removal hr => exact .removal hr
  | delegation hd => exact .delegation hd
  | removalRemoval hr hr' hapart => exact .removalRemoval hr hr' hapart
  | removalDelegation hr hd hapart => exact .removalDelegation hr hd hapart.2.2
  | delegationRemoval hd hr hbef => exact .delegationRemoval hd hr hbef
  | delegationDelegation hd hd' hbef => exact .delegationDelegation hd hd' hbef

theorem LateStep.built (hdeps : deps.Acyclic) (h : LateStep deps R D x y) :
    BuiltStep deps R D x y := by
  obtain ⟨a, b, c, op, op', hr, hd, hbef, rfl, rfl⟩ := h
  exact .removalDelegation hr hd fun hback => hdeps op (hbef.trans hback)

theorem BuiltStep.cases (h : BuiltStep deps R D x y) :
    x = y ∨ DocumentedStep deps R D x y ∨ LateStep deps R D x y := by
  cases h with
  | removal hr => exact Or.inr (Or.inl (.removal hr))
  | delegation hd => exact Or.inr (Or.inl (.delegation hd))
  | removalRemoval hr hr' hapart => exact Or.inr (Or.inl (.removalRemoval hr hr' hapart))
  | @removalDelegation a b c op op' hr hd hnot =>
    by_cases heq : op = op'
    · exact Or.inl (by rw [heq])
    · by_cases hbef : deps.Before op op'
      · exact Or.inr (Or.inr ⟨a, b, c, op, op', hr, hd, hbef, rfl, rfl⟩)
      · exact Or.inr (Or.inl (.removalDelegation hr hd ⟨heq, hbef, hnot⟩))
  | delegationRemoval hd hr hbef => exact Or.inr (Or.inl (.delegationRemoval hd hr hbef))
  | delegationDelegation hd hd' hbef =>
    exact Or.inr (Or.inl (.delegationDelegation hd hd' hbef))

theorem builtWalk_cases (h : ReflTransGen (BuiltStep deps R D) x y) :
    ReflTransGen (DocumentedStep deps R D) x y ∨
      ∃ u v, ReflTransGen (BuiltStep deps R D) x u ∧ LateStep deps R D u v ∧
        ReflTransGen (BuiltStep deps R D) v y := by
  induction h with
  | refl => exact Or.inl refl
  | @tail y z hxy hstep ih =>
    rcases ih with hdocumented | ⟨u, v, hxu, hlate, hvy⟩
    · rcases hstep.cases with rfl | hdoc | hlate
      · exact Or.inl hdocumented
      · exact Or.inl (hdocumented.tail hdoc)
      · exact Or.inr ⟨y, z, hxy, hlate, refl⟩
    · exact Or.inr ⟨u, v, hxu, hlate, hvy.tail hstep⟩

theorem onCycleOf_builtStep_iff (hdeps : deps.Acyclic) {op : OP} :
    OnCycleOf (BuiltStep deps R D) op ↔
      OnDocumentedCycle deps R D op ∨ OnLateCycle deps R D op := by
  constructor
  · rintro ⟨actor, node, hne, hout, hback⟩
    rcases builtWalk_cases hout with hout' | ⟨u, v, hxu, hlate, hvn⟩
    · rcases builtWalk_cases hback with hback' | ⟨u, v, hnu, hlate, hvx⟩
      · exact Or.inl ⟨actor, node, hne, hout', hback'⟩
      · exact Or.inr ⟨actor, u, v, hout.trans hnu, hlate, hvx⟩
    · exact Or.inr ⟨actor, u, v, hxu, hlate, hvn.trans hback⟩
  · rintro (⟨actor, node, hne, hout, hback⟩ | ⟨actor, u, v, hxu, hlate, hvx⟩)
    · exact ⟨actor, node, hne, mono (fun _ _ => DocumentedStep.built) _ _ hout,
        mono (fun _ _ => DocumentedStep.built) _ _ hback⟩
    · have hxv := hxu.tail (hlate.built hdeps)
      have hux := head (hlate.built hdeps) hvx
      have hne : u ≠ v := by
        obtain ⟨a, b, c, op, op', -, -, hbef, rfl, rfl⟩ := hlate
        intro heq
        have hop : op = op' := congrArg Prod.snd heq
        exact hdeps op (by rwa [← hop] at hbef)
      -- one of the two ends of the late step is not where the walk starts
      by_cases hu : u = (actor, op)
      · exact ⟨actor, v, fun hv => hne (hu.trans hv.symm), hxv, hvx⟩
      · exact ⟨actor, u, hu, hxu, hux⟩

end Rule

namespace AuthorityGraphs

variable {ε : Type} [DecidableEq ID] [DecidableEq OP]
variable {self : AuthorityGraphs ID OP} {groupId : ID} {t : Traversals OP}
  {s : Traversals (Node ID OP)}

/-- What registering entries and asking for cycles lead to. -/
inductive Recorded (deps : DiGraphMap OP) : AuthorityGraphs ID OP → Prop
  | new : Recorded deps (new deps)
  | addRemoval {authority : AuthorityGraphs ID OP} (groupId remover removed : ID) (op : OP) :
      Recorded deps authority → Recorded deps (authority.addRemoval groupId remover removed op)
  | addDelegation {authority : AuthorityGraphs ID OP} (groupId delegator delegate : ID)
      (op : OP) : Recorded deps authority →
      Recorded deps (authority.addDelegation groupId delegator delegate op)
  | isCycle {authority authority' : AuthorityGraphs ID OP} {result : Bool} (t : Traversals OP)
      (s : Traversals (Node ID OP)) (groupId : ID) (op : OP) : Recorded deps authority →
      isCycle t s authority groupId op = (.ok (result, authority') : Outcome Empty _) →
      Recorded deps authority'

omit [DecidableEq OP] in
theorem CachesCurrent.of_erase (h : self.CachesCurrent) (groupId : ID)
    {self' : AuthorityGraphs ID OP} (hgrs : self'.graphs = self.graphs.erase groupId)
    (hcycles : self'.cycles = self.cycles.erase groupId)
    (hbuilt : ∀ groupId', groupId' ≠ groupId → self'.Built groupId' = self.Built groupId') :
    self'.CachesCurrent := by
  intro groupId' hsome
  have hne : groupId' ≠ groupId := by
    rintro rfl
    simp [hgrs] at hsome
  rw [hgrs, Finmap.lookup_erase_ne hne] at hsome
  rw [hcycles, Finmap.lookup_erase_ne hne, hbuilt groupId' hne]
  exact h groupId' hsome

theorem Recorded.invariant {deps : DiGraphMap OP} (hdeps : deps.Acyclic)
    (h : Recorded deps self) : self.depsGraph = deps ∧ self.CachesCurrent := by
  induction h with
  | new => exact ⟨rfl, fun groupId hsome => by simp [AuthorityGraphs.new] at hsome⟩
  | @addRemoval self groupId remover removed op _ ih =>
    obtain ⟨hgr, hcaches⟩ := ih
    refine ⟨depsGraph_addRemoval.trans hgr, ?_⟩
    by_cases hself : remover = removed
    · rw [AuthorityGraphs.addRemoval, if_pos hself]
      exact hcaches
    · refine hcaches.of_erase groupId ?_ ?_ ?_
      · rw [AuthorityGraphs.addRemoval, if_neg hself]
      · rw [AuthorityGraphs.addRemoval, if_neg hself]
      · intro groupId' hne
        have hrmv : (self.addRemoval groupId remover removed op).IsRemoval groupId' =
            self.IsRemoval groupId' := by
          funext a b op'
          simp [isRemoval_addRemoval, hne]
        have hdeleg : (self.addRemoval groupId remover removed op).IsDelegation groupId' =
            self.IsDelegation groupId' := by
          funext a b op'
          exact propext isDelegation_addRemoval
        rw [Built, hrmv, hdeleg, depsGraph_addRemoval]
  | @addDelegation self groupId delegator delegate op _ ih =>
    obtain ⟨hgr, hcaches⟩ := ih
    refine ⟨hgr, hcaches.of_erase groupId rfl rfl ?_⟩
    intro groupId' hne
    have hdeleg : (self.addDelegation groupId delegator delegate op).IsDelegation groupId' =
        self.IsDelegation groupId' := by
      funext a b op'
      simp [isDelegation_addDelegation, hne]
    rw [Built, hdeleg]
    rfl
  | @isCycle self self' result t s groupId op _ hrun ih =>
    obtain ⟨hgr, hcaches⟩ := ih
    obtain ⟨result', self'', hrun', hsame, hcaches', -⟩ :=
      isCycle_returns (hgr ▸ hdeps) hcaches t s groupId op
    cases hrun.symm.trans hrun'
    exact ⟨hsame.depsGraph.trans hgr, hcaches'⟩

/-- `isCycle` finds the documented cycles exactly if the operation is on no cycle with a late step,
or on a documented one as well. -/
theorem isCycle_exact_iff {deps : DiGraphMap OP} (hdeps : deps.Acyclic) (h : Recorded deps self)
    (t : Traversals OP) (s : Traversals (Node ID OP)) (groupId : ID) (op : OP) :
    ∃ result self', isCycle t s self groupId op = (.ok (result, self') : Outcome ε _) ∧
      ((result = true ↔
          OnDocumentedCycle deps (self.IsRemoval groupId) (self.IsDelegation groupId) op) ↔
        (OnLateCycle deps (self.IsRemoval groupId) (self.IsDelegation groupId) op →
          OnDocumentedCycle deps (self.IsRemoval groupId) (self.IsDelegation groupId) op)) := by
  obtain ⟨hgr, hcaches⟩ := h.invariant hdeps
  obtain ⟨result, self', hrun, -, -, hres⟩ := isCycle_returns (hgr ▸ hdeps) hcaches t s groupId op
  refine ⟨result, self', hrun, ?_⟩
  rw [Built, hgr, onCycleOf_builtStep_iff hdeps] at hres
  rw [hres]
  constructor
  · intro hexact hlate
    exact hexact.mp (Or.inr hlate)
  · intro hlate
    exact ⟨fun hcyc => hcyc.elim id hlate, Or.inl⟩

def mutualRemovals : AuthorityGraphs Nat Nat :=
  ((new .empty).addRemoval 9 1 2 0).addRemoval 9 2 1 1

theorem isCycle_exact_mutualRemovals : ∃ result self',
    isCycle Runtime.reference.graph Runtime.reference.authority mutualRemovals 9 0 =
      (.ok (result, self') : Outcome Empty _) ∧
    (result = true ↔ OnDocumentedCycle .empty (mutualRemovals.IsRemoval 9)
      (mutualRemovals.IsDelegation 9) 0) := by
  have hdeps : empty.Acyclic := acyclic_of_rank id fun a b hadj => absurd hadj not_adj_empty
  have hrec : Recorded .empty mutualRemovals := .addRemoval _ _ _ _ (.addRemoval _ _ _ _ .new)
  obtain ⟨result, self', hrun, hexact⟩ := isCycle_exact_iff hdeps hrec
    Runtime.reference.graph Runtime.reference.authority 9 0
  refine ⟨result, self', hrun, hexact.mpr ?_⟩
  rintro ⟨actor, x, y, -, ⟨a, b, c, op, op', -, hd, -⟩, -⟩
  simp [mutualRemovals, IsDelegation, addRemoval, new] at hd

def lateDeps : DiGraphMap Nat :=
  ((DiGraphMap.empty.addEdge 0 1).addEdge 1 2).addNode 3

/-- Member 1 removes 2; later 2, a manager again, delegates to 3, and 3 removes 5. Concurrently 5
removes 1. -/
def lateDelegation : AuthorityGraphs Nat Nat :=
  ((((new lateDeps).addRemoval 9 1 2 0).addDelegation 9 2 3 1).addRemoval 9 3 5 2).addRemoval
    9 5 1 3

theorem isRemoval_lateDelegation {a b op : Nat} : lateDelegation.IsRemoval 9 a b op ↔
    (a, b, op) ∈ [(1, 2, 0), (3, 5, 2), (5, 1, 3)] := by
  have hlook : (lateDelegation.removals.lookup 9).getD [] =
      [(1, 2, 0), (3, 5, 2), (5, 1, 3)] := by decide +kernel
  rw [IsRemoval, hlook]

theorem isDelegation_lateDelegation {a b op : Nat} : lateDelegation.IsDelegation 9 a b op ↔
    (a, b, op) = (2, 3, 1) := by
  have hlook : (lateDelegation.delegations.lookup 9).getD [] = [(2, 3, 1)] := by
    decide +kernel
  rw [IsDelegation, hlook, List.mem_singleton]

/-- The removal of 2 counts as part of a cycle, but only through the later delegation. -/
theorem isCycle_lateDelegation : lateDeps.Acyclic ∧ Recorded lateDeps lateDelegation ∧
    (isCycle Runtime.reference.graph Runtime.reference.authority lateDelegation 9 0 :
      Outcome Empty _).Returns (fun answer => answer.1 = true) ∧
    ¬OnDocumentedCycle lateDeps (lateDelegation.IsRemoval 9) (lateDelegation.IsDelegation 9) 0 := by
  refine ⟨?_, ?_, by decide +kernel, ?_⟩
  · apply acyclic_of_rank id
    intro a b hadj
    have hedges : ∀ e ∈ lateDeps.edges, e.1 < e.2 := by decide
    exact hedges (a, b) hadj
  · exact .addRemoval _ _ _ _ (.addRemoval _ _ _ _ (.addDelegation _ _ _ _ (.addRemoval _ _ _ _
      .new)))
  · have hbef : lateDeps.Before 0 1 :=
      DiGraphMap.Adj.before (show (0, 1) ∈ lateDeps.edges by decide)
    -- the only step from the removal leads to the removed member, and none leads on from there
    have hfst {actor : Nat} {y : Node Nat Nat} (hstep : DocumentedStep lateDeps
        (lateDelegation.IsRemoval 9) (lateDelegation.IsDelegation 9) (actor, 0) y) :
        actor = 1 ∧ y = (2, 0) := by
      cases hstep with
      | removal hr =>
        simp [isRemoval_lateDelegation] at hr
        simp [hr]
      | delegation hd => simp [isDelegation_lateDelegation] at hd
      | removalRemoval hr hr' =>
        simp [isRemoval_lateDelegation] at hr hr'
        omega
      | removalDelegation hr hd hapart =>
        simp only [isDelegation_lateDelegation, Prod.mk.injEq] at hd
        rw [hd.2.2] at hapart
        exact absurd hbef hapart.2.1
      | delegationRemoval hd => simp [isDelegation_lateDelegation] at hd
      | delegationDelegation hd => simp [isDelegation_lateDelegation] at hd
    have hstuck {y : Node Nat Nat} (hstep : DocumentedStep lateDeps (lateDelegation.IsRemoval 9)
        (lateDelegation.IsDelegation 9) (2, 0) y) : False := by
      have hactor := (hfst hstep).1
      omega
    rintro ⟨actor, node, hne, hout, hback⟩
    rcases cases_head hout with heq | ⟨next, hstep, hrest⟩
    · exact hne heq.symm
    · obtain ⟨rfl, rfl⟩ := hfst hstep
      rcases cases_head hrest with heq | ⟨_, hstep', -⟩
      · rw [← heq] at hback
        rcases cases_head hback with heq' | ⟨_, hstep', -⟩
        · simp at heq'
        · exact hstuck hstep'
      · exact hstuck hstep'

end AuthorityGraphs

end P2Panda.Auth.Group
