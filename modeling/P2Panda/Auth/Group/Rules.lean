import P2Panda.Auth.Group.Resolver

/-!
# The strong remove rules

What the resolver decides, of the operations and their graph as a whole: which operations are
filtered, and which removals are mutual. Neither mentions bubbles.
-/

namespace P2Panda.Auth.Group

open P2Panda.Library Relation ReflTransGen Incomparability

section Authority

variable {ID OP : Type} {deps deps' : DiGraphMap OP} {R D R' D' : ID → ID → OP → Prop}
  {x y : Node ID OP}

def IsEntry (R D : ID → ID → OP → Prop) (op : OP) : Prop := ∃ a b, R a b op ∨ D a b op

theorem AuthorityEdge.isEntry_target (h : AuthorityEdge deps R D x y) : IsEntry R D y.2 := by
  cases h with
  | removal hr => exact ⟨_, _, Or.inl hr⟩
  | delegation hd => exact ⟨_, _, Or.inr hd⟩
  | removalRemoval _ hr => exact ⟨_, _, Or.inl hr⟩
  | removalDelegation _ hd => exact ⟨_, _, Or.inr hd⟩
  | delegationRemoval _ hr => exact ⟨_, _, Or.inl hr⟩
  | delegationDelegation _ hd => exact ⟨_, _, Or.inr hd⟩

theorem AuthorityEdge.isEntry_source (h : AuthorityEdge deps R D x y) : IsEntry R D x.2 := by
  obtain ⟨a, b, hent, -⟩ := h.entry
  exact ⟨a, b, hent⟩

theorem AuthorityEdge.neverDescends (hacyc : deps.Acyclic)
    (hnds : ∀ {op}, IsEntry R D op → op ∈ deps.nodes) :
    Incomparability.NeverDescends deps.Before (· ∈ deps.nodes) (Prod.snd : Node ID OP → OP)
      (AuthorityEdge deps R D) := by
  refine ⟨fun h => hnds h.isEntry_source, fun h => hnds h.isEntry_target, ?_⟩
  intro p q hedge hdown
  cases hedge with
  | removal => exact hacyc _ hdown
  | delegation => exact hacyc _ hdown
  | removalRemoval _ _ hconcurrent => exact hconcurrent.2.2.2 hdown.reaches
  | removalDelegation _ _ hnot => exact hnot hdown
  | delegationRemoval _ _ hup => exact hacyc _ (hup.trans hdown)
  | delegationDelegation _ _ hup => exact hacyc _ (hup.trans hdown)

theorem sameBubble_of_cycle (hacyc : deps.Acyclic)
    (hnds : ∀ {op}, IsEntry R D op → op ∈ deps.nodes) {p q : Node ID OP} (hp : p.2 ∈ deps.nodes)
    (hpq : ReflTransGen (AuthorityEdge deps R D) p q)
    (hqp : ReflTransGen (AuthorityEdge deps R D) q p) : SameBubble deps p.2 q.2 := by
  have hq : q.2 ∈ deps.nodes := by
    rcases cases_tail hpq with rfl | ⟨m, -, hstep⟩
    · exact hp
    · exact hnds hstep.isEntry_target
  rw [← sameComponent_iff_sameBubble]
  exact (AuthorityEdge.neverDescends hacyc hnds).sameComponent_of_cycle
    (fun _ _ _ => DiGraphMap.Before.trans) hacyc hp hq hpq hqp

section Mono

/-! What the relations and the graphs are outside of `P` has no part in a cycle within `P`. -/

variable {P : OP → Prop} (hR : ∀ {a b op}, P op → R a b op → R' a b op)
  (hD : ∀ {a b op}, P op → D a b op → D' a b op)
  (hconcurrent : ∀ {op op'}, P op → P op' → deps.Concurrent op op' → deps'.Concurrent op op')
  (hbefore : ∀ {op op'}, P op → P op' → (deps.Before op op' ↔ deps'.Before op op'))
include hR hD hconcurrent hbefore

theorem AuthorityEdge.mono (h : AuthorityEdge deps R D x y) (hx : P x.2) (hy : P y.2) :
    AuthorityEdge deps' R' D' x y := by
  cases h with
  | removal hr => exact .removal (hR hx hr)
  | delegation hd => exact .delegation (hD hx hd)
  | removalRemoval hr hr' hc =>
    exact .removalRemoval (hR hx hr) (hR hy hr') (hconcurrent hx hy hc)
  | removalDelegation hr hd hb =>
    refine .removalDelegation (hR hx hr) (hD hy hd) ?_
    rwa [← hbefore hy hx]
  | delegationRemoval hd hr hb =>
    exact .delegationRemoval (hD hx hd) (hR hy hr) ((hbefore hx hy).mp hb)
  | delegationDelegation hd hd' hb =>
    exact .delegationDelegation (hD hx hd) (hD hy hd') ((hbefore hx hy).mp hb)

theorem OnAuthorityCycle.mono {op : OP} (h : OnAuthorityCycle deps R D op)
    (hP : ∀ {actor} {n : Node ID OP}, IsEntry R D n.2 →
      ReflTransGen (AuthorityEdge deps R D) (actor, op) n →
      ReflTransGen (AuthorityEdge deps R D) n (actor, op) → P n.2) :
    OnAuthorityCycle deps' R' D' op := by
  obtain ⟨actor, node, hne, hout, hback⟩ := h
  have hedge : ∀ n n' : Node ID OP, AuthorityEdge deps R D n n' ∧
      (IsEntry R D n.2 → P n.2) ∧ (IsEntry R D n'.2 → P n'.2) → AuthorityEdge deps' R' D' n n' :=
    fun n n' h => h.1.mono hR hD hconcurrent hbefore (h.2.1 h.1.isEntry_source)
      (h.2.2 h.1.isEntry_target)
  have hwalk := walk_within (fun n hn hn' hent => hP hent hn hn') hout hback
  -- The way back starts at `node`, and what it meets lies on the same cycle.
  have hwalk' := walk_within
    (fun n hn hn' hent => hP hent (hout.trans hn) (hn'.trans hback)) hback hout
  exact ⟨actor, node, hne, ReflTransGen.mono hedge _ _ hwalk, ReflTransGen.mono hedge _ _ hwalk'⟩

end Mono

end Authority

/-- The removal `r` cancels a concurrent `o`. -/
def Cancels {ID OP C : Type} [DecidableEq ID] (r o : Operation ID OP C) : Prop :=
  ∃ removed, r.removedOrDemotedManager = some removed ∧
    (StrongRemove.isRemoved r.groupId removed o || StrongRemove.isReadd r.groupId removed o) = true

instance {ID OP C : Type} [DecidableEq ID] (r o : Operation ID OP C) : Decidable (Cancels r o) :=
  decidable_of_iff (r.removedOrDemotedManager.any (fun removed =>
    StrongRemove.isRemoved r.groupId removed o || StrongRemove.isReadd r.groupId removed o) = true)
    (by rw [Option.any_eq_true, Cancels])

theorem Cancels.groupId_eq {ID OP C : Type} [DecidableEq ID] {r o : Operation ID OP C}
    (h : Cancels r o) : o.groupId = r.groupId := by
  obtain ⟨removed, -, hcanc⟩ := h
  by_contra hne
  have hne' : r.groupId ≠ o.groupId := fun heq => hne heq.symm
  simp [StrongRemove.isRemoved, StrongRemove.isReadd, hne'] at hcanc

namespace GroupCrdtInnerState

variable {ID OP C : Type} [DecidableEq OP] {y : GroupCrdtInnerState ID OP C} {o : Operation ID OP C}

def Has (y : GroupCrdtInnerState ID OP C) (x : OP) (o : Operation ID OP C) : Prop :=
  x ∈ y.graph.nodes ∧ y.operations.lookup x = some o

variable {x : OP}

theorem Has.unique {o o' : Operation ID OP C} (h : y.Has x o) (h' : y.Has x o') : o = o' := by
  have heq := h.2.symm.trans h'.2
  cases heq
  rfl

theorem Has.exists_iff (h : y.Has x o) {P : Operation ID OP C → Prop} :
    (∃ o', y.Has x o' ∧ P o') ↔ P o := by
  constructor
  · rintro ⟨o', h', hP⟩
    rwa [h.unique h']
  · exact fun hP => ⟨o, h, hP⟩

/-- The dependency graph of its operations, where every group was created before it was changed. -/
structure History (y : GroupCrdtInnerState ID OP C) : Prop where
  known : ∀ {x}, x ∈ y.graph.nodes → ∃ o, y.Has x o
  id : ∀ {x o}, y.Has x o → o.id = x
  adj : ∀ {a x o}, y.Has x o → (y.graph.Adj a x ↔ a ∈ o.dependencies)
  acyclic : y.graph.Acyclic
  created : ∀ {x o}, y.Has x o → o.action.isCreate = false → ∃ c oc, y.graph.Before c x ∧
    y.Has c oc ∧ oc.action.isCreate = true ∧ oc.groupId = o.groupId

theorem History.adj_iff_dep (h : y.History) {d x : OP} (hx : y.Has x o) :
    y.graph.Adj d x ↔ d ∈ o.dependencies.toFinset := by
  rw [h.adj hx, List.mem_toFinset]

def Removes (y : GroupCrdtInnerState ID OP C) (groupId remover removed : ID) (x : OP) : Prop :=
  ∃ o, y.Has x o ∧ o.groupId = groupId ∧ o.author = remover ∧
    o.removedOrDemotedManager = some removed ∧ remover ≠ removed

def Delegates (y : GroupCrdtInnerState ID OP C) (groupId delegator delegate : ID) (x : OP) : Prop :=
  ∃ o, y.Has x o ∧ o.groupId = groupId ∧ o.author = delegator ∧
    o.addedOrPromotedManager = some delegate

def OnCycle (y : GroupCrdtInnerState ID OP C) (groupId : ID) (x : OP) : Prop :=
  OnAuthorityCycle y.graph (y.Removes groupId) (y.Delegates groupId) x

def Mutual (y : GroupCrdtInnerState ID OP C) (x : OP) : Prop :=
  ∃ o, y.Has x o ∧ o.removedOrDemotedManager.isSome ∧ y.OnCycle o.groupId x

def Filtered [DecidableEq ID] (y : GroupCrdtInnerState ID OP C) (x : OP) : Prop :=
  ∃ o r ro, y.Has x o ∧ y.Has r ro ∧ y.graph.Concurrent r x ∧ Cancels ro o

theorem removes_iff (hx : y.Has x o) {g a b : ID} :
    y.Removes g a b x ↔
      g = o.groupId ∧ a = o.author ∧ o.removedOrDemotedManager = some b ∧ a ≠ b := by
  rw [Removes, hx.exists_iff, eq_comm, @eq_comm _ a]

theorem delegates_iff (hx : y.Has x o) {g a b : ID} :
    y.Delegates g a b x ↔ g = o.groupId ∧ a = o.author ∧ o.addedOrPromotedManager = some b := by
  rw [Delegates, hx.exists_iff, eq_comm, @eq_comm _ a]

variable {groupId : ID}

theorem exists_has_of_isEntry (h : IsEntry (y.Removes groupId) (y.Delegates groupId) x) :
    ∃ o, y.Has x o ∧ o.groupId = groupId ∧
      (o.removedOrDemotedManager.isSome ∨ o.addedOrPromotedManager.isSome) := by
  obtain ⟨a, b, ⟨o, hhas, hgrp, -, hrmd, -⟩ | ⟨o, hhas, hgrp, -, hadd⟩⟩ := h
  · exact ⟨o, hhas, hgrp, Or.inl (by simp [hrmd])⟩
  · exact ⟨o, hhas, hgrp, Or.inr (by simp [hadd])⟩

theorem mem_nodes_of_isEntry (h : IsEntry (y.Removes groupId) (y.Delegates groupId) x) :
    x ∈ y.graph.nodes := by
  obtain ⟨o, hhas, -⟩ := exists_has_of_isEntry h
  exact hhas.1

theorem mutual_iff (hx : y.Has x o) :
    y.Mutual x ↔ o.removedOrDemotedManager.isSome ∧ y.OnCycle o.groupId x :=
  hx.exists_iff

theorem author_of_edge (hacyc : y.graph.Acyclic) (hx : y.Has x o) {groupId a b : ID}
    (h : AuthorityEdge y.graph (y.Removes groupId) (y.Delegates groupId) (a, x) (b, x)) :
    a = o.author := by
  cases h with
  | removal hr => exact ((removes_iff hx).mp hr).2.1
  | delegation hd => exact ((delegates_iff hx).mp hd).2.1
  | removalRemoval _ _ hconcurrent => exact absurd rfl hconcurrent.ne
  | removalDelegation hr hd =>
    -- No operation both takes a manager away and makes one.
    have hadd := ((delegates_iff hx).mp hd).2.2
    rw [Operation.addedOrPromotedManager_eq_none ((removes_iff hx).mp hr).2.2.1] at hadd
    cases hadd
  | delegationRemoval _ _ hbefore => exact absurd hbefore (hacyc x)
  | delegationDelegation _ _ hbefore => exact absurd hbefore (hacyc x)

theorem OnCycle.exists_other (hacyc : y.graph.Acyclic) (hx : y.Has x o) (h : y.OnCycle groupId x) :
    ∃ (actor : ID) (n : Node ID OP), n.2 ≠ x ∧
      ReflTransGen (AuthorityEdge y.graph (y.Removes groupId) (y.Delegates groupId)) (actor, x) n ∧
      ReflTransGen (AuthorityEdge y.graph (y.Removes groupId) (y.Delegates groupId)) n
        (actor, x) := by
  obtain ⟨actor, node, hne, hout, hback⟩ := h
  by_contra hall
  have hstay : ∀ n : Node ID OP,
      ReflTransGen (AuthorityEdge y.graph (y.Removes groupId) (y.Delegates groupId)) (actor, x) n →
      ReflTransGen (AuthorityEdge y.graph (y.Removes groupId) (y.Delegates groupId)) n (actor, x) →
      n.2 = x := by
    intro n hn hn'
    by_contra hop
    exact hall ⟨actor, n, hop, hn, hn'⟩
  -- Both ends have an edge out that stays at `x`, so both are the author's node.
  have hauthor : ∀ n n' : Node ID OP,
      ReflTransGen (AuthorityEdge y.graph (y.Removes groupId) (y.Delegates groupId)) (actor, x) n →
      ReflTransGen (AuthorityEdge y.graph (y.Removes groupId) (y.Delegates groupId)) n n' →
      ReflTransGen (AuthorityEdge y.graph (y.Removes groupId) (y.Delegates groupId)) n' (actor, x) →
      n ≠ n' → n = (o.author, x) := by
    rintro ⟨a, op⟩ n' hn hnn' hn' hne
    rcases cases_head hnn' with heq | ⟨⟨b, op'⟩, hstep, hrest⟩
    · exact absurd heq hne
    · have hop : op = x := hstay _ hn (hnn'.trans hn')
      have hop' : op' = x := hstay _ (hn.tail hstep) (hrest.trans hn')
      subst hop hop'
      rw [author_of_edge hacyc hx hstep]
  have hsrc := hauthor _ node refl hout hback (Ne.symm hne)
  have htgt := hauthor node _ hout hback refl hne
  exact hne (htgt.trans hsrc.symm)

theorem OnCycle.exists_concurrent (hacyc : y.graph.Acyclic) (hx : y.Has x o)
    (h : y.OnCycle groupId x) : ∃ z, y.graph.Concurrent x z := by
  obtain ⟨actor, n, hne, hout, hback⟩ := h.exists_other hacyc hx
  have hsame := sameBubble_of_cycle hacyc mem_nodes_of_isEntry hx.1 hout hback
  rcases cases_head hsame with heq | ⟨z, hstep, -⟩
  · exact absurd heq.symm hne
  · exact ⟨z, hstep⟩

variable {y y' : GroupCrdtInnerState ID OP C} {groupId : ID} {x : OP} {o : Operation ID OP C}

/-- The two histories have the same operations of a group, in the same order. -/
structure AgreeOn (groupId : ID) (y y' : GroupCrdtInnerState ID OP C) : Prop where
  has : ∀ {x o}, o.groupId = groupId → (y.Has x o ↔ y'.Has x o)
  before : ∀ {a b oa ob}, y.Has a oa → oa.groupId = groupId → y.Has b ob →
    ob.groupId = groupId → (y.graph.Before a b ↔ y'.graph.Before a b)

namespace AgreeOn

theorem symm (h : AgreeOn groupId y y') : AgreeOn groupId y' y where
  has hgrp := (h.has hgrp).symm
  before ha hga hb hgb := (h.before ((h.has hga).mpr ha) hga ((h.has hgb).mpr hb) hgb).symm

theorem concurrent (h : AgreeOn groupId y y') {a b : OP} {oa ob : Operation ID OP C}
    (ha : y.Has a oa) (hga : oa.groupId = groupId) (hb : y.Has b ob) (hgb : ob.groupId = groupId) :
    y.graph.Concurrent a b ↔ y'.graph.Concurrent a b := by
  simp only [← incomparable_iff_concurrent, Incomparable, ha.1, hb.1,
    ((h.has hga).mp ha).1, ((h.has hgb).mp hb).1, h.before ha hga hb hgb, h.before hb hgb ha hga]

theorem onCycle_imp (h : AgreeOn groupId y y') (hcyc : y.OnCycle groupId x) :
    y'.OnCycle groupId x := by
  refine hcyc.mono (P := fun op => ∃ o, y.Has op o ∧ o.groupId = groupId) ?_ ?_ ?_ ?_ ?_
  · rintro a b op - ⟨o, hhas, hgrp, hrest⟩
    exact ⟨o, (h.has hgrp).mp hhas, hgrp, hrest⟩
  · rintro a b op - ⟨o, hhas, hgrp, hrest⟩
    exact ⟨o, (h.has hgrp).mp hhas, hgrp, hrest⟩
  · rintro op op' ⟨o, hhas, hgrp⟩ ⟨o', hhas', hgroup'⟩
    exact (h.concurrent hhas hgrp hhas' hgroup').mp
  · rintro op op' ⟨o, hhas, hgrp⟩ ⟨o', hhas', hgroup'⟩
    exact h.before hhas hgrp hhas' hgroup'
  · intro actor n hent _ _
    obtain ⟨o, hhas, hgrp, -⟩ := exists_has_of_isEntry hent
    exact ⟨o, hhas, hgrp⟩

theorem mutual_iff (h : AgreeOn groupId y y') (hx : y.Has x o) (hgrp : o.groupId = groupId) :
    y.Mutual x ↔ y'.Mutual x := by
  subst hgrp
  rw [GroupCrdtInnerState.mutual_iff hx, GroupCrdtInnerState.mutual_iff ((h.has rfl).mp hx)]
  exact and_congr_right' ⟨h.onCycle_imp, h.symm.onCycle_imp⟩

variable [DecidableEq ID]

theorem filtered_imp (h : AgreeOn groupId y y') (hx : y.Has x o) (hgrp : o.groupId = groupId)
    (hfilt : y.Filtered x) : y'.Filtered x := by
  obtain ⟨o', r, ro, hx', hr, hconcurrent, hcanc⟩ := hfilt
  cases hx.unique hx'
  have hgroupR : ro.groupId = groupId := hcanc.groupId_eq.symm.trans hgrp
  exact ⟨o, r, ro, (h.has hgrp).mp hx, (h.has hgroupR).mp hr,
    (h.concurrent hr hgroupR hx hgrp).mp hconcurrent, hcanc⟩

theorem filtered_iff (h : AgreeOn groupId y y') (hx : y.Has x o) (hgrp : o.groupId = groupId) :
    y.Filtered x ↔ y'.Filtered x :=
  ⟨h.filtered_imp hx hgrp, h.symm.filtered_imp ((h.has hgrp).mp hx) hgrp⟩

end AgreeOn

/-- `y'` is `y` with one more operation, on top of its dependencies. -/
structure IsExtension (y y' : GroupCrdtInnerState ID OP C) (o : Operation ID OP C) : Prop where
  graph : y.graph.IsSinkExtension y'.graph o.id (· ∈ o.dependencies)
  has : ∀ {x o'}, y'.Has x o' ↔ x = o.id ∧ o' = o ∨ y.Has x o'

namespace IsExtension

variable {ox : Operation ID OP C}

variable (h : IsExtension y y' o)
include h

theorem has_old (hx : y.Has x ox) : y'.Has x ox :=
  h.has.mpr (Or.inr hx)

theorem has_new : y'.Has o.id o :=
  h.has.mpr (Or.inl ⟨rfl, rfl⟩)

theorem ne_of_has (hx : y.Has x ox) : x ≠ o.id := by
  rintro rfl
  exact h.graph.fresh hx.1

theorem onCycle_old (hx : x ≠ o.id) (hnew : ¬y'.OnCycle groupId o.id) :
    y'.OnCycle groupId x ↔ y.OnCycle groupId x := by
  have hold : ∀ {op o'}, op ∈ y.graph.nodes → y'.Has op o' → y.Has op o' := by
    intro op o' hop hhas
    refine (h.has.mp hhas).resolve_left ?_
    rintro ⟨rfl, -⟩
    exact h.graph.fresh hop
  constructor
  · intro hcyc
    refine hcyc.mono ?_ ?_ (fun hop hop' => (h.graph.concurrent_old hop hop').mp)
      (fun _ hop' => h.graph.before_old hop') ?_
    · rintro a b op hop ⟨o', hhas, hrest⟩
      exact ⟨o', hold hop hhas, hrest⟩
    · rintro a b op hop ⟨o', hhas, hrest⟩
      exact ⟨o', hold hop hhas, hrest⟩
    · rintro actor ⟨actor', op⟩ hent hout hback
      obtain ⟨o', hhas, -⟩ := exists_has_of_isEntry hent
      rcases h.has.mp hhas with ⟨rfl, -⟩ | hhas
      · exact absurd ⟨actor', _, fun heq => hx (congrArg Prod.snd heq), hback, hout⟩ hnew
      · exact hhas.1
  · intro hcyc
    refine hcyc.mono ?_ ?_ (fun hop hop' => (h.graph.concurrent_old hop hop').mpr)
      (fun _ hop' => (h.graph.before_old hop').symm) fun hent _ _ => mem_nodes_of_isEntry hent
    · rintro a b op - ⟨o', hhas, hrest⟩
      exact ⟨o', h.has_old hhas, hrest⟩
    · rintro a b op - ⟨o', hhas, hrest⟩
      exact ⟨o', h.has_old hhas, hrest⟩

theorem mutual_old (hx : y.Has x ox) (hnew : ¬y'.OnCycle ox.groupId o.id) :
    y'.Mutual x ↔ y.Mutual x := by
  rw [mutual_iff (h.has_old hx), mutual_iff hx, h.onCycle_old (h.ne_of_has hx) hnew]

theorem not_onCycle_of_not_entry (hrmd : o.removedOrDemotedManager = none)
    (hadd : o.addedOrPromotedManager = none) :
    ¬y'.OnCycle groupId o.id := by
  intro hcyc
  obtain ⟨actor, node, hedge⟩ := hcyc.exists_edge
  obtain ⟨o', hhas, -, hent⟩ := exists_has_of_isEntry hedge.isEntry_source
  cases hhas.unique h.has_new
  simp [hrmd, hadd] at hent

/-- An operation after all others of its group is on no cycle: no edge leads from it to another
one. -/
theorem not_onCycle_of_last (hacyc : y.graph.Acyclic)
    (hlast : ∀ {x ox}, y.Has x ox → ox.groupId = o.groupId → y'.graph.Before x o.id) :
    ¬y'.OnCycle groupId o.id := by
  have hprior : ∀ {op op' o'}, y'.Has op o' → o'.groupId = groupId →
      IsEntry (y'.Removes groupId) (y'.Delegates groupId) op' → op' = o.id →
      op = o.id ∨ y'.graph.Before op o.id := by
    rintro op op' o' hhas hgrp hop' rfl
    obtain ⟨o'', hhas', hgroup', -⟩ := exists_has_of_isEntry hop'
    cases hhas'.unique h.has_new
    rcases h.has.mp hhas with ⟨heq, -⟩ | hold
    · exact Or.inl heq
    · exact Or.inr (hlast hold (hgrp.trans hgroup'.symm))
  have hsink : ∀ {op}, ¬y'.graph.Before o.id op := by
    intro op hbefore
    obtain ⟨c, hadj, -⟩ := TransGen.head'_iff.mp hbefore
    exact h.graph.not_adj_sink hadj
  have hedge : ∀ {actor node}, AuthorityEdge y'.graph (y'.Removes groupId) (y'.Delegates groupId)
      (actor, o.id) node → node.2 = o.id := by
    intro actor node hedge
    have hsrc := hedge.isEntry_source
    cases hedge with
    | removal => rfl
    | delegation => rfl
    | removalRemoval _ hr hconcurrent =>
      obtain ⟨o', hhas, hgrp, -⟩ := hr
      rcases hprior hhas hgrp hsrc rfl with heq | hbefore
      · exact heq
      · exact absurd hbefore.reaches hconcurrent.2.2.2
    | removalDelegation hr hd hnot =>
      obtain ⟨o', hhas, hgrp, -⟩ := hd
      rcases hprior hhas hgrp hsrc rfl with heq | hbefore
      · exact heq
      · exact absurd hbefore hnot
    | delegationRemoval _ _ hbefore => exact absurd hbefore hsink
    | delegationDelegation _ _ hbefore => exact absurd hbefore hsink
  intro hcyc
  obtain ⟨actor, n, hne, hout, -⟩ := hcyc.exists_other (h.graph.acyclic hacyc) h.has_new
  refine hne ?_
  clear hne
  induction hout with
  | refl => rfl
  | @tail n n' _ hstep ih =>
    obtain ⟨a, op'⟩ := n
    cases ih
    exact hedge hstep

section

variable [DecidableEq ID]

theorem filtered_old (hx : y.Has x ox) :
    y'.Filtered x ↔ y.Filtered x ∨ y'.graph.Concurrent o.id x ∧ Cancels o ox := by
  constructor
  · rintro ⟨o', r, ro, hx', hr, hconcurrent, hcanc⟩
    cases (h.has_old hx).unique hx'
    rcases h.has.mp hr with ⟨rfl, rfl⟩ | hr
    · exact Or.inr ⟨hconcurrent, hcanc⟩
    · exact Or.inl ⟨ox, r, ro, hx, hr, (h.graph.concurrent_old hr.1 hx.1).mp hconcurrent, hcanc⟩
  · rintro (⟨o', r, ro, hx', hr, hconcurrent, hcanc⟩ | ⟨hconcurrent, hcanc⟩)
    · cases hx.unique hx'
      exact ⟨ox, r, ro, h.has_old hx, h.has_old hr,
        (h.graph.concurrent_old hr.1 hx.1).mpr hconcurrent, hcanc⟩
    · exact ⟨ox, o.id, o, h.has_old hx, h.has_new, hconcurrent, hcanc⟩

section Last

/-! An operation on top of all others of its group is not filtered and filters nothing. -/

variable (hlast : ∀ {x ox}, y.Has x ox → ox.groupId = o.groupId → y'.graph.Before x o.id)

include hlast

theorem not_filtered_of_last : ¬y'.Filtered o.id := by
  rintro ⟨o', r, ro, ho', hr, hconcurrent, hcanc⟩
  cases ho'.unique h.has_new
  rcases h.has.mp hr with ⟨heq, -⟩ | hold
  · exact hconcurrent.ne heq
  · exact hconcurrent.2.2.1 (hlast hold hcanc.groupId_eq.symm).reaches

theorem filtered_of_last (hx : y.Has x ox) : y'.Filtered x ↔ y.Filtered x := by
  rw [h.filtered_old hx, or_iff_left]
  rintro ⟨hconcurrent, hcanc⟩
  exact hconcurrent.2.2.2 (hlast hx hcanc.groupId_eq).reaches

end Last

end

end IsExtension

end GroupCrdtInnerState

end P2Panda.Auth.Group
