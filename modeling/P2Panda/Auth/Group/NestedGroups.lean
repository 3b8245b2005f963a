import P2Panda.Auth.Group.Sequential

/-!
# Groups as members of groups

A group is not to manage another one, and not to contain itself. Adding a group is checked against
both, promoting it against the first; creating a group with such members or demoting one to manage
access is not checked.
-/

namespace P2Panda.Auth.Group

open P2Panda.Library Relation GroupStates

variable {ID OP C ε : Type}

def NotManagerGroup (member : GroupMember ID) (access : Access C) : Prop :=
  ¬(member.isGroup = true ∧ access.isManage = true)

instance (member : GroupMember ID) (access : Access C) :
    Decidable (NotManagerGroup member access) :=
  inferInstanceAs (Decidable ¬_)

namespace GroupAction

/-- The action does not hand manage access to a group in an unchecked way. -/
def SparesManagerGroups : GroupAction ID C → Prop
  | create initialMembers => ∀ p ∈ initialMembers, NotManagerGroup p.1 p.2
  | demote member access => NotManagerGroup member access
  | _ => True

instance (action : GroupAction ID C) : Decidable action.SparesManagerGroups :=
  match action with
  | create initialMembers =>
    inferInstanceAs (Decidable (∀ p ∈ initialMembers, NotManagerGroup p.1 p.2))
  | demote member access => inferInstanceAs (Decidable (NotManagerGroup member access))
  | add _ _ => isTrue trivial
  | remove _ => isTrue trivial
  | promote _ _ => isTrue trivial

def initialGroups : GroupAction ID C → List ID
  | create initialMembers => initialMembers.filterMap fun p => p.1.groupId?
  | _ => []

theorem grantsOnly_notManagerGroup {action : GroupAction ID C}
    (hchecked : GroupCrdt.managerGroup? action = none) (h : action.SparesManagerGroups) :
    action.GrantsOnly NotManagerGroup := by
  cases action with
  | create initialMembers => exact h
  | remove member => trivial
  | demote member access => exact h
  | add member access => simpa [GroupCrdt.managerGroup?, GrantsOnly, NotManagerGroup] using hchecked
  | promote member access =>
    simpa [GroupCrdt.managerGroup?, GrantsOnly, NotManagerGroup] using hchecked

end GroupAction

namespace GroupCrdt

open GroupCrdtInnerState

variable [DecidableEq ID] [DecidableEq OP] [Conditions C]
variable {ops : List (Operation ID OP C)} {y : GroupCrdtInnerState ID OP C}
  {states : GroupStates ID C} {E : Runtime ID OP} {current : GroupStates ID C}
  {o : Operation ID OP C}

theorem Run.managerGroup (h : Run ops y) : ∀ o ∈ ops, managerGroup? o.action = none := by
  induction h with
  | init => simp
  | step E hrun hok ih =>
    refine List.forall_mem_append.mpr ⟨ih, List.forall_mem_singleton.mpr ?_⟩
    exact (process_ok hrun.consistent hok).2.2.managerGroup

/-- In a run without the unchecked kinds of operations, no state has a group as an active
manager. -/
theorem no_active_manager_group (h : Run ops y) (hops : ∀ o ∈ ops, o.action.SparesManagerGroups)
    {states : GroupStates ID C}
    (hstates : (∃ x ∈ y.graph.nodes, y.states.lookup x = some states) ∨
      ∃ E, y.currentState E = (.ok states : Outcome ε _))
    {groupId : ID} {member : GroupMember ID} {m : MemberState C}
    (hm : states.memberState groupId member = some m) :
    ¬(member.isGroup = true ∧ m.isMember = true ∧ m.isManager = true) := by
  have hy : y.GrantsOnly fun _ => NotManagerGroup := fun hx =>
    have hmem := (h.has_iff.mp hx).1
    GroupAction.grantsOnly_notManagerGroup (h.managerGroup _ hmem) (hops _ hmem)
  have hgrants : states.GrantsOnly fun _ => NotManagerGroup := by
    rcases hstates with ⟨x, hx, hstor⟩ | ⟨E, hcur⟩
    · rw [← stateOf_eq hstor]
      exact h.consistent.grantsOnly_stateOf hy hx
    · exact h.consistent.grantsOnly_currentState hy (h.consistent.isJoin_of_currentState hcur)
  obtain ⟨members, hmbrs, hmbr⟩ := memberState_eq_some.mp hm
  exact fun ⟨hgrp, _, hmgr⟩ => hgrants groupId members hmbrs member m hmbr ⟨hgrp, hmgr⟩

def nestedTwice : List (Operation Nat Nat Unit) :=
  [⟨0, 1, [], 9, createManagers [1]⟩,
    ⟨1, 1, [0], 8, .create [(.individual 1, .manage), (.group 9, .read)]⟩,
    ⟨2, 1, [1], 9, .add (.group 7) .read⟩]

theorem no_active_manager_group_nestedTwice : ∃ y states m, Run nestedTwice y ∧
    y.currentState .reference = (.ok states : Outcome Empty _) ∧
    states.memberState 8 (.group 9) = some m ∧ m.isMember = true ∧
    ¬((GroupMember.group 9).isGroup = true ∧ m.isMember = true ∧ m.isManager = true) := by
  obtain ⟨y, h, states, hsts, hactv⟩ := Run.of_returns
    (p := fun y => (y.currentState .reference : Outcome Empty _).Returns fun states =>
      states.Active 8 (.group 9)) .reference nestedTwice (by decide +kernel)
  obtain ⟨m, hm, hmbr⟩ := hactv
  exact ⟨y, states, m, h, hsts, hm, hmbr, no_active_manager_group h (by decide)
    (Or.inr ⟨_, hsts⟩) hm⟩

def createdWithManagerGroup : List (Operation Nat Nat Unit) :=
  [⟨0, 1, [], 9, .create [(.individual 1, .manage), (.group 8, .manage)]⟩]

def demotedToManagerGroup : List (Operation Nat Nat Unit) :=
  [⟨0, 1, [], 9, .create [(.individual 1, .manage), (.group 8, .read)]⟩,
    ⟨1, 1, [0], 9, .demote (.group 8) .manage⟩]

/-- Both ways in are open. -/
theorem active_manager_group :
    (∃ y, Run createdWithManagerGroup y ∧
      (y.currentState .reference : Outcome Empty _).Returns fun states =>
        (states.memberState 9 (.group 8)).any (fun m => m.isMember && m.isManager) = true) ∧
    ∃ y, Run demotedToManagerGroup y ∧
      (y.currentState .reference : Outcome Empty _).Returns fun states =>
        (states.memberState 9 (.group 8)).any (fun m => m.isMember && m.isManager) = true := by
  constructor
  · exact Run.of_returns .reference createdWithManagerGroup (by decide +kernel)
  · exact Run.of_returns .reference demotedToManagerGroup (by decide +kernel)

abbrev HasSubGroup (states : GroupStates ID C) (parent child : ID) : Prop :=
  states.Active parent (.group child)

omit [Conditions C] in
theorem mem_childGroups {parent child : ID} :
    child ∈ childGroups E states parent ↔ HasSubGroup states parent child := by
  unfold childGroups
  cases hgrp : states.lookup parent with
  | none => simp [Active, memberState, hgrp]
  | some members =>
    simp only [List.mem_filterMap, Prod.exists, GroupMembersState.mem_accessLevels,
      Active, memberState, hgrp, Option.bind_some]
    constructor
    · rintro ⟨member, access, ⟨m, hm, hactv, -⟩, hid⟩
      cases member with
      | individual id => cases hid
      | group id =>
        cases hid
        exact ⟨m, hm, hactv⟩
    · rintro ⟨m, hm, hactv⟩
      exact ⟨.group child, m.access, ⟨m, hm, hactv, rfl⟩, rfl⟩

omit [Conditions C] in
/-- `would_create_cycle` finds every group nested inside the start. -/
theorem nests_iff {start target : ID} :
    nests E states start target = true ↔ ReflTransGen (HasSubGroup states) start target := by
  have hout : ∀ v, v ∉ states.keys → childGroups E states v = [] := by
    intro v hv
    have habs : states.lookup v = none := by
      rw [← Option.not_isSome_iff_eq_none, Option.isSome_iff_exists, ← HashMap.mem_keys_iff]
      exact hv
    simp [childGroups, habs]
  have hstep : Step (childGroups E states) = HasSubGroup states := by
    funext a b
    exact propext mem_childGroups
  rw [nests, search_iff hout le_rfl, hstep]
  simp

omit [DecidableEq OP] in
/-- Who is active after an operation was before, or was brought in by it. -/
theorem active_insert_resolveMembers {groupId : ID} {member : GroupMember ID}
    (h : GroupStates.Active (current.insert o.groupId
      (resolveMembers false false o (current.lookup o.groupId))) groupId member) :
    current.Active groupId member ∨ groupId = o.groupId ∧
      ((∃ initialMembers access, o.action = .create initialMembers ∧
        (member, access) ∈ initialMembers) ∨ ∃ access, o.action = .add member access) := by
  obtain ⟨m, hm, hactv⟩ := h
  obtain ⟨members, hmbrs, hmbr⟩ := memberState_eq_some.mp hm
  rw [HashMap.lookup_insert_ite] at hmbrs
  split_ifs at hmbrs with hgrp
  swap
  · exact Or.inl ⟨m, memberState_eq_some.mpr ⟨members, hmbrs, hmbr⟩, hactv⟩
  subst hgrp
  cases hmbrs
  cases hcrt : o.action.isCreate with
  | true =>
    obtain ⟨initialMembers, hactn⟩ := GroupAction.isCreate_iff.mp hcrt
    rw [resolveMembers_create hactn] at hmbr
    have hinit := GroupMembersState.grantsOnly_create
      (P := fun member access => (member, access) ∈ initialMembers) (fun p hp => hp) member m
      hmbr
    exact Or.inr ⟨rfl, Or.inl ⟨initialMembers, m.access, hactn, hinit⟩⟩
  | false =>
    obtain ⟨s, hs⟩ : ∃ s, s = (current.lookup o.groupId).getD .default := ⟨_, rfl⟩
    have hbef : ∀ {m0}, s.members.lookup member = some m0 → m0.isMember = true →
        current.Active o.groupId member := by
      intro m0 hm0 hactive0
      cases hlook : current.lookup o.groupId with
      | none => simp [hs, hlook, GroupMembersState.default] at hm0
      | some s' =>
        rw [hlook, Option.getD_some] at hs
        exact ⟨m0, memberState_eq_some.mpr ⟨s', hlook, hs ▸ hm0⟩, hactive0⟩
    have hresolve : resolveMembers false false o (current.lookup o.groupId) =
        resolveMembers false false o (some s) := by
      rw [hs]
      rfl
    rw [hresolve] at hmbr
    rcases resolveMembers_cases hcrt rfl with heq | ⟨-, -, changed, m', hchg, hlook⟩ | ⟨hmut, -⟩
    · rw [heq] at hmbr
      exact Or.inl (hbef hmbr hactv)
    · rw [hlook] at hmbr
      split_ifs at hmbr with hk
      swap
      · exact Or.inl (hbef hmbr hactv)
      subst hk
      cases hmbr
      rcases hchg.eq_add_or_active hactv with hadd | ⟨m0, hm0, hactive0⟩
      · exact Or.inr ⟨rfl, Or.inr hadd⟩
      · exact Or.inl (hbef hm0 hactive0)
    · cases hmut

/-- The groups an operation creates a group with pass the check that adding them has to pass. -/
def ClosesNoCycle (E : Runtime ID OP) (y : GroupCrdtInnerState ID OP C)
    (o : Operation ID OP C) : Prop :=
  ∀ child ∈ o.action.initialGroups, (y.currentState E : Outcome (GroupCrdtError ID OP) _).Returns
    fun states => nests E states child o.groupId = false

instance (E : Runtime ID OP) (y : GroupCrdtInnerState ID OP C) (o : Operation ID OP C) :
    Decidable (ClosesNoCycle E y o) :=
  inferInstanceAs (Decidable (∀ _ ∈ _, _))

theorem acyclic_insert_resolveMembers (h : Sequential y current) (hcrt : ClosesNoCycle E y o)
    (hadm : Admissible E y o) (hacyc : ∀ g, ¬TransGen (HasSubGroup current) g g) (g : ID) :
    ¬TransGen (HasSubGroup (current.insert o.groupId
      (resolveMembers false false o (current.lookup o.groupId)))) g g := by
  refine not_transGen_of_new_edges (g := o.groupId) hacyc (fun parent child hnew => ?_) g
  have hblk : ∀ {child}, nests E current child o.groupId = false →
      ¬ReflTransGen (HasSubGroup current) child o.groupId := by
    intro child hnests
    rw [← nests_iff (E := E), hnests]
    exact Bool.false_ne_true
  refine (active_insert_resolveMembers hnew).imp_right fun ⟨hgrp, hcases⟩ => ⟨hgrp, ?_⟩
  rcases hcases with ⟨initialMembers, access, hactn, hmem⟩ | ⟨access, hactn⟩
  · have hchild : child ∈ o.action.initialGroups := by
      rw [hactn]
      exact List.mem_filterMap.mpr ⟨_, hmem, rfl⟩
    obtain ⟨states, hsts, hnests⟩ := hcrt child hchild
    cases (h.currentState E).symm.trans hsts
    exact hblk hnests
  · have hcyc := hadm.cycle
    simp only [wouldCreateCycle, hactn, h.currentState, Outcome.ok_bind, Outcome.pure_eq,
      Outcome.ok.injEq] at hcyc
    exact hblk hcyc

/-- As long as every operation builds on all tips and no group is created around itself, no group
contains itself. -/
theorem nesting_acyclic
    (h : GuardedRun (fun E y o => BuildsOnTips y o ∧ ClosesNoCycle E y o) y) (E : Runtime ID OP) :
    ∃ states, y.currentState E = (.ok states : Outcome ε _) ∧
      ∀ groupId, ¬TransGen (HasSubGroup states) groupId groupId := by
  have hemp : ∀ g, ¬TransGen (HasSubGroup (∅ : GroupStates ID C)) g g := by
    intro g hcyc
    obtain ⟨child, ⟨m, hm, -⟩, -⟩ := TransGen.head'_iff.mp hcyc
    simp [memberState] at hm
  obtain ⟨current, hsequ, -, hacyc⟩ := h.sequential (fun hguard => hguard.1) hemp
    fun hsequ hguard hadm hI =>
      acyclic_insert_resolveMembers hsequ hguard.2 hadm hI
  exact ⟨current, hsequ.currentState E, hacyc⟩

theorem GuardedRun.of_returns {P : GroupCrdtInnerState ID OP C → Prop} (E : Runtime ID OP)
    (ops : List (Operation ID OP C))
    (h : (ops.foldlM (fun y o => if o.dependencies.toFinset = y.headsGlobal ∧ ClosesNoCycle E y o
      then process E y o else .panic "not on the tips") GroupCrdt.init).Returns P) :
    ∃ y, GuardedRun (fun E y o => BuildsOnTips y o ∧ ClosesNoCycle E y o) y ∧ P y := by
  obtain ⟨y, hrun, hP⟩ := h
  refine ⟨y, ?_, hP⟩
  clear hP
  induction ops using List.reverseRecOn generalizing y with
  | nil =>
    cases hrun
    exact .init
  | append_singleton ops o ih =>
    obtain ⟨y0, hops, hstep⟩ := Outcome.foldlM_concat_eq_ok.mp hrun
    split_ifs at hstep with hguard
    exact .step E (ih y0 hops) ⟨⟨hguard.1 ▸ subset_rfl, Or.inl hguard.1⟩, hguard.2⟩ hstep

theorem nesting_acyclic_nestedTwice :
    ∃ y, GuardedRun (fun E y o => BuildsOnTips y o ∧ ClosesNoCycle E y o) y ∧
      (∀ o ∈ nestedTwice, y.Has o.id o) ∧
      ∃ states, y.currentState .reference = (.ok states : Outcome Empty _) ∧
        ∀ groupId, ¬TransGen (HasSubGroup states) groupId groupId := by
  obtain ⟨y, h, hops⟩ := GuardedRun.of_returns
    (P := fun y => ∀ o ∈ nestedTwice, o.id ∈ y.graph.nodes ∧ y.operations.lookup o.id = some o)
    .reference nestedTwice (by decide +kernel)
  exact ⟨y, h, hops, nesting_acyclic h _⟩

def selfNested : Operation Nat Nat Unit :=
  ⟨0, 1, [], 9, .create [(.individual 1, .manage), (.group 9, .read)]⟩

theorem nesting_cyclic_selfNested :
    ∃ y : GroupCrdtInnerState Nat Nat Unit,
      GuardedRun (fun _ y o => y.headsGlobal ⊆ o.dependencies.toFinset) y ∧
      (y.currentState .reference : Outcome Empty _).Returns fun states =>
        TransGen (HasSubGroup states) 9 9 := by
  obtain ⟨y, hy, states, hsts, hself⟩ : (process .reference init selfNested).Returns fun y =>
        (y.currentState .reference : Outcome Empty _).Returns fun states =>
          HasSubGroup states 9 9 := by decide +kernel
  exact ⟨y, .step .reference .init (by decide) hy, states, hsts, .single hself⟩

end GroupCrdt

end P2Panda.Auth.Group
