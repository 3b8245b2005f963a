import P2Panda.Auth.Group.Merge

/-!
# Applying an action to the group states
-/

namespace P2Panda.Auth.Group

open P2Panda.Library Option MemberState GroupMembersState

inductive StateChangeResult (ID C : Type) where
  | ok (state : GroupStates ID C)
  | error (state : GroupStates ID C) (error : GroupMembershipError (GroupMember ID))
  | filtered (state : GroupStates ID C)

def StateChangeResult.state {ID C : Type} : StateChangeResult ID C → GroupStates ID C
  | ok state | error state _ | filtered state => state

section Members

variable {ID C ε : Type} [DecidableEq ID]

def removeUnsafe (membersY : GroupMembersState (GroupMember ID) C) (removed : GroupMember ID) :
    GroupMembersState (GroupMember ID) C :=
  ⟨membersY.members.andModify removed fun state =>
    if state.memberCounter % 2 != 0 then { state with memberCounter := state.memberCounter + 1 }
    else state⟩

/-- Removing a member leaves others as they are, and counts an active one up to an even number. -/
theorem removeUnsafe_cases (s : GroupMembersState (GroupMember ID) C) (removed k : GroupMember ID) :
    (removeUnsafe s removed).members.lookup k = s.members.lookup k ∨
      ∃ m, s.members.lookup k = some m ∧ m.isMember = true ∧
        (removeUnsafe s removed).members.lookup k =
          some { m with memberCounter := m.memberCounter + 1 } := by
  simp only [removeUnsafe, HashMap.lookup_andModify]
  split_ifs with hk
  · subst hk
    cases hm : s.members.lookup k with
    | none => exact Or.inl rfl
    | some m =>
      by_cases hodd : (m.memberCounter % 2 != 0) = true
      · exact Or.inr ⟨m, rfl, hodd, by rw [map_some, if_pos hodd]⟩
      · exact Or.inl (by rw [map_some, if_neg hodd])
  · exact Or.inl rfl

/-- Apply a remove without validating it, as is required for mutual removes which may have lost
their delegated access rights. -/
def applyRemoveUnsafe (groupsY : GroupStates ID C) (groupId : ID) (removed : GroupMember ID) :
    Outcome ε (GroupStates ID C) := do
  let membersY ← .expect "group already present in states map" (groupsY.lookup groupId)
  return (groupsY.erase groupId).insert groupId (removeUnsafe membersY removed)

inductive MemberChange (s : GroupMembersState (GroupMember ID) C) (actor : ID) :
    GroupAction ID C → GroupMember ID → MemberState C → Prop
  | add {member access} : s.ActiveManager (.individual actor) → ¬s.Active member →
      MemberChange s actor (.add member access) member
        ⟨(s.members.lookup member).elim 1 (·.memberCounter + 1), access, 0⟩
  | remove {member m} : s.ActiveManager (.individual actor) ∨ .individual actor = member →
      s.members.lookup member = some m → m.isMember = true →
      MemberChange s actor (.remove member) member
        { m with memberCounter := m.memberCounter + 1, accessCounter := 0 }
  | modify {action member access m} :
      action = .promote member access ∨ action = .demote member access →
      s.ActiveManager (.individual actor) → s.members.lookup member = some m →
      m.isMember = true →
      MemberChange s actor action member
        { m with access := access, accessCounter := m.accessCounter + 1 }

/-- The states differ at most in one member. -/
def ChangesTo (s s' : GroupMembersState (GroupMember ID) C) (member : GroupMember ID)
    (m' : MemberState C) : Prop :=
  ∀ k, s'.members.lookup k = if k = member then some m' else s.members.lookup k

variable {s s' : GroupMembersState (GroupMember ID) C} {actor : ID} {action : GroupAction ID C}
variable {member : GroupMember ID} {m m' : MemberState C}

namespace MemberChange

variable (h : MemberChange s actor action member m')

include h

theorem authorised :
    s.ActiveManager (.individual actor) ∨ action = .remove (.individual actor) := by
  cases h with
  | add hmgr => exact Or.inl hmgr
  | remove hactor => exact hactor.imp_right fun heq => by rw [heq]
  | modify _ hmgr => exact Or.inl hmgr

theorem counter_lt (hm : s.members.lookup member = some m) :
    m.memberCounter < m'.memberCounter ∨
      m.memberCounter = m'.memberCounter ∧ m.accessCounter < m'.accessCounter := by
  cases h with
  | add => simp [hm]
  | remove _ hm0 =>
    rw [hm] at hm0
    cases hm0
    simp
  | modify _ _ hm0 =>
    rw [hm] at hm0
    cases hm0
    simp

theorem rank_lt (hm : s.members.lookup member = some m) : m.rank < m'.rank := by
  rw [rank_lt_iff]
  exact (h.counter_lt hm).imp_right (And.imp_right Or.inl)

theorem grantsOnly {P : GroupMember ID → Access C → Prop} (hs : s.GrantsOnly P)
    (hactn : action.GrantsOnly P) : P member m'.access := by
  cases h with
  | add => exact hactn
  | @remove _ m _ hm => exact hs _ m hm
  | modify hcases =>
    rcases hcases with rfl | rfl
    · exact hactn
    · exact hactn

theorem eq_add_of_raised (hactv : m'.isMember = true)
    (hraised : ∀ m, s.members.lookup member = some m → m.memberCounter < m'.memberCounter) :
    ∃ access, action = .add member access := by
  cases h with
  | add => exact ⟨_, rfl⟩
  | remove _ hm hmbr =>
    simp only [isMember, bne_iff_ne, ne_eq] at hmbr hactv
    omega
  | modify _ _ hm => exact absurd (hraised _ hm) (lt_irrefl _)

theorem eq_add_or_active (hactv : m'.isMember = true) :
    (∃ access, action = .add member access) ∨ s.Active member := by
  cases h with
  | add => exact Or.inl ⟨_, rfl⟩
  | remove _ hm hmbr =>
    simp only [isMember, bne_iff_ne, ne_eq] at hmbr hactv
    omega
  | @modify _ _ _ m _ _ hm hmbr => exact Or.inr ⟨m, hm, hmbr⟩

end MemberChange

end Members

variable {ID OP C ε : Type} [DecidableEq ID] [Conditions C] {groupsY : GroupStates ID C}

def changeMembers (membersY : GroupMembersState (GroupMember ID) C) (actor : ID) :
    GroupAction ID C →
    Except (GroupMembershipError (GroupMember ID)) (GroupMembersState (GroupMember ID) C)
  | .add member access => add membersY (.individual actor) member access
  | .remove member => remove membersY (.individual actor) member
  | .promote member access => promote membersY (.individual actor) member access
  | .demote member access => demote membersY (.individual actor) member access
  | .create initialMembers => .ok (create initialMembers)

section Apply

variable [DecidableEq OP]

def applyAction (groupsY : GroupStates ID C) (groupId : ID) (id : OP) (actor : ID)
    (action : GroupAction ID C) (filter : Finset OP) : Outcome ε (StateChangeResult ID C) := do
  let (membersY, groupsY) ←
    if action.isCreate then pure (GroupMembersState.default, groupsY)
    else do
      let membersY ← .expect "group already present in states map" (groupsY.lookup groupId)
      pure (membersY, groupsY.erase groupId)
  if id ∈ filter then
    return .filtered (groupsY.insert groupId membersY)
  match changeMembers membersY actor action with
  | .ok membersYI => return .ok (groupsY.insert groupId membersYI)
  | .error err => return .error (groupsY.insert groupId membersY) err

/-- The members of an operation's group after it, when it is filtered or part of a mutual remove. -/
def resolveMembers (filtered isMutual : Bool) (operation : Operation ID OP C)
    (before : Option (GroupMembersState (GroupMember ID) C)) :
    GroupMembersState (GroupMember ID) C :=
  let membersY := if operation.action.isCreate then .default else before.getD .default
  if isMutual then
    operation.removedOrDemotedManager.elim membersY fun removed =>
      removeUnsafe membersY (.individual removed)
  else if filtered then membersY
  else
    match changeMembers membersY operation.author operation.action with
    | .ok membersYI => membersYI
    | .error _ => membersY

theorem applyAction_eq (filter : Finset OP) {operation : Operation ID OP C}
    (hgrp : operation.action.isCreate = true ∨ (groupsY.lookup operation.groupId).isSome) :
    ∃ result, applyAction groupsY operation.groupId operation.id operation.author
        operation.action filter = (.ok result : Outcome ε _) ∧
      result.state = groupsY.insert operation.groupId
        (resolveMembers (decide (operation.id ∈ filter)) false operation
          (groupsY.lookup operation.groupId)) := by
  by_cases hcrt : operation.action.isCreate = true
  · by_cases hflt : operation.id ∈ filter
    · simp [applyAction, resolveMembers, hcrt, hflt, StateChangeResult.state]
    · cases hchg : changeMembers .default operation.author operation.action <;>
        simp [applyAction, resolveMembers, hcrt, hflt, hchg, StateChangeResult.state]
  · obtain ⟨membersY, hmbrs⟩ := isSome_iff_exists.mp (hgrp.resolve_left hcrt)
    by_cases hflt : operation.id ∈ filter
    · simp [applyAction, resolveMembers, hcrt, hflt, hmbrs, StateChangeResult.state]
    · cases hchg : changeMembers membersY operation.author operation.action <;>
        simp [applyAction, resolveMembers, hcrt, hflt, hmbrs, hchg, StateChangeResult.state]

theorem applyAction_panic {groupId actor : ID} {id : OP} {action : GroupAction ID C}
    {filter : Finset OP} (hcrt : action.isCreate = false) (hgrp : groupsY.lookup groupId = none) :
    applyAction groupsY groupId id actor action filter =
      (.panic "group already present in states map" : Outcome ε _) := by
  simp [applyAction, hcrt, hgrp]

end Apply

theorem applyRemoveUnsafe_eq {operation : Operation ID OP C} {removed : ID}
    (hrmd : operation.removedOrDemotedManager = some removed)
    (hgrp : (groupsY.lookup operation.groupId).isSome) (filtered : Bool) :
    applyRemoveUnsafe groupsY operation.groupId (.individual removed) =
      (.ok (groupsY.insert operation.groupId (resolveMembers filtered true operation
        (groupsY.lookup operation.groupId))) : Outcome ε _) := by
  obtain ⟨membersY, hmbrs⟩ := isSome_iff_exists.mp hgrp
  simp [applyRemoveUnsafe, resolveMembers, hmbrs, hrmd, Operation.not_isCreate_of_removed hrmd]

variable {s s' : GroupMembersState (GroupMember ID) C} {actor : ID} {action : GroupAction ID C}
variable {member : GroupMember ID} {m m' : MemberState C}

theorem modify_cases {access : Access C}
    (hactn : action = .promote member access ∨ action = .demote member access)
    (h : modify s (.individual actor) member access = .ok s') :
    s' = s ∨ ∃ member m', MemberChange s actor action member m' ∧ ChangesTo s s' member m' := by
  obtain ⟨hmgr, m, hm, hactv, hlook⟩ := modify_eq_ok h
  by_cases hne : (m.access != access) = true
  · rw [if_pos hne] at hlook
    exact Or.inr ⟨member, _, .modify hactn hmgr hm hactv, hlook⟩
  · left
    ext1
    apply Finmap.ext_lookup
    intro k
    rw [hlook]
    split_ifs with hk
    · rw [hk, hm]
    · rfl

theorem changeMembers_cases (hcrt : action.isCreate = false)
    (h : changeMembers s actor action = .ok s') :
    s' = s ∨ ∃ member m', MemberChange s actor action member m' ∧ ChangesTo s s' member m' := by
  cases action with
  | create initialMembers => simp [GroupAction.isCreate] at hcrt
  | add member access =>
    obtain ⟨hmgr, hinact, hlook⟩ := add_eq_ok h
    exact Or.inr ⟨member, _, .add hmgr hinact, hlook⟩
  | remove member =>
    obtain ⟨hactor, m, hm, hactv, hlook⟩ := remove_eq_ok h
    exact Or.inr ⟨member, _, .remove hactor hm hactv, hlook⟩
  | promote member access =>
    rcases promote_eq_ok h with rfl | h
    · exact Or.inl rfl
    · exact modify_cases (Or.inl rfl) h
  | demote member access =>
    rcases demote_eq_ok h with rfl | h
    · exact Or.inl rfl
    · exact modify_cases (Or.inr rfl) h

variable {operation : Operation ID OP C} {filtered isMutual : Bool}

/-- An operation other than a create leaves its group as it is, or is valid and not suppressed, or
is a mutual remove. -/
theorem resolveMembers_cases (hcrt : operation.action.isCreate = false)
    (h : resolveMembers filtered isMutual operation (some s) = s') :
    s' = s ∨
    (filtered = false ∧ isMutual = false ∧ ∃ member m',
      MemberChange s operation.author operation.action member m' ∧ ChangesTo s s' member m') ∨
    (isMutual = true ∧ ∃ removed, operation.removedOrDemotedManager = some removed ∧
      s' = removeUnsafe s (.individual removed)) := by
  subst h
  simp only [resolveMembers, hcrt, getD_some, Bool.false_eq_true, if_false]
  cases isMutual with
  | true =>
    cases hrmd : operation.removedOrDemotedManager with
    | none => exact Or.inl rfl
    | some removed => exact Or.inr (Or.inr ⟨rfl, removed, rfl, rfl⟩)
  | false =>
    cases filtered with
    | true => exact Or.inl rfl
    | false =>
      cases hchg : changeMembers s operation.author operation.action with
      | error e => exact Or.inl rfl
      | ok s' =>
        exact (changeMembers_cases hcrt hchg).imp_right fun h => Or.inl ⟨rfl, rfl, h⟩

theorem ranks_le_resolveMembers (hcrt : operation.action.isCreate = false) :
    s.ranks ≤ (resolveMembers filtered isMutual operation (some s)).ranks := by
  intro k
  simp only [ranks]
  rcases resolveMembers_cases hcrt rfl with heq | ⟨-, -, member, m', hchg, hlook⟩ |
    ⟨-, removed, -, heq⟩
  · rw [heq]
  · rw [hlook]
    split_ifs with hk
    · subst hk
      cases hm : s.members.lookup k with
      | none => exact bot_le
      | some m => exact WithBot.coe_le_coe.mpr (hchg.rank_lt hm).le
    · exact le_rfl
  · rw [heq]
    rcases removeUnsafe_cases s (.individual removed) k with hsame | ⟨m, hm, -, hrmd⟩
    · rw [hsame]
    · rw [hm, hrmd]
      exact WithBot.coe_le_coe.mpr (rank_lt_iff.mpr (Or.inl (Nat.lt_succ_self _))).le

theorem resolveMembers_create {initialMembers : List (GroupMember ID × Access C)}
    (hactn : operation.action = .create initialMembers)
    (before : Option (GroupMembersState (GroupMember ID) C)) :
    resolveMembers filtered isMutual operation before =
      if isMutual || filtered then .default else create initialMembers := by
  have hrmd : operation.removedOrDemotedManager = none := by
    simp [Operation.removedOrDemotedManager, hactn]
  cases isMutual <;> cases filtered <;>
    simp [resolveMembers, hactn, GroupAction.isCreate, hrmd, changeMembers]

theorem grantsOnly_resolveMembers {P : GroupMember ID → Access C → Prop}
    (hactn : operation.action.GrantsOnly P) {before : Option (GroupMembersState (GroupMember ID) C)}
    (hbef : ∀ s, before = some s → s.GrantsOnly P) :
    (resolveMembers filtered isMutual operation before).GrantsOnly P := by
  cases hcrt : operation.action.isCreate with
  | true =>
    obtain ⟨initialMembers, hinit⟩ := GroupAction.isCreate_iff.mp hcrt
    rw [resolveMembers_create hinit]
    rw [hinit] at hactn
    split_ifs
    · exact grantsOnly_default
    · exact grantsOnly_create hactn
  | false =>
    have hs : (before.getD .default).GrantsOnly P := by
      cases before with
      | none => exact grantsOnly_default
      | some s => exact hbef s rfl
    change (resolveMembers filtered isMutual operation (some (before.getD .default))).GrantsOnly P
    rcases resolveMembers_cases hcrt rfl with heq | ⟨-, -, member, m', hchg, hlook⟩ |
      ⟨-, removed, -, heq⟩
    · rw [heq]
      exact hs
    · intro k m hm
      rw [hlook] at hm
      split_ifs at hm with hk
      · cases hm
        rw [hk]
        exact hchg.grantsOnly hs hactn
      · exact hs k m hm
    · rw [heq]
      intro k m hm
      rcases removeUnsafe_cases (before.getD .default) (.individual removed) k with
        hsame | ⟨m0, hm0, -, hrmd⟩
      · exact hs k m (hsame ▸ hm)
      · rw [hrmd] at hm
        cases hm
        exact hs k m0 hm0

end P2Panda.Auth.Group
