import P2Panda.Auth.Access
import P2Panda.Library.HashMap

/-!
# Group membership state

A causal length CRDT. A member is active while its counter is odd; adding and removing count it up,
and a merge keeps the higher counter. A second counter numbers the changes of the access level.
-/

namespace P2Panda.Auth.Group

open P2Panda.Library List HashMap

inductive GroupMembershipError (K : Type) where
  | alreadyAdded (id : K)
  | alreadyRemoved (id : K)
  | insufficientAccess (id : K)
  | inactiveActor (id : K)
  | inactiveMember (id : K)
  | unrecognisedActor (id : K)
  | unrecognisedMember (id : K)
  deriving DecidableEq, Repr

structure MemberState (C : Type) where
  memberCounter : Nat
  access : Access C
  accessCounter : Nat
  deriving DecidableEq, Repr

namespace MemberState

variable {C : Type}

def isMember (m : MemberState C) : Bool := m.memberCounter % 2 != 0

def isPuller (m : MemberState C) : Bool := m.access.isPull

def isManager (m : MemberState C) : Bool := m.access.isManage

end MemberState

@[ext] structure GroupMembersState (K C : Type) where
  members : HashMap K (MemberState C)

namespace GroupMembersState

variable {K C : Type} [DecidableEq K]

instance [DecidableEq C] : DecidableEq (GroupMembersState K C) := fun a b =>
  decidable_of_iff (a.members = b.members) GroupMembersState.ext_iff.symm

def default : GroupMembersState K C := ⟨∅⟩

def Active (state : GroupMembersState K C) (member : K) : Prop :=
  ∃ m, state.members.lookup member = some m ∧ m.isMember = true

def ActiveManager (state : GroupMembersState K C) (member : K) : Prop :=
  ∃ m, state.members.lookup member = some m ∧ m.isMember = true ∧ m.isManager = true

def accessLevels (o : HashOrder K) (state : GroupMembersState K C) : List (K × Access C) :=
  (state.members.entries o).filterMap fun (id, m) =>
    if m.isMember then some (id, m.access) else none

@[simp] theorem mem_accessLevels {o : HashOrder K} {state : GroupMembersState K C} {id : K}
    {access : Access C} : (id, access) ∈ state.accessLevels o ↔
      ∃ m, state.members.lookup id = some m ∧ m.isMember = true ∧ m.access = access := by
  simp only [accessLevels, mem_filterMap, Prod.exists, mem_entries,
    Option.ite_none_right_eq_some, Option.some.injEq, Prod.mk.injEq]
  constructor
  · rintro ⟨k, m, hm, hactv, rfl, rfl⟩
    exact ⟨m, hm, hactv, rfl⟩
  · rintro ⟨m, hm, hactv, rfl⟩
    exact ⟨id, m, hm, hactv, rfl, rfl⟩

end GroupMembersState

variable {K C : Type} [DecidableEq K]

/-- Create a new group with initial members. A member listed twice gets the last access. -/
def create (initialMembers : List (K × Access C)) : GroupMembersState K C :=
  ⟨initialMembers.foldl (fun members (id, access) => members.insert id ⟨1, access, 0⟩) ∅⟩

def add (state : GroupMembersState K C) (adder added : K) (access : Access C) :
    Except (GroupMembershipError K) (GroupMembersState K C) :=
  match state.members.lookup adder with
  | none => .error (.unrecognisedActor adder)
  | some adderState =>
    if !adderState.isMember then .error (.inactiveActor adder)
    else if !adderState.isManager then .error (.insufficientAccess adder)
    else if (state.members.lookup added).any MemberState.isMember then
      .error (.alreadyAdded added)
    else
      .ok ⟨state.members.andModifyOrInsert added
        (fun m =>
          if !m.isMember then ⟨m.memberCounter + 1, access, 0⟩
          else m)
        ⟨1, access, 0⟩⟩

def remove (state : GroupMembersState K C) (remover removed : K) :
    Except (GroupMembershipError K) (GroupMembersState K C) :=
  match state.members.lookup remover with
  | none => .error (.unrecognisedActor remover)
  | some removerState =>
    if !removerState.isMember then .error (.inactiveActor remover)
    else if !removerState.isManager && remover != removed then
      .error (.insufficientAccess remover)
    else
      match state.members.lookup removed with
      | none => .error (.unrecognisedMember removed)
      | some removedState =>
        if !removedState.isMember then .error (.alreadyRemoved removed)
        else
          .ok ⟨state.members.andModify removed fun m =>
            if m.isMember then { m with memberCounter := m.memberCounter + 1, accessCounter := 0 }
            else m⟩

variable [Conditions C]

def modify (state : GroupMembersState K C) (modifier modified : K) (access : Access C) :
    Except (GroupMembershipError K) (GroupMembersState K C) :=
  match state.members.lookup modifier with
  | none => .error (.unrecognisedActor modifier)
  | some modifierState =>
    if !modifierState.isMember then .error (.inactiveActor modifier)
    else if !modifierState.isManager then .error (.insufficientAccess modifier)
    else
      match state.members.lookup modified with
      | none => .error (.unrecognisedMember modified)
      | some modifiedState =>
        if !modifiedState.isMember then .error (.inactiveMember modified)
        else
          .ok ⟨state.members.andModify modified fun m =>
            if m.access != access then
              { m with access := access, accessCounter := m.accessCounter + 1 }
            else m⟩

def promote (state : GroupMembersState K C) (promoter promoted : K) (access : Access C) :
    Except (GroupMembershipError K) (GroupMembersState K C) :=
  match state.members.lookup promoted with
  | some member => if member.isManager then .ok state else modify state promoter promoted access
  | none => .error (.unrecognisedMember promoted)

def demote (state : GroupMembersState K C) (demoter demoted : K) (access : Access C) :
    Except (GroupMembershipError K) (GroupMembersState K C) :=
  match state.members.lookup demoted with
  | some member => if member.isPuller then .ok state else modify state demoter demoted access
  | none => .error (.unrecognisedMember demoted)

/-- The higher counter wins, then the higher access counter, then the lower access. -/
def mergeMember (memberState1 memberState : MemberState C) : MemberState C :=
  let memberState :=
    if memberState1.memberCounter > memberState.memberCounter then memberState1
    else memberState
  if memberState1.memberCounter == memberState.memberCounter then
    let memberState :=
      if memberState1.accessCounter > memberState.accessCounter then
        { memberState with
          access := memberState1.access, accessCounter := memberState1.accessCounter }
      else memberState
    if memberState1.accessCounter == memberState.accessCounter &&
        memberState1.access.lt memberState.access then
      { memberState with access := memberState1.access }
    else memberState
  else memberState

/-- The loop body of `merge`. -/
def mergeEntry (nextState : HashMap K (MemberState C)) (entry : K × MemberState C) :
    HashMap K (MemberState C) :=
  match nextState.lookup entry.1 with
  | some memberState => nextState.insert entry.1 (mergeMember entry.2 memberState)
  | none => nextState.insert entry.1 entry.2

def merge (o : HashOrder K) (state1 state2 : GroupMembersState K C) : GroupMembersState K C :=
  ⟨(state1.members.entries o).foldl mergeEntry state2.members⟩

omit [Conditions C] in
theorem lookup_create (initialMembers : List (K × Access C)) (member : K) :
    (create initialMembers).members.lookup member =
      (initialMembers.reverse.lookup member).map fun access => ⟨1, access, 0⟩ := by
  unfold create
  -- Read the list from its end: the last entry for a member is the one that counts.
  induction initialMembers using List.reverseRecOn with
  | nil => simp
  | append_singleton l p ih =>
    obtain ⟨id, access⟩ := p
    simp only [foldl_append, foldl_cons, foldl_nil, reverse_append,
      reverse_cons, reverse_nil, nil_append, singleton_append,
      lookup_insert_ite, lookup_cons, ih]
    by_cases h : member = id
    · simp [h]
    · have hne : (member == id) = false := by simpa using h
      simp [h, hne]

variable {state state' : GroupMembersState K C} {access : Access C}

omit [Conditions C] in
theorem add_eq_ok {adder added : K} (h : add state adder added access = .ok state') :
    state.ActiveManager adder ∧ ¬state.Active added ∧
      ∀ k, state'.members.lookup k =
        if k = added then
          some ⟨(state.members.lookup added).elim 1 (·.memberCounter + 1), access, 0⟩
        else state.members.lookup k := by
  unfold add at h
  split at h
  · cases h
  · rename_i adderState hadder
    split_ifs at h with hmbr hmgr hadd
    cases h
    refine ⟨⟨adderState, hadder, by simpa using hmbr, by simpa using hmgr⟩, ?_, ?_⟩
    · rintro ⟨m, hm, hactv⟩
      simp [hm, hactv] at hadd
    · intro k
      rw [lookup_andModifyOrInsert]
      cases hlook : state.members.lookup added with
      | none => rfl
      | some m =>
        have hinact : m.isMember = false := by
          simpa [hlook] using hadd
        simp [hinact]

omit [Conditions C] in
theorem remove_eq_ok {remover removed : K} (h : remove state remover removed = .ok state') :
    (state.ActiveManager remover ∨ remover = removed) ∧
      ∃ m, state.members.lookup removed = some m ∧ m.isMember = true ∧
        ∀ k, state'.members.lookup k =
          if k = removed then
            some { m with memberCounter := m.memberCounter + 1, accessCounter := 0 }
          else state.members.lookup k := by
  unfold remove at h
  split at h
  · cases h
  · rename_i removerState hremover
    split_ifs at h with hmbr hmgr
    split at h
    · cases h
    · rename_i m hm
      split_ifs at h with hactv
      cases h
      have hactive' : m.isMember = true := by simpa using hactv
      refine ⟨?_, m, hm, hactive', ?_⟩
      · by_cases hself : remover = removed
        · exact Or.inr hself
        · refine Or.inl ⟨removerState, hremover, by simpa using hmbr, ?_⟩
          simpa [hself] using hmgr
      · intro k
        rw [lookup_andModify, hm]
        simp [hactive']

theorem modify_eq_ok {modifier modified : K}
    (h : modify state modifier modified access = .ok state') :
    state.ActiveManager modifier ∧
      ∃ m, state.members.lookup modified = some m ∧ m.isMember = true ∧
        ∀ k, state'.members.lookup k =
          if k = modified then
            some (if m.access != access then
              { m with access := access, accessCounter := m.accessCounter + 1 } else m)
          else state.members.lookup k := by
  unfold modify at h
  split at h
  · cases h
  · rename_i modifierState hmodifier
    split_ifs at h with hmbr hmgr
    split at h
    · cases h
    · rename_i m hm
      split_ifs at h with hactv
      cases h
      refine ⟨⟨modifierState, hmodifier, by simpa using hmbr, by simpa using hmgr⟩,
        m, hm, by simpa using hactv, ?_⟩
      intro k
      rw [lookup_andModify, hm]
      rfl

theorem promote_eq_ok {promoter promoted : K}
    (h : promote state promoter promoted access = .ok state') :
    state' = state ∨ modify state promoter promoted access = .ok state' := by
  unfold promote at h
  split at h
  · split_ifs at h
    · cases h
      exact Or.inl rfl
    · exact Or.inr h
  · cases h

theorem demote_eq_ok {demoter demoted : K} (h : demote state demoter demoted access = .ok state') :
    state' = state ∨ modify state demoter demoted access = .ok state' := by
  unfold demote at h
  split at h
  · split_ifs at h
    · cases h
      exact Or.inl rfl
    · exact Or.inr h
  · cases h

theorem lookup_mergeEntry (nextState : HashMap K (MemberState C)) (id : K)
    (memberState1 : MemberState C) (k : K) :
    (mergeEntry nextState (id, memberState1)).lookup k =
      if k = id then some ((nextState.lookup id).elim memberState1 (mergeMember memberState1))
      else nextState.lookup k := by
  unfold mergeEntry
  cases h : nextState.lookup id with
  | none => exact lookup_insert_ite nextState id k memberState1
  | some memberState => exact lookup_insert_ite nextState id k _

theorem lookup_merge (o : HashOrder K) (state1 state2 : GroupMembersState K C) (member : K) :
    (merge o state1 state2).members.lookup member =
      Option.merge mergeMember (state1.members.lookup member) (state2.members.lookup member) := by
  refine (lookup_foldl_entries (g := fun _ m1 m => some (m.elim m1 (mergeMember m1)))
    lookup_mergeEntry o state1.members state2.members member).trans ?_
  cases state1.members.lookup member <;> cases state2.members.lookup member <;> rfl

end P2Panda.Auth.Group
