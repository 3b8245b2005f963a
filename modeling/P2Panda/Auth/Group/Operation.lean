import P2Panda.Auth.Access

/-!
# Members, actions and operations
-/

namespace P2Panda.Auth.Group

/-- An individual or another group, under the same identifiers. -/
inductive GroupMember (ID : Type) where
  | individual (id : ID)
  | group (id : ID)
  deriving DecidableEq, Repr

namespace GroupMember

variable {ID : Type}

def id : GroupMember ID → ID
  | individual id => id
  | group id => id

def isGroup : GroupMember ID → Bool
  | individual _ => false
  | group _ => true

def isIndividual (m : GroupMember ID) : Bool := !m.isGroup

def groupId? : GroupMember ID → Option ID
  | individual _ => none
  | group id => some id

end GroupMember

inductive GroupAction (ID C : Type) where
  | create (initialMembers : List (GroupMember ID × Access C))
  | add (member : GroupMember ID) (access : Access C)
  | remove (member : GroupMember ID)
  | promote (member : GroupMember ID) (access : Access C)
  | demote (member : GroupMember ID) (access : Access C)
  deriving DecidableEq, Repr

namespace GroupAction

variable {ID C : Type}

def isCreate : GroupAction ID C → Bool
  | create _ => true
  | _ => false

theorem isCreate_iff {action : GroupAction ID C} :
    action.isCreate = true ↔ ∃ initialMembers, action = create initialMembers := by
  cases action <;> simp [isCreate]

def requiredGroups (action : GroupAction ID C) : List ID :=
  let members :=
    match action with
    | create initialMembers => initialMembers.map Prod.fst
    | add member _ => [member]
    | remove member => [member]
    | promote member _ => [member]
    | demote member _ => [member]
  members.filterMap GroupMember.groupId?

def GrantsOnly (P : GroupMember ID → Access C → Prop) : GroupAction ID C → Prop
  | create initialMembers => ∀ p ∈ initialMembers, P p.1 p.2
  | add member access => P member access
  | remove _ => True
  | promote member access => P member access
  | demote member access => P member access

instance {P : GroupMember ID → Access C → Prop} [∀ member access, Decidable (P member access)]
    (action : GroupAction ID C) : Decidable (action.GrantsOnly P) :=
  match action with
  | create initialMembers => inferInstanceAs (Decidable (∀ p ∈ initialMembers, P p.1 p.2))
  | add member access => inferInstanceAs (Decidable (P member access))
  | remove _ => isTrue trivial
  | promote member access => inferInstanceAs (Decidable (P member access))
  | demote member access => inferInstanceAs (Decidable (P member access))

abbrev Unconditional (action : GroupAction ID C) : Prop :=
  action.GrantsOnly fun _ access => access.Unconditional

def Grants (k : GroupMember ID) (access : Access C) : GroupAction ID C → Prop
  | create initialMembers => (k, access) ∈ initialMembers
  | add member access' => k = member ∧ access = access'
  | remove _ => False
  | promote member access' => k = member ∧ access = access'
  | demote member access' => k = member ∧ access = access'

theorem grantsOnly_iff {P : GroupMember ID → Access C → Prop} {action : GroupAction ID C} :
    action.GrantsOnly P ↔ ∀ k access, action.Grants k access → P k access := by
  cases action <;> simp [GrantsOnly, Grants]

end GroupAction

/-- What the `Operation` trait gives access to. -/
structure Operation (ID OP C : Type) where
  id : OP
  author : ID
  dependencies : List OP
  groupId : ID
  action : GroupAction ID C
  deriving DecidableEq, Repr

namespace Operation

variable {ID OP C : Type} {operation : Operation ID OP C}

def requiredGroups (operation : Operation ID OP C) : List ID :=
  operation.action.requiredGroups ++ [operation.groupId]

theorem groupId_mem_requiredGroups (operation : Operation ID OP C) :
    operation.groupId ∈ operation.requiredGroups := by
  simp [requiredGroups]

def removedOrDemotedManager (operation : Operation ID OP C) : Option ID :=
  match operation.action with
  | .remove removed => some removed.id
  | .demote demoted access => if access.isManage then none else some demoted.id
  | _ => none

def addedOrPromotedManager (operation : Operation ID OP C) : Option ID :=
  match operation.action with
  | .add added access => if access.isManage then some added.id else none
  | .promote promoted access => if access.isManage then some promoted.id else none
  | _ => none

theorem addedOrPromotedManager_eq_none {removed : ID}
    (h : operation.removedOrDemotedManager = some removed) :
    operation.addedOrPromotedManager = none := by
  unfold removedOrDemotedManager at h
  unfold addedOrPromotedManager
  cases hactn : operation.action <;> simp [hactn] at h ⊢

theorem not_isCreate_of_removed {removed : ID}
    (h : operation.removedOrDemotedManager = some removed) :
    operation.action.isCreate = false := by
  unfold removedOrDemotedManager at h
  cases hactn : operation.action <;> simp [hactn, GroupAction.isCreate] at h ⊢

theorem managers_of_isCreate (h : operation.action.isCreate = true) :
    operation.removedOrDemotedManager = none ∧ operation.addedOrPromotedManager = none := by
  obtain ⟨initialMembers, hactn⟩ := GroupAction.isCreate_iff.mp h
  simp [removedOrDemotedManager, addedOrPromotedManager, hactn]

end Operation

end P2Panda.Auth.Group
