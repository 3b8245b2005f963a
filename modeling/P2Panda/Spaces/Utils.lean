import P2Panda.Spaces.Message

/-!
# Comparing the members of a space

The members who hold secrets are those with more than pull access.
-/

namespace P2Panda.Spaces

open P2Panda.Auth P2Panda.Auth.Group

variable {ID OP C : Type} [DecidableEq OP] [LinearOrder ID] [Conditions C]
  {currentMembers nextMembers : List ID}

def typedMember (E : Runtime ID OP) (y : GroupCrdtInnerState ID OP C) (member : ID) :
    GroupMember ID :=
  if (y.groupsGlobal E).contains member then .group member else .individual member

def typedMembers (E : Runtime ID OP) (y : GroupCrdtInnerState ID OP C)
    (members : List (ID × Access C)) : List (GroupMember ID × Access C) :=
  members.map fun (member, access) => (typedMember E y member, access)

def sortMembers {K : Type} (le : K → K → Prop) [DecidableRel le] (members : List (K × Access C)) :
    List (K × Access C) :=
  members.insertionSort fun a b => le a.1 b.1

def secretMembers (members : List (ID × Access C)) : List ID :=
  (members.filterMap fun (id, access) => if access.isPull then none else some id).insertionSort
    (· ≤ ·)

def addedSecretMembers (currentMembers nextMembers : List ID) : List ID :=
  (nextMembers.filter fun actor => !currentMembers.contains actor).insertionSort (· ≤ ·)

def removedSecretMembers (currentMembers nextMembers : List ID) : List ID :=
  (currentMembers.filter fun actor => !nextMembers.contains actor).insertionSort (· ≤ ·)

/-- The members for whom some entry of the second list satisfies `p`. -/
def membersWith (p : ID × Access C → ID × Access C → Bool) (members others : List (ID × Access C)) :
    List (ID × Access C) :=
  sortMembers (· ≤ ·) (members.filter fun member => others.any (p member))

def addedMembers (currentMembers nextMembers : List (ID × Access C)) : List (ID × Access C) :=
  sortMembers (· ≤ ·)
    (nextMembers.filter fun next => !currentMembers.any fun current => current.1 = next.1)

def promotedMembers (currentMembers nextMembers : List (ID × Access C)) : List (ID × Access C) :=
  membersWith (fun next current => current.1 = next.1 && next.2.partialCmp current.2 == some .gt)
    nextMembers currentMembers

def demotedMembers (currentMembers nextMembers : List (ID × Access C)) : List (ID × Access C) :=
  membersWith (fun next current => current.1 = next.1 && next.2.lt current.2)
    nextMembers currentMembers

def removedMembers (currentMembers nextMembers : List (ID × Access C)) : List (ID × Access C) :=
  sortMembers (· ≤ ·)
    (currentMembers.filter fun current => !nextMembers.any fun next => next.1 = current.1)

@[simp] theorem mem_addedSecretMembers {id : ID} :
    id ∈ addedSecretMembers currentMembers nextMembers ↔
      id ∈ nextMembers ∧ id ∉ currentMembers := by
  simp [addedSecretMembers]

@[simp] theorem mem_removedSecretMembers {id : ID} :
    id ∈ removedSecretMembers currentMembers nextMembers ↔
      id ∈ currentMembers ∧ id ∉ nextMembers := by
  simp [removedSecretMembers]

end P2Panda.Spaces
