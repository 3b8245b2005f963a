import P2Panda.Auth.Group.BestPath

/-!
# Traversal with a depth

The depth that is passed is where a counter starts, so a traversal takes as many steps as its depth
is away from the maximal nesting depth.
-/

namespace P2Panda.Auth.Group

open P2Panda.Library HashMap List

namespace GroupCrdtInnerState

variable {ID OP C ε : Type} [DecidableEq ID]

section Traversal

variable [DecidableEq OP] [Conditions C]

/-- Traverse the membership graph and return all visited members. The counter of `members_inner`
starts at the depth and ends at the maximum, so the rest are its levels. -/
def traverseMembersFrom (E : Runtime ID OP) (y : GroupCrdtInnerState ID OP C) (groupId : ID)
    (depth : Fin (maxNestedDepth + 1)) : Outcome ε (List (GroupMember ID × Access C)) := do
  let currentStates ← y.currentState E
  return (membersInner E currentStates (maxNestedDepth - depth) groupId ∅ none).entries E.members

/-- The members which can be reached in a number of steps, once each and with an access capped along
a path; without conditions it is the highest that such a path gives. -/
structure TraversedWithin (states : GroupStates ID C) (groupId : ID) (steps : Nat)
    (members : List (GroupMember ID × Access C)) : Prop where
  nodup : (members.map Prod.fst).Nodup
  mem_iff : ∀ k, k ∈ members.map Prod.fst ↔
    ∃ accesses, NestingPath states groupId k accesses ∧ accesses.length ≤ steps
  capped : ∀ k access, (k, access) ∈ members → ReachedWithin states steps none groupId k access
  best : states.Unconditional → ∀ k access access', (k, access) ∈ members →
    ReachedWithin states steps none groupId k access' →
    access'.level.rank ≤ access.level.rank

theorem traversedWithin_membersInner (E : Runtime ID OP) (states : GroupStates ID C) (groupId : ID)
    (levels : Nat) :
    TraversedWithin states groupId levels
      ((membersInner E states levels groupId ∅ none).entries E.members) := by
  refine ⟨nodup_fst_entries _ _, ?_, ?_, ?_⟩
  · intro k
    rw [mem_map]
    constructor
    · rintro ⟨⟨_, access⟩, hmem, rfl⟩
      obtain ⟨accesses, hpath, hlen, -⟩ := reachedWithin_of_lookup (mem_entries.mp hmem)
      exact ⟨accesses, hpath, hlen⟩
    · rintro ⟨accesses, hpath, hlen⟩
      obtain ⟨cap, hcap⟩ := exists_capAlong none hpath.ne_nil
      obtain ⟨access, hk, -⟩ := ReachedWithin.exists_lookup E ⟨accesses, hpath, hlen, hcap⟩
      exact ⟨(k, access), mem_entries.mpr hk, rfl⟩
  · intro k access hmem
    exact reachedWithin_of_lookup (mem_entries.mp hmem)
  · intro hsts k access access' hmem hrchd
    obtain ⟨recorded, hk, hle⟩ := hrchd.exists_lookup E
    cases (mem_entries.mp hmem).symm.trans hk
    exact hle (unconditionalBelow_of_unconditional hsts groupId)

end Traversal

section Listed

variable [DecidableEq OP] [Conditions C] {y : GroupCrdtInnerState ID OP C}

omit [DecidableEq OP] [Conditions C] in
theorem NestingPath.of_active {states states' : GroupStates ID C} {groupId : ID}
    {k : GroupMember ID} {accesses : List (Access C)}
    (hactv : ∀ {groupId k}, states.Active groupId k → states'.Active groupId k)
    (h : NestingPath states groupId k accesses) :
    ∃ accesses', NestingPath states' groupId k accesses' ∧ accesses'.length = accesses.length := by
  induction h with
  | member hm hmbr =>
    obtain ⟨m', hm', hmember'⟩ := hactv ⟨_, hm, hmbr⟩
    exact ⟨_, .member hm' hmember', rfl⟩
  | nested hm hmbr _ ih =>
    obtain ⟨m', hm', hmember'⟩ := hactv ⟨_, hm, hmbr⟩
    obtain ⟨accesses', hpath, hlen⟩ := ih
    exact ⟨_, .nested hm' hmember' hpath, congrArg Nat.succ hlen⟩

/-- The individual is a member of the group or, as deep as members are looked for, of a
sub-group. -/
def HasMember (y : GroupCrdtInnerState ID OP C) (groupId id : ID) : Prop :=
  ∃ states accesses, IsJoin y.stateOf y.headsGlobal states ∧
    NestingPath states groupId (.individual id) accesses ∧ accesses.length ≤ maxNestedDepth

/-- Who is listed does not depend on the order of any walk, and is listed once. -/
theorem Resolved.mem_members (h : y.Resolved) {E : Runtime ID OP} {groupId : ID}
    {members : List (ID × Access C)} (hmbrs : y.members E groupId = (.ok members : Outcome ε _)) :
    (members.map Prod.fst).Nodup ∧ ∀ id, id ∈ members.map Prod.fst ↔ y.HasMember groupId id := by
  obtain ⟨states, hsts, hjoin⟩ := h.currentState (ε := ε) E
  simp only [GroupCrdtInnerState.members, traverseMembers, hsts, Outcome.ok_bind,
    Outcome.pure_eq, Outcome.ok.injEq] at hmbrs
  have htrav := traversedWithin_membersInner E states groupId maxNestedDepth
  revert hmbrs htrav
  generalize (membersInner E states maxNestedDepth groupId ∅ none).entries E.members = entries
  rintro rfl htrav
  have hindiv {member : GroupMember ID} {id : ID} :
      (if member.isIndividual then some member.id else none) = some id ↔
        member = .individual id := by
    cases member <;> simp [GroupMember.isIndividual, GroupMember.isGroup, GroupMember.id]
  have hfst (entry : GroupMember ID × Access C) : Option.map Prod.fst
      (if entry.1.isIndividual then some (entry.1.id, entry.2) else none) =
        if entry.1.isIndividual then some entry.1.id else none := by
    split_ifs <;> rfl
  have hmap : (entries.map Prod.fst).filterMap
      (fun member => if member.isIndividual then some member.id else none) =
      entries.filterMap fun entry => if entry.1.isIndividual then some entry.1.id else none :=
    filterMap_map
  rw [map_filterMap, filterMap_congr fun entry _ => hfst entry, ← hmap]
  constructor
  · refine htrav.nodup.filterMap fun member member' id hid hid' => ?_
    rw [hindiv.mp hid, hindiv.mp hid']
  · intro id
    simp only [mem_filterMap, hindiv, exists_eq_right, htrav.mem_iff]
    constructor
    · rintro ⟨accesses, hpath, hlen⟩
      exact ⟨states, accesses, hjoin, hpath, hlen⟩
    · rintro ⟨states', accesses, hjoin', hpath, hlen⟩
      obtain ⟨accesses', hpath', hlength'⟩ := hpath.of_active (hjoin'.active hjoin)
      exact ⟨accesses', hpath', hlength'.trans_le hlen⟩

end Listed

section Depth

variable [DecidableEq OP] [Conditions C] {states : GroupStates ID C} {groupId : ID}
  {less more steps steps' : Nat} {members : List (GroupMember ID × Access C)}

/-- The longer paths reach no other members and give none of them a higher access. -/
def NothingBeyond (states : GroupStates ID C) (groupId : ID) (less more : Nat) : Prop :=
  ∀ k access, ReachedWithin states more none groupId k access →
    ∃ access', ReachedWithin states less none groupId k access' ∧
      access.level.rank ≤ access'.level.rank

omit [DecidableEq OP] in
theorem ReachedWithin.mono (hle : less ≤ more) {k : GroupMember ID} {access : Access C}
    (h : ReachedWithin states less none groupId k access) :
    ReachedWithin states more none groupId k access := by
  obtain ⟨accesses, hpath, hlen, hcap⟩ := h
  exact ⟨accesses, hpath, hlen.trans hle, hcap⟩

namespace TraversedWithin

omit [DecidableEq OP]

theorem exists_mem (h : TraversedWithin states groupId steps members) {k : GroupMember ID}
    {access : Access C} (hreached : ReachedWithin states steps none groupId k access) :
    ∃ recorded, (k, recorded) ∈ members := by
  obtain ⟨accesses, hpath, hlen, -⟩ := hreached
  obtain ⟨⟨_, recorded⟩, hmem, rfl⟩ := mem_map.mp ((h.mem_iff k).mpr ⟨accesses, hpath, hlen⟩)
  exact ⟨recorded, hmem⟩

theorem nothingBeyond (h : TraversedWithin states groupId less members)
    (h' : TraversedWithin states groupId more members) (hsts : states.Unconditional) :
    NothingBeyond states groupId less more := by
  intro k access hreached
  obtain ⟨recorded, hmem⟩ := h'.exists_mem hreached
  exact ⟨recorded, h.capped k recorded hmem, h'.best hsts k recorded access hmem hreached⟩

theorem mem_iff_of_nothingBeyond (hle : less ≤ more) (h : NothingBeyond states groupId less more)
    (k : GroupMember ID) :
    (∃ accesses, NestingPath states groupId k accesses ∧ accesses.length ≤ less) ↔
      ∃ accesses, NestingPath states groupId k accesses ∧ accesses.length ≤ more := by
  constructor
  · rintro ⟨accesses, hpath, hlen⟩
    exact ⟨accesses, hpath, hlen.trans hle⟩
  · rintro ⟨accesses, hpath, hlen⟩
    obtain ⟨access, hcap⟩ := exists_capAlong none hpath.ne_nil
    obtain ⟨_, ⟨accesses', hpath', hlen', -⟩, -⟩ := h k access ⟨accesses, hpath, hlen, hcap⟩
    exact ⟨accesses', hpath', hlen'⟩

theorem lengthen (h : TraversedWithin states groupId less members) (hle : less ≤ more)
    (hnothing : NothingBeyond states groupId less more) :
    TraversedWithin states groupId more members where
  nodup := h.nodup
  mem_iff k := (h.mem_iff k).trans (mem_iff_of_nothingBeyond hle hnothing k)
  capped k access hmem := (h.capped k access hmem).mono hle
  best hsts k access access' hmem hreached := by
    obtain ⟨access'', hreached', hrank⟩ := hnothing k access' hreached
    exact hrank.trans (h.best hsts k access access'' hmem hreached')

theorem shorten (h : TraversedWithin states groupId more members) (hsts : states.Unconditional)
    (hle : less ≤ more) (hnothing : NothingBeyond states groupId less more) :
    TraversedWithin states groupId less members where
  nodup := h.nodup
  mem_iff k := (h.mem_iff k).trans (mem_iff_of_nothingBeyond hle hnothing k).symm
  capped k access hmem := by
    have hreached := h.capped k access hmem
    obtain ⟨access', hreached', hrank⟩ := hnothing k access hreached
    -- the shorter path gives no more either
    have hrank' := h.best hsts k access access' hmem (hreached'.mono hle)
    have hbelow := unconditionalBelow_of_unconditional hsts groupId
    rwa [Access.eq_of_rank (hreached.unconditional hbelow) (hreached'.unconditional hbelow)
      (le_antisymm hrank hrank')]
  best hsts k access access' hmem hreached := h.best hsts k access access' hmem (hreached.mono hle)

theorem within_iff (h : TraversedWithin states groupId steps members)
    (hsts : states.Unconditional) :
    TraversedWithin states groupId steps' members ↔
      NothingBeyond states groupId (min steps' steps) (max steps' steps) := by
  rcases Nat.le_total steps' steps with hle | hle
  · rw [Nat.min_eq_left hle, Nat.max_eq_right hle]
    exact ⟨fun h' => h'.nothingBeyond h hsts, h.shorten hsts hle⟩
  · rw [Nat.min_eq_right hle, Nat.max_eq_left hle]
    exact ⟨fun h' => h.nothingBeyond h' hsts, h.lengthen hle⟩

end TraversedWithin

/-- A traversal takes the steps that are left to the maximum. It respects its depth just if the
paths which are longer than the one number of steps and not longer than the other give nothing
more. -/
theorem traverseMembersFrom_iff {E : Runtime ID OP} {y : GroupCrdtInnerState ID OP C}
    (hcur : y.currentState E = (.ok states : Outcome ε _)) (groupId : ID)
    (depth : Fin (maxNestedDepth + 1)) :
    ∃ members, y.traverseMembersFrom E groupId depth = (.ok members : Outcome ε _) ∧
      TraversedWithin states groupId (maxNestedDepth - depth) members ∧
      (states.Unconditional → (TraversedWithin states groupId depth members ↔
        NothingBeyond states groupId (min depth (maxNestedDepth - depth))
          (max depth (maxNestedDepth - depth)))) := by
  have hwithin := traversedWithin_membersInner E states groupId (maxNestedDepth - depth)
  refine ⟨_, ?_, hwithin, hwithin.within_iff⟩
  rw [traverseMembersFrom, hcur]
  rfl

end Depth

/-- With depth `999` only the direct members are looked at, and the sub-group gives no more. -/
theorem traverseMembersFrom_nestedGroups : ∃ y states members,
    GroupCrdt.Run GroupCrdt.nestedGroups y ∧
    y.currentState .reference = (.ok states : Outcome Empty _) ∧
    y.traverseMembersFrom .reference 11 999 = (.ok members : Outcome Empty _) ∧
    NothingBeyond states 11 1 999 ∧ TraversedWithin states 11 999 members := by
  obtain ⟨y, hrun, states, hcur, hsame⟩ := GroupCrdt.Run.of_returns
    (p := fun y => (y.currentState .reference : Outcome Empty _).Returns fun states =>
      (membersInner Runtime.reference states 999 11 ∅ none).entries Runtime.reference.members =
        (membersInner .reference states 1 11 ∅ none).entries Runtime.reference.members)
    .reference GroupCrdt.nestedGroups (by decide +kernel)
  have hresolved := hrun.consistent.toResolved
  obtain ⟨states', hcur', hjoin⟩ := hresolved.currentState (ε := Empty) .reference
  cases hcur.symm.trans hcur'
  have hsts : states.Unconditional :=
    hresolved.grantsOnly_currentState (hrun.unconditional (by decide)) hjoin
  have hless := traversedWithin_membersInner .reference states 11 1
  have hmore := traversedWithin_membersInner .reference states 11 999
  rw [hsame] at hmore
  have hnothing := hless.nothingBeyond hmore hsts
  obtain ⟨members, hmbrs, -, hiff⟩ := traverseMembersFrom_iff hcur 11 999
  exact ⟨y, states, members, hrun, hcur, hmbrs, hnothing, (hiff hsts).mpr hnothing⟩

/-- With the maximum, not even the direct member of a group is found. -/
theorem traverseMembersFrom_max_nestedGroups : ∃ y states members,
    GroupCrdt.Run GroupCrdt.nestedGroups y ∧
    y.currentState .reference = (.ok states : Outcome Empty _) ∧
    y.traverseMembersFrom .reference 11 (.last maxNestedDepth) =
      (.ok members : Outcome Empty _) ∧
    ¬TraversedWithin states 11 maxNestedDepth members := by
  obtain ⟨y, hrun, states, hcur, hmbr⟩ := GroupCrdt.Run.of_returns
    (p := fun y => (y.currentState .reference : Outcome Empty _).Returns fun states =>
      states.Active 11 (.individual 1))
    .reference GroupCrdt.nestedGroups (by decide +kernel)
  refine ⟨y, states, [], hrun, hcur, ?_, ?_⟩
  · rw [traverseMembersFrom, hcur]
    rfl
  · intro hwi
    obtain ⟨m, hm, hactv⟩ := hmbr
    have hmem := (hwi.mem_iff (.individual 1)).mpr
      ⟨[m.access], .member hm hactv, Nat.succ_le_of_lt (by decide)⟩
    cases hmem

end GroupCrdtInnerState

end P2Panda.Auth.Group
