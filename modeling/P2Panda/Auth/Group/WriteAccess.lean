import P2Panda.Auth.Group.BestPath
import P2Panda.Auth.Group.PastMembers
import P2Panda.Auth.Group.Queries

/-!
# Write access in the past

An author proves write access with the tips of the history they know. Every replica which has the
history below these tips gives the same answer, whatever else it has.
-/

namespace P2Panda.Auth.Group

open P2Panda.Library GroupCrdtInnerState Outcome

variable {ID OP C : Type} [DecidableEq ID] [DecidableEq OP] [Conditions C]
variable {y y' z : GroupCrdtInnerState ID OP C} {heads : Finset OP} {groupId actor : ID}
  {states : GroupStates ID C}

theorem canWrite_iff {members : List (ID × AccessLevel)} (h : (members.map Prod.fst).Nodup) :
    canWrite actor members = .ok () ↔
      ∃ level, (actor, level) ∈ members ∧ AccessLevel.write.rank ≤ level.rank := by
  rw [canWrite]
  fun_cases isWriter actor members with
  | case1 hfind =>
    have hnot : ∀ level, (actor, level) ∉ members :=
      fun level hmem => List.find?_eq_none.mp hfind _ hmem (by simp)
    cases isMember actor members <;> simp [hnot]
  | case2 id level hfind =>
    have hmem := List.mem_of_find?_eq_some hfind
    obtain rfl : id = actor := by simpa using List.find?_some hfind
    have hlevel : ∀ level', (id, level') ∈ members ↔ level' = level := by
      intro level'
      constructor
      · intro hlvl
        exact congrArg Prod.snd (List.inj_on_of_nodup_map h hlvl hmem rfl)
      · rintro rfl
        exact hmem
    have hmbr : isMember id members = true := by
      simpa [isMember] using ⟨_, hmem⟩
    simp [hmbr, hlevel, AccessLevel.cmp, Nat.compare_eq_lt]

omit [Conditions C] in
theorem exists_isBest {k : GroupMember ID} {access : Access C}
    (h : Grants states groupId k access) :
    ∃ best, IsBest states groupId k best ∧ access.level.rank ≤ best.level.rank := by
  obtain ⟨best, hbest, hmin⟩ := (measure fun a : Access C => 3 - a.level.rank).wf.has_min
    {a | Grants states groupId k a} ⟨access, h⟩
  have hle : ∀ a, Grants states groupId k a → a.level.rank ≤ best.level.rank := by
    intro a ha
    have hlt : ¬3 - a.level.rank < 3 - best.level.rank := hmin a ha
    have hthree := a.level.rank_le_three
    omega
  exact ⟨best, ⟨hbest, hle⟩, hle access h⟩

/-- There is a path from the group to the actor, with write access at every step. -/
def WritesIn (states : GroupStates ID C) (groupId actor : ID) : Prop :=
  ∃ accesses, NestingPath states groupId (.individual actor) accesses ∧
    ∀ access ∈ accesses, AccessLevel.write.rank ≤ access.level.rank

theorem canWrite_members_iff {ε : Type} {E : Runtime ID OP} {l members : List (ID × Access C)}
    (hcur : z.currentState E = (.ok states : Outcome ε _))
    (hsts : UnconditionalBelow states groupId)
    (hdepth : ∀ depth id, NestedIn states depth groupId id → depth < maxNestedDepth)
    (h : z.members E groupId = (.ok members : Outcome ε _)) (hperm : l.Perm members) :
    canWrite actor (l.map fun (id, access) => (id, access.level)) = .ok () ↔
      WritesIn states groupId actor := by
  rw [GroupCrdtInnerState.members, traverseMembers, hcur] at h
  cases h
  have hnodup : (l.map Prod.fst).Nodup :=
    (hperm.map _).nodup_iff.mpr (nodup_individuals (HashMap.nodup_fst_entries _ _))
  have hmem : ∀ access, (actor, access) ∈ l ↔ IsBest states groupId (.individual actor) access := by
    intro access
    rw [hperm.mem_iff, mem_individuals, HashMap.mem_entries, lookup_membersInner hsts hdepth]
  rw [canWrite_iff (by rwa [List.map_map])]
  constructor
  · rintro ⟨level, hlvl, hwrite⟩
    obtain ⟨⟨_, access⟩, hmbr, ⟨⟩⟩ := List.mem_map.mp hlvl
    obtain ⟨accesses, hpath, -, hmin⟩ := ((hmem access).mp hmbr).grants
    exact ⟨accesses, hpath, fun a ha => hwrite.trans (hmin a ha)⟩
  · rintro ⟨accesses, hpath, hwrite⟩
    obtain ⟨access, hgrts, hacc, -⟩ := hpath.grants
    obtain ⟨best, hbest, hle⟩ := exists_isBest hgrts
    exact ⟨best.level, List.mem_map.mpr ⟨_, (hmem best).mpr hbest, rfl⟩,
      (hwrite access hacc).trans hle⟩

namespace GroupCrdt

/-- On every replica with the history below some tips, an actor had write access there just if the
group states of this history give it, whatever else is known and in whatever order it is walked. -/
theorem verifyClaimedWriteAccess_iff {ops : List (Operation ID OP C)} (h : Run ops y)
    (hy : y.Unconditional) (hheads : ∀ d ∈ heads, d ∈ y.graph.nodes) (E : Runtime ID OP) :
    ∃ inner states, rebuildAt E y heads = .ok inner ∧
      inner.currentState E = (.ok states : Outcome (GroupCrdtError ID OP) _) ∧
      ∀ groupId, (∀ depth id, NestedIn states depth groupId id → depth < maxNestedDepth) →
        ∀ ops' y', Run ops' y' → y'.Unconditional → y'.CreatedOnce →
          (∀ x ox, y.InPast heads x → y.Has x ox → y'.Has x ox) → ∀ E' actor,
            verifyClaimedWriteAccess E' y' actor groupId heads = .ok () ↔
              WritesIn states groupId actor := by
  have hc := h.consistent.toResolved
  obtain ⟨inner, hinn, hsame, hresd⟩ := rebuildAt_spec hc.history E heads
  obtain ⟨states, hsts, hjoin⟩ := hresd.currentState (ε := GroupCrdtError ID OP) E
  have huncond : states.Unconditional := by
    refine hresd.grantsOnly_currentState (fun hx => ?_) hjoin
    rw [hsame.has] at hx
    exact hy (has_trimmed.mp hx).1
  refine ⟨inner, states, hinn, hsts, fun groupId hdepth ops' y' h' hy' honce' hpast E' actor => ?_⟩
  have hc' := h'.consistent.toResolved
  have hhas : ∀ {x o}, inner.Has x o ↔ y'.Has x o ∧ y'.InPast heads x := by
    intro x o
    rw [hsame.has, has_trimmed_congr hc.history hc'.history hheads (hpast _ _),
      has_trimmed (E := E')]
  obtain ⟨l, m, hl, hm, hperm⟩ := membersAt_perm E' E hc' hresd (fun id _ => hy'.on id)
    (fun _ id _ => honce'.on id) hhas
  rw [verifyClaimedWriteAccess, hl, mapErr_ok, ok_bind, mapErr_eq_ok,
    canWrite_members_iff hsts (unconditionalBelow_of_unconditional huncond _) hdepth hm hperm]

/-- A manager had write access before they were removed. -/
theorem verifyClaimedWriteAccess_addThenRemoval : ∃ y inner states, Run addThenRemoval y ∧
    rebuildAt .reference y {1} = .ok inner ∧
    inner.currentState .reference = (.ok states : Outcome (GroupCrdtError Nat Nat) _) ∧
    (verifyClaimedWriteAccess .reference y 2 9 {1} = .ok () ↔ WritesIn states 9 2) := by
  obtain ⟨y, h, hmem, inner, hinn, states, hsts, hleaf⟩ := Run.of_returns
    (p := fun y => 1 ∈ y.graph.nodes ∧ (rebuildAt .reference y {1}).Returns fun inner =>
      (inner.currentState .reference : Outcome (GroupCrdtError Nat Nat) _).Returns fun states =>
        childGroups .reference states 9 = [])
    .reference addThenRemoval (by decide +kernel)
  have hy : y.Unconditional := h.unconditional (by decide)
  have hheads : ∀ d ∈ ({1} : Finset Nat), d ∈ y.graph.nodes := by simpa using hmem
  obtain ⟨_, _, hinn', hsts', hiff⟩ := verifyClaimedWriteAccess_iff h hy hheads .reference
  cases hinn.symm.trans hinn'
  cases hsts.symm.trans hsts'
  refine ⟨y, inner, states, h, hinn, hsts, hiff 9 ?_ _ y h hy (h.createdOnce (by decide))
    (fun _ _ _ hx => hx) .reference 2⟩
  intro depth id hnest
  cases hnest with
  | self => decide
  | step hm hactv =>
    have hchild := mem_childGroups (E := .reference).mpr ⟨_, hm, hactv⟩
    rw [hleaf] at hchild
    cases hchild

end GroupCrdt

end P2Panda.Auth.Group
