import P2Panda.Auth.Group.Views

/-!
# Transitive members

A member gets the highest access among the paths of groups that lead to it, where a path gives the
lowest access on it.
-/

namespace P2Panda.Auth.Group

open P2Panda.Library GroupStates List GroupCrdtInnerState Outcome

namespace GroupCrdtInnerState

variable {ID OP C ε : Type} [DecidableEq ID]

/-- A path of active memberships within the depth, with some level of access throughout. -/
inductive MemberBelow (states : GroupStates ID C) (level : Nat) :
    Nat → ID → GroupMember ID → Prop
  | member {depth groupId k m} : states.memberState groupId k = some m → m.isMember = true →
      level ≤ m.access.level.rank → MemberBelow states level (depth + 1) groupId k
  | nested {depth groupId id k m} : states.memberState groupId (.group id) = some m →
      m.isMember = true → level ≤ m.access.level.rank → MemberBelow states level depth id k →
      MemberBelow states level (depth + 1) groupId k

/-- A path of active memberships, with the access values on it. -/
inductive NestingPath (states : GroupStates ID C) : ID → GroupMember ID → List (Access C) → Prop
  | member {groupId k m} : states.memberState groupId k = some m → m.isMember = true →
      NestingPath states groupId k [m.access]
  | nested {groupId id k m accesses} : states.memberState groupId (.group id) = some m →
      m.isMember = true → NestingPath states id k accesses →
      NestingPath states groupId k (m.access :: accesses)

variable {states states' : GroupStates ID C} {level depth : Nat} {groupId : ID}
variable {k : GroupMember ID} {access : Access C} {accesses : List (Access C)}

theorem memberBelow_congr (hgrp : states.lookup groupId = states'.lookup groupId)
    (hbelow : ∀ id, MemberBelow states 0 depth groupId (.group id) →
      states.lookup id = states'.lookup id) :
    MemberBelow states level depth groupId k ↔ MemberBelow states' level depth groupId k := by
  induction depth generalizing groupId with
  | zero => exact iff_of_false (fun h => nomatch h) fun h => nomatch h
  | succ depth ih =>
    have hmbr : ∀ k, states.memberState groupId k = states'.memberState groupId k := by
      intro k
      rw [memberState, memberState, hgrp]
    have hnest : ∀ {id m}, states.memberState groupId (.group id) = some m → m.isMember = true →
        (MemberBelow states level depth id k ↔ MemberBelow states' level depth id k) :=
      fun hm hactv => ih (hbelow _ (.member hm hactv (Nat.zero_le _)))
        fun id' h => hbelow id' (.nested hm hactv (Nat.zero_le _) h)
    constructor
    · intro h
      cases h with
      | member hm hactv hlvl => exact .member (hmbr k ▸ hm) hactv hlvl
      | nested hm hactv hlvl h =>
        exact .nested (hmbr _ ▸ hm) hactv hlvl ((hnest hm hactv).mp h)
    · intro h
      cases h with
      | member hm hactv hlvl => exact .member (hmbr k ▸ hm) hactv hlvl
      | nested hm hactv hlvl h =>
        have hm' := (hmbr _).trans hm
        exact .nested hm' hactv hlvl ((hnest hm' hactv).mpr h)

theorem memberBelow_iff : MemberBelow states level depth groupId k ↔
    ∃ accesses, NestingPath states groupId k accesses ∧ accesses.length ≤ depth ∧
      ∀ a ∈ accesses, level ≤ a.level.rank := by
  constructor
  · intro h
    induction h with
    | member hm hactv hlvl => exact ⟨_, .member hm hactv, by simp, by simpa using hlvl⟩
    | nested hm hactv hlvl _ ih =>
      obtain ⟨accesses, hpath, hlen, hall⟩ := ih
      exact ⟨_, .nested hm hactv hpath, by simpa using hlen, forall_mem_cons.mpr ⟨hlvl, hall⟩⟩
  · rintro ⟨accesses, hpath, hlen, hall⟩
    induction hpath generalizing depth with
    | member hm hactv =>
      obtain ⟨depth, rfl⟩ : ∃ n, depth = n + 1 := ⟨depth - 1, by simp at hlen; omega⟩
      exact .member hm hactv (hall _ (by simp))
    | nested hm hactv _ ih =>
      obtain ⟨depth, rfl⟩ : ∃ n, depth = n + 1 := ⟨depth - 1, by simp at hlen; omega⟩
      exact .nested hm hactv (hall _ (by simp)) (ih (by simpa using hlen)
        fun a ha => hall a (by simp [ha]))

theorem NestingPath.ne_nil (h : NestingPath states groupId k accesses) : accesses ≠ [] := by
  cases h with
  | member => exact nofun
  | nested => exact nofun

/-- No access on a path from the group has conditions. -/
def UnconditionalBelow (states : GroupStates ID C) (groupId : ID) : Prop :=
  ∀ k accesses, NestingPath states groupId k accesses → ∀ a ∈ accesses, a.Unconditional

theorem unconditionalBelow_of_unconditional (hsts : states.Unconditional) (groupId : ID) :
    UnconditionalBelow states groupId := by
  intro k accesses h
  have hgiven {groupId : ID} {k : GroupMember ID} {m : MemberState C}
      (hm : states.memberState groupId k = some m) : m.access.Unconditional := by
    obtain ⟨group, hgrp, hk⟩ := memberState_eq_some.mp hm
    exact hsts groupId group hgrp k m hk
  induction h with
  | member hm => exact forall_mem_singleton.mpr (hgiven hm)
  | nested hm _ _ ih => exact forall_mem_cons.mpr ⟨hgiven hm, ih⟩

def Records (members : HashMap (GroupMember ID) (Access C)) (k : GroupMember ID) (level : Nat) :
    Prop :=
  ∃ access, members.lookup k = some access ∧ level ≤ access.level.rank

def RecordsUnconditional (members : HashMap (GroupMember ID) (Access C)) : Prop :=
  ∀ k access, members.lookup k = some access → access.Unconditional

theorem eq_of_records {members members' : HashMap (GroupMember ID) (Access C)}
    (h : RecordsUnconditional members) (h' : RecordsUnconditional members')
    (hrecs : ∀ k level, Records members k level ↔ Records members' k level) :
    members = members' := by
  have hhalf : ∀ {a b : HashMap (GroupMember ID) (Access C)}, RecordsUnconditional a →
      RecordsUnconditional b → (∀ k level, Records a k level ↔ Records b k level) →
      ∀ {k access}, a.lookup k = some access → b.lookup k = some access := by
    intro a b ha hb hab k access hk
    obtain ⟨access1, hk1, hle1⟩ := (hab k access.level.rank).mp ⟨access, hk, le_rfl⟩
    obtain ⟨access2, hk2, hle2⟩ := (hab k access1.level.rank).mpr ⟨access1, hk1, le_rfl⟩
    rw [hk] at hk2
    cases hk2
    rw [hk1, Access.eq_of_rank (hb k access1 hk1) (ha k access hk) (le_antisymm hle2 hle1)]
  apply Finmap.ext_lookup
  intro k
  apply Option.ext
  intro access
  exact ⟨hhalf h h' hrecs, hhalf h' h fun k level => (hrecs k level).symm⟩

variable [Conditions C] {root : Option (Access C)}

theorem le_nextAccess (hroot : ∀ r, root = some r → r.Unconditional)
    (haccs : access.Unconditional) :
    level ≤ (nextAccess root access).level.rank ↔
      (∀ r, root = some r → level ≤ r.level.rank) ∧ level ≤ access.level.rank := by
  cases root with
  | none => simp [nextAccess]
  | some r =>
    have hle := Access.le_iff_rank haccs (hroot r rfl)
    simp only [nextAccess, Option.some.injEq, forall_eq']
    split_ifs with hcase
    · have := hle.mp hcase
      omega
    · have := mt hle.mpr hcase
      omega

theorem unconditional_nextAccess (hroot : ∀ r, root = some r → r.Unconditional)
    (haccs : access.Unconditional) :
    (nextAccess root access).Unconditional := by
  cases root with
  | none => exact haccs
  | some r =>
    simp only [nextAccess]
    split_ifs
    · exact haccs
    · exact hroot r rfl

def capAlong : Option (Access C) → List (Access C) → Option (Access C)
  | root, [] => root
  | root, access :: accesses => capAlong (some (nextAccess root access)) accesses

/-- The member can be reached in a number of steps, with an access that the path gives. -/
def ReachedWithin (states : GroupStates ID C) (steps : Nat) (root : Option (Access C))
    (groupId : ID) (k : GroupMember ID) (access : Access C) : Prop :=
  ∃ accesses, NestingPath states groupId k accesses ∧ accesses.length ≤ steps ∧
    capAlong root accesses = some access

omit [DecidableEq ID] in
theorem exists_capAlong (root : Option (Access C)) (h : accesses ≠ []) :
    ∃ access, capAlong root accesses = some access := by
  induction accesses generalizing root with
  | nil => exact absurd rfl h
  | cons access accesses ih =>
    cases accesses with
    | nil => exact ⟨_, rfl⟩
    | cons => exact ih _ nofun

theorem le_capAlong (hroot : ∀ r, root = some r → r.Unconditional)
    (hall : ∀ a ∈ accesses, a.Unconditional) (h : capAlong root accesses = some access)
    {level : Nat} :
    level ≤ access.level.rank ↔
      (∀ r, root = some r → level ≤ r.level.rank) ∧ ∀ a ∈ accesses, level ≤ a.level.rank := by
  induction accesses generalizing root with
  | nil =>
    change root = some access at h
    simp [h]
  | cons a accesses ih =>
    obtain ⟨ha, hall⟩ := forall_mem_cons.mp hall
    have hnext : ∀ r, some (nextAccess root a) = some r → r.Unconditional := by
      intro r hr
      cases hr
      exact unconditional_nextAccess hroot ha
    rw [ih hnext hall h]
    simp only [Option.some.injEq, forall_eq', le_nextAccess hroot ha, mem_cons,
      forall_eq_or_imp, and_assoc]

omit [DecidableEq ID] in
theorem unconditional_capAlong (hroot : ∀ r, root = some r → r.Unconditional)
    (hall : ∀ a ∈ accesses, a.Unconditional) (h : capAlong root accesses = some access) :
    access.Unconditional := by
  induction accesses generalizing root with
  | nil => exact hroot access h
  | cons a accesses ih =>
    rw [forall_mem_cons] at hall
    refine ih ?_ hall.2 h
    rintro _ ⟨⟩
    exact unconditional_nextAccess hroot hall.1

/-- The result records what was recorded before and the members that `G` gives an access; without
conditions, the highest one. -/
structure Meets (before after : HashMap (GroupMember ID) (Access C))
    (G : GroupMember ID → Access C → Prop) : Prop where
  given : ∀ k access, after.lookup k = some access → before.lookup k = some access ∨ G k access
  met : ∀ k access, before.lookup k = some access ∨ G k access →
    ∃ access', after.lookup k = some access' ∧
      ((∀ k a, before.lookup k = some a ∨ G k a → a.Unconditional) →
        access.level.rank ≤ access'.level.rank)

namespace Meets

variable {a b c : HashMap (GroupMember ID) (Access C)} {G H : GroupMember ID → Access C → Prop}

omit [Conditions C] in
theorem congr (h : Meets a b G) (hGH : ∀ k access, G k access ↔ H k access) : Meets a b H := by
  have heq : G = H := funext₂ fun k access => propext (hGH k access)
  exact heq ▸ h

omit [Conditions C] in
theorem nothing (a : HashMap (GroupMember ID) (Access C)) : Meets a a fun _ _ => False where
  given _ _ hk := Or.inl hk
  met _ access hk := ⟨access, hk.resolve_right id, fun _ => le_rfl⟩

omit [Conditions C] in
theorem given_or {k : GroupMember ID} (h : Meets a b G)
    (hk : b.lookup k = some access ∨ H k access) :
    a.lookup k = some access ∨ G k access ∨ H k access := by
  rcases hk with hk | hk
  · exact (h.given k access hk).imp_right Or.inl
  · exact Or.inr (Or.inr hk)

omit [Conditions C] in
theorem trans (hab : Meets a b G) (hbc : Meets b c H) :
    Meets a c fun k access => G k access ∨ H k access where
  given k access hk := hab.given_or (hbc.given k access hk)
  met k access hk := by
    rcases or_assoc.mpr hk with hk | hk
    · obtain ⟨access', hk', hle⟩ := hab.met k access hk
      obtain ⟨access'', hk'', hle'⟩ := hbc.met k access' (Or.inl hk')
      refine ⟨access'', hk'', fun hall => (hle fun k a ha => ?_).trans (hle' fun k a ha => ?_)⟩
      · exact hall k a (ha.imp_right Or.inl)
      · exact hall k a (hab.given_or ha)
    · obtain ⟨access', hk', hle⟩ := hbc.met k access (Or.inr hk)
      exact ⟨access', hk', fun hall => hle fun k a ha => hall k a (hab.given_or ha)⟩

omit [Conditions C] in
theorem foldl {α : Type} {f : HashMap (GroupMember ID) (Access C) → α →
      HashMap (GroupMember ID) (Access C)} {G : α → GroupMember ID → Access C → Prop} (l : List α)
    (h : ∀ p ∈ l, ∀ members, Meets members (f members p) (G p))
    (members : HashMap (GroupMember ID) (Access C)) :
    Meets members (l.foldl f members) fun k access => ∃ p ∈ l, G p k access := by
  induction l generalizing members with
  | nil => exact (nothing members).congr (by simp)
  | cons p l ih =>
    obtain ⟨hfst, hrest⟩ := forall_mem_cons.mp h
    exact ((hfst members).trans (ih hrest (f members p))).congr (by simp)

theorem recordMember (a : HashMap (GroupMember ID) (Access C)) (member : GroupMember ID)
    (access : Access C) :
    Meets a (recordMember a member access) fun k given => k = member ∧ given = access where
  given k given hk := by
    rw [GroupCrdtInnerState.recordMember, HashMap.lookup_andModifyOrInsert] at hk
    split_ifs at hk with hmbr
    · subst hmbr
      cases hlook : a.lookup k with
      | none =>
        rw [hlook] at hk
        exact Or.inr ⟨rfl, (Option.some.inj hk).symm⟩
      | some current =>
        rw [hlook, Option.elim_some, Option.some.injEq] at hk
        split_ifs at hk
        · exact Or.inr ⟨rfl, hk.symm⟩
        · exact Or.inl (congrArg some hk)
    · exact Or.inl hk
  met k given hk := by
    rw [GroupCrdtInnerState.recordMember, HashMap.lookup_andModifyOrInsert]
    by_cases hmbr : k = member
    · subst hmbr
      rw [if_pos rfl]
      cases hlook : a.lookup k with
      | none =>
        rw [hlook] at hk
        obtain ⟨-, rfl⟩ := hk.resolve_left nofun
        exact ⟨_, rfl, fun _ => le_rfl⟩
      | some current =>
        refine ⟨_, rfl, fun hall => ?_⟩
        have hlt := Access.lt_iff_rank (b := access) (hall k current (Or.inl hlook))
        rw [hlook, Option.some.injEq] at hk
        dsimp only [Option.elim_some]
        split_ifs with hcase
        · have := hlt.mp hcase
          rcases hk with rfl | ⟨-, rfl⟩ <;> omega
        · have := mt hlt.mpr hcase
          rcases hk with rfl | ⟨-, rfl⟩ <;> omega
    · rw [if_neg hmbr]
      exact ⟨given, hk.resolve_right fun h => hmbr h.1, fun _ => le_rfl⟩

end Meets

variable [DecidableEq OP] {E E' : Runtime ID OP}

theorem meets_membersInner (levels : Nat) (groupId : ID)
    (members : HashMap (GroupMember ID) (Access C)) (root : Option (Access C)) :
    Meets members (membersInner E states levels groupId members root)
      (ReachedWithin states levels root groupId) := by
  induction levels generalizing groupId members root with
  | zero =>
    refine (Meets.nothing members).congr fun k access => iff_of_false id ?_
    rintro ⟨accesses, hpath, hlen, -⟩
    exact hpath.ne_nil (length_eq_zero_iff.mp (Nat.le_zero.mp hlen))
  | succ levels ih =>
  cases hgrp : states.lookup groupId with
  | none =>
    simp only [membersInner, hgrp]
    refine (Meets.nothing members).congr fun k access => iff_of_false id ?_
    rintro ⟨accesses, hpath, -⟩
    cases hpath with
    | member hm => simp [memberState, hgrp] at hm
    | nested hm => simp [memberState, hgrp] at hm
  | some group =>
  simp only [membersInner, hgrp]
  have hmbr : ∀ {k access}, (k, access) ∈ group.accessLevels E.members ↔
      ∃ m, states.memberState groupId k = some m ∧ m.isMember = true ∧ m.access = access := by
    simp [memberState, hgrp]
  -- One turn of the loop records the member, and what is below if it is a group.
  refine (Meets.foldl (G := fun p k access => (k = p.1 ∧ access = nextAccess root p.2) ∨
    ∃ id, p.1 = .group id ∧ ReachedWithin states levels (some (nextAccess root p.2)) id k access) _
    (fun p hp members => ?_) members).congr fun k access => ?_
  · obtain ⟨member, given⟩ := p
    have hrecord := Meets.recordMember members member (nextAccess root given)
    cases member with
    | individual id => exact hrecord.congr (by simp)
    | group id =>
      refine (hrecord.trans (ih id _ (some _))).congr fun k access => ?_
      simp
  · constructor
    · rintro ⟨⟨member, given⟩, hp, hcases⟩
      obtain ⟨m, hm, hactv, rfl⟩ := hmbr.mp hp
      rcases hcases with ⟨rfl, rfl⟩ | ⟨id, rfl, accesses, hpath, hlen, hcap⟩
      · exact ⟨[m.access], .member hm hactv, Nat.le_add_left 1 levels, rfl⟩
      · exact ⟨m.access :: accesses, .nested hm hactv hpath, Nat.succ_le_succ hlen, hcap⟩
    · rintro ⟨accesses, hpath, hlen, hcap⟩
      cases hpath with
      | @member _ _ m hm hactv =>
        exact ⟨(k, m.access), hmbr.mpr ⟨m, hm, hactv, rfl⟩,
          Or.inl ⟨rfl, (Option.some.inj hcap).symm⟩⟩
      | @nested _ id _ m accesses hm hactv hpath =>
        exact ⟨(.group id, m.access), hmbr.mpr ⟨m, hm, hactv, rfl⟩,
          Or.inr ⟨id, rfl, accesses, hpath, Nat.le_of_succ_le_succ hlen, hcap⟩⟩

theorem reachedWithin_of_lookup
    (h : (membersInner E states depth groupId ∅ none).lookup k = some access) :
    ReachedWithin states depth none groupId k access := by
  refine ((meets_membersInner depth groupId ∅ none).given k access h).resolve_left ?_
  exact nofun

theorem ReachedWithin.unconditional (hsts : UnconditionalBelow states groupId)
    (h : ReachedWithin states depth none groupId k access) : access.Unconditional := by
  obtain ⟨accesses, hpath, -, hcap⟩ := h
  refine unconditional_capAlong ?_ (hsts _ _ hpath) hcap
  rintro _ ⟨⟩

theorem ReachedWithin.exists_lookup (E : Runtime ID OP)
    (h : ReachedWithin states depth none groupId k access) :
    ∃ access', (membersInner E states depth groupId ∅ none).lookup k = some access' ∧
      (UnconditionalBelow states groupId → access.level.rank ≤ access'.level.rank) := by
  obtain ⟨access', hk, hle⟩ :=
    (meets_membersInner (E := E) depth groupId ∅ none).met k access (Or.inr h)
  refine ⟨access', hk, fun hsts => hle ?_⟩
  rintro k a (ha | ha)
  · cases ha
  · exact ha.unconditional hsts

theorem NestingPath.le_capAlong {level : Nat} (hsts : UnconditionalBelow states groupId)
    (h : NestingPath states groupId k accesses) (hcap : capAlong none accesses = some access) :
    level ≤ access.level.rank ↔ ∀ a ∈ accesses, level ≤ a.level.rank := by
  have hnone : ∀ r : Access C, none = some r → r.Unconditional := by rintro _ ⟨⟩
  rw [GroupCrdtInnerState.le_capAlong hnone (hsts _ _ h) hcap]
  exact and_iff_right nofun

theorem records_membersInner (hsts : UnconditionalBelow states groupId) (depth : Nat) :
    RecordsUnconditional (membersInner E states depth groupId ∅ none) ∧
      ∀ k level, Records (membersInner E states depth groupId ∅ none) k level ↔
        MemberBelow states level depth groupId k := by
  refine ⟨fun k access hk => (reachedWithin_of_lookup hk).unconditional hsts, ?_⟩
  intro k level
  rw [memberBelow_iff]
  constructor
  · rintro ⟨access, hk, hlvl⟩
    obtain ⟨accesses, hpath, hlen, hcap⟩ := reachedWithin_of_lookup hk
    exact ⟨accesses, hpath, hlen, (hpath.le_capAlong hsts hcap).mp hlvl⟩
  · rintro ⟨accesses, hpath, hlen, hall⟩
    obtain ⟨cap, hcap⟩ := exists_capAlong none hpath.ne_nil
    have hlvl := (hpath.le_capAlong hsts hcap).mpr hall
    obtain ⟨access, hk, hle⟩ := ReachedWithin.exists_lookup E ⟨accesses, hpath, hlen, hcap⟩
    exact ⟨access, hk, hlvl.trans (hle hsts)⟩

theorem membersInner_eq (E E' : Runtime ID OP) (hsts : UnconditionalBelow states groupId)
    (hstates' : UnconditionalBelow states' groupId)
    (hgrp : states.lookup groupId = states'.lookup groupId)
    (hbelow : ∀ id, MemberBelow states 0 depth groupId (.group id) →
      states.lookup id = states'.lookup id) :
    membersInner E states depth groupId ∅ none = membersInner E' states' depth groupId ∅ none := by
  obtain ⟨huncond, hrecs⟩ := records_membersInner (E := E) hsts depth
  obtain ⟨hunconditional', hrecords'⟩ := records_membersInner (E := E') hstates' depth
  refine eq_of_records huncond hunconditional' fun k level => ?_
  rw [hrecs, hrecords', memberBelow_congr hgrp hbelow]

theorem members_perm {y y' : GroupCrdtInnerState ID OP C}
    (hcur : y.currentState E = (.ok states : Outcome ε _))
    (hcurrent' : y'.currentState E' = (.ok states' : Outcome ε _))
    (hsts : UnconditionalBelow states groupId) (hstates' : UnconditionalBelow states' groupId)
    (hgrp : states.lookup groupId = states'.lookup groupId)
    (hbelow : ∀ id, MemberBelow states 0 maxNestedDepth groupId (.group id) →
      states.lookup id = states'.lookup id) :
    ∃ l l', y.members E groupId = (.ok l : Outcome ε _) ∧
      y'.members E' groupId = (.ok l' : Outcome ε _) ∧ l.Perm l' := by
  simp only [members, traverseMembers, hcur, hcurrent', ok_bind, pure_eq, ok.injEq]
  refine ⟨_, _, rfl, rfl, ?_⟩
  rw [membersInner_eq E E' hsts hstates' hgrp hbelow]
  exact (HashMap.entries_perm _ _ _).filterMap _

theorem mem_groupDependencies {y : GroupCrdtInnerState ID OP C} {dependencies : Finset ID}
    (hcur : y.currentState E = (.ok states : Outcome ε _))
    (hsts : UnconditionalBelow states groupId)
    (h : y.groupDependencies E [groupId] = (.ok dependencies : Outcome ε _)) {id : ID} :
    id ∈ dependencies ↔ id = groupId ∨ MemberBelow states 0 maxNestedDepth groupId (.group id) := by
  simp only [groupDependencies, foldlM_cons, foldlM_nil,
    groups, traverseMembers, hcur, ok_bind, pure_eq,
    ok.injEq] at h
  subst h
  rw [← (records_membersInner (E := E) hsts maxNestedDepth).2]
  simp only [Finset.mem_union, Finset.mem_insert, Finset.notMem_empty, or_false,
    mem_toFinset, mem_map, mem_filterMap, Prod.exists, HashMap.mem_entries, Records]
  refine or_congr_right ⟨?_, ?_⟩
  · rintro ⟨id', access, ⟨member, access', hlook, hif⟩, rfl⟩
    split_ifs at hif with hgrp
    cases hif
    cases member with
    | individual id => cases hgrp
    | group id => exact ⟨_, hlook, Nat.zero_le _⟩
  · rintro ⟨access, hlook, -⟩
    exact ⟨id, access, ⟨.group id, access, hlook, rfl⟩, rfl⟩

end GroupCrdtInnerState

end P2Panda.Auth.Group
