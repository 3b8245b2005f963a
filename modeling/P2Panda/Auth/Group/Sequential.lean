import P2Panda.Auth.Group.Monotone

/-!
# Sequential histories

When every operation builds on all tips, the current state is the one before with the operation
applied to it. It may name older operations too, as long as no group is created twice.
-/

namespace P2Panda.Auth.Group

open P2Panda.Library

section Precedes

variable {K C : Type} [DecidableEq K] {m m' : MemberState C}

/-- The counters tell which of two states is newer. -/
def MemberState.Precedes (m m' : MemberState C) : Prop :=
  m = m' ∨ m.memberCounter < m'.memberCounter ∨
    m.memberCounter = m'.memberCounter ∧ m.accessCounter < m'.accessCounter

theorem MemberState.Precedes.trans {a b c : MemberState C} (hab : a.Precedes b)
    (hbc : b.Precedes c) : a.Precedes c := by
  rcases hab with rfl | hab
  · exact hbc
  · rcases hbc with rfl | hbc
    · exact Or.inr hab
    · right
      omega

theorem mergeMember_eq_left [Conditions C] (h : m.Precedes m') : mergeMember m' m = m' := by
  rw [mergeMember_eq_ite]
  rcases h with rfl | h
  · exact ite_self _
  · exact if_pos (by omega)

theorem mergeMember_eq_right [Conditions C] (h : m.Precedes m') : mergeMember m m' = m' := by
  rw [mergeMember_eq_ite]
  rcases h with rfl | h
  · exact ite_self _
  · exact if_neg (by omega)

def GroupMembersState.Precedes (s s' : GroupMembersState K C) : Prop :=
  ∀ k m, s.members.lookup k = some m → ∃ m', s'.members.lookup k = some m' ∧ m.Precedes m'

theorem GroupMembersState.Precedes.refl (s : GroupMembersState K C) : s.Precedes s :=
  fun _ m hm => ⟨m, hm, Or.inl rfl⟩

theorem GroupMembersState.Precedes.trans {a b c : GroupMembersState K C} (hab : a.Precedes b)
    (hbc : b.Precedes c) : a.Precedes c := by
  intro k m hm
  obtain ⟨m1, hm1, hle1⟩ := hab k m hm
  obtain ⟨m2, hm2, hle2⟩ := hbc k m1 hm1
  exact ⟨m2, hm2, hle1.trans hle2⟩

variable [Conditions C] {o : HashOrder K} {s s' t : GroupMembersState K C}

theorem merge_eq_left (h : s.Precedes s') : merge o s' s = s' := by
  ext1
  apply Finmap.ext_lookup
  intro k
  rw [lookup_merge]
  exact Library.merge_eq_left (h k) mergeMember_eq_left

theorem merge_eq_right (h : s.Precedes s') : merge o s s' = s' := by
  ext1
  apply Finmap.ext_lookup
  intro k
  rw [lookup_merge]
  exact Library.merge_eq_right (h k) mergeMember_eq_right

theorem GroupMembersState.Precedes.merge (h : s.Precedes t) (h' : s'.Precedes t) :
    (merge o s s').Precedes t := by
  intro k m hm
  exact (lookup_merge_origin hm).elim (h k m) (h' k m)

end Precedes

section States

variable {ID OP C : Type} [DecidableEq ID]

def GroupStates.Precedes (a b : GroupStates ID C) : Prop :=
  ∀ groupId s, a.lookup groupId = some s → ∃ s', b.lookup groupId = some s' ∧ s.Precedes s'

theorem GroupStates.Precedes.trans {a b c : GroupStates ID C} (hab : a.Precedes b)
    (hbc : b.Precedes c) : a.Precedes c := by
  intro groupId s hs
  obtain ⟨s1, hs1, hle1⟩ := hab groupId s hs
  obtain ⟨s2, hs2, hle2⟩ := hbc groupId s1 hs1
  exact ⟨s2, hs2, hle1.trans hle2⟩

theorem MemberChange.precedes [Conditions C] {s : GroupMembersState (GroupMember ID) C} {actor : ID}
    {action : GroupAction ID C} {member : GroupMember ID} {m m' : MemberState C}
    (h : MemberChange s actor action member m') (hm : s.members.lookup member = some m) :
    m.Precedes m' :=
  Or.inr (h.counter_lt hm)

theorem precedes_insert_resolveMembers [Conditions C] {states : GroupStates ID C}
    {o : Operation ID OP C} (habs : o.action.isCreate = true → states.lookup o.groupId = none) :
    states.Precedes (states.insert o.groupId
      (resolveMembers false false o (states.lookup o.groupId))) := by
  intro groupId s hs
  rw [HashMap.lookup_insert_ite]
  split_ifs with hgrp
  swap
  · exact ⟨s, hs, .refl s⟩
  subst hgrp
  refine ⟨_, rfl, fun k m hm => ?_⟩
  cases hcrt : o.action.isCreate with
  | true =>
    rw [habs hcrt] at hs
    cases hs
  | false =>
    rw [hs]
    rcases resolveMembers_cases hcrt rfl with heq | ⟨-, -, member, m', hchg, hlook⟩ | ⟨hmut, -⟩
    · exact ⟨m, by rw [heq]; exact hm, Or.inl rfl⟩
    · rw [hlook]
      split_ifs with hk
      · subst hk
        exact ⟨m', rfl, hchg.precedes hm⟩
      · exact ⟨m, hm, Or.inl rfl⟩
    · cases hmut

namespace GroupCrdtInnerState

variable [DecidableEq OP] [Conditions C] {E : Runtime ID OP} {current states : GroupStates ID C}

theorem joinStates_eq_right (h : current.Precedes states) :
    joinStates E current states = states := by
  apply Finmap.ext_lookup
  intro groupId
  rw [lookup_joinStates]
  exact Library.merge_eq_left (h groupId) merge_eq_left

theorem joinStates_eq_left (h : states.Precedes current) :
    joinStates E current states = current := by
  apply Finmap.ext_lookup
  intro groupId
  rw [lookup_joinStates]
  exact Library.merge_eq_right (h groupId) merge_eq_right

theorem joinStates_precedes {top : GroupStates ID C} (hcur : current.Precedes top)
    (hsts : states.Precedes top) : (joinStates E current states).Precedes top := by
  intro groupId
  rw [lookup_joinStates]
  exact Under.merge (hsts groupId) (hcur groupId) .merge

theorem foldl_joinStates_newest {f : OP → GroupStates ID C} (top : GroupStates ID C)
    (l : List OP) (hcur : current.Precedes top) (hl : ∀ d ∈ l, (f d).Precedes top)
    (htop : current = top ∨ ∃ d ∈ l, f d = top) :
    l.foldl (fun current d => joinStates E current (f d)) current = top := by
  induction l generalizing current with
  | nil => simpa using htop
  | cons d l ih =>
    obtain ⟨hd, hl⟩ := List.forall_mem_cons.mp hl
    refine ih (joinStates_precedes hcur hd) hl ?_
    rcases htop with rfl | ⟨d', hd', rfl⟩
    · exact Or.inl (joinStates_eq_left hd)
    · rcases List.mem_cons.mp hd' with rfl | hd'
      · exact Or.inl (joinStates_eq_right hcur)
      · exact Or.inr ⟨d', hd', rfl⟩

end GroupCrdtInnerState

end States

namespace GroupCrdt

open GroupCrdtInnerState

variable {ID OP C ε : Type} [DecidableEq ID] [DecidableEq OP] [Conditions C]
variable {y y' : GroupCrdtInnerState ID OP C} {o : Operation ID OP C} {E : Runtime ID OP}
variable {current : GroupStates ID C}

/-- The current state is stored at the only tip, however it is merged. -/
structure Sequential (y : GroupCrdtInnerState ID OP C) (current : GroupStates ID C) : Prop where
  last : y.graph.nodes = ∅ ∧ current = ∅ ∨
    ∃ last, y.headsGlobal = {last} ∧ y.states.lookup last = some current
  confluent : ∀ {x o} (E E' : Runtime ID OP), y.Has x o →
    y.mergeStates E o.dependencies.toFinset = y.mergeStates E' o.dependencies.toFinset
  newest : y.CreatedOnce → ∀ x ∈ y.graph.nodes, (y.stateOf x).Precedes current

theorem sequential_init : Sequential (init : GroupCrdtInnerState ID OP C) ∅ where
  last := Or.inl ⟨rfl, rfl⟩
  confluent _ _ hx := by simp [Has, init, GroupCrdtInnerState.default] at hx
  newest _ x hx := by simp [init, GroupCrdtInnerState.default] at hx

/-- The operation builds on all tips, and on older operations only if nothing comes back with
them. -/
def BuildsOnTips (y : GroupCrdtInnerState ID OP C) (o : Operation ID OP C) : Prop :=
  y.headsGlobal ⊆ o.dependencies.toFinset ∧
    (o.dependencies.toFinset = y.headsGlobal ∨ y.CreatedOnce)

theorem Sequential.currentState (h : Sequential y current) (E : Runtime ID OP) :
    y.currentState E = (.ok current : Outcome ε _) := by
  have hmrg : y.mergeStates E y.headsGlobal = .ok current := by
    rcases h.last with ⟨hnds, rfl⟩ | ⟨last, hhds, hlast⟩
    · have hhds : y.headsGlobal = ∅ := by simp [headsGlobal, DiGraphMap.externals, hnds]
      rw [hhds, mergeStates_eq (by simp)]
      simp
    · rw [hhds, mergeStates_singleton (by simp [hlast]), stateOf_eq hlast]
  rw [GroupCrdtInnerState.currentState, hmrg]
  rfl

theorem Sequential.mergeStates (h : Sequential y current) (hy : Consistent y)
    (hdeps : ∀ d ∈ o.dependencies.toFinset, d ∈ y.graph.nodes) (htips : BuildsOnTips y o)
    (E : Runtime ID OP) : y.mergeStates E o.dependencies.toFinset = .ok current := by
  have hstor : ∀ d ∈ o.dependencies.toFinset, (y.states.lookup d).isSome :=
    fun d hd => hy.stored (hdeps d hd)
  rcases h.last with ⟨hnds, rfl⟩ | ⟨last, hhds, hlast⟩
  · have hemp : o.dependencies.toFinset = ∅ :=
      Finset.eq_empty_of_forall_notMem fun d hd => by simpa [hnds] using hdeps d hd
    rw [hemp, mergeStates_eq (by simp)]
    simp
  · obtain ⟨hsub, heq | honce⟩ := htips
    · rw [heq, hhds, mergeStates_singleton (by simp [hlast]), stateOf_eq hlast]
    · rw [mergeStates_eq hstor, foldl_joinStates_newest current]
      · intro groupId s hs
        simp at hs
      · exact fun d hd => h.newest honce d (hdeps d (E.ops.mem_iter.mp hd))
      · refine Or.inr ⟨last, E.ops.mem_iter.mpr (hsub ?_), stateOf_eq hlast⟩
        simp [hhds]

theorem BuildsOnTips.before (htips : BuildsOnTips y o) (hy : Consistent y)
    (hext : IsExtension y y' o) {x : OP} (hx : x ∈ y.graph.nodes) : y'.graph.Before x o.id := by
  obtain ⟨d, hd, hrch⟩ := hy.history.acyclic.exists_external hx
  exact hext.graph.before_sink.mpr ⟨d, List.mem_toFinset.mp (htips.1 hd), hrch⟩

theorem Sequential.states_eq (h : Sequential y current) (hy : Consistent y)
    (hext : IsExtension y y' o) (hy' : Consistent y') (htips : BuildsOnTips y o) {x : OP}
    (hx : x ∈ y.graph.nodes) : y'.states.lookup x = y.states.lookup x := by
  have hlast : ∀ {x ox}, y.Has x ox → ox.groupId = o.groupId → y'.graph.Before x o.id :=
    fun hx _ => htips.before hy hext hx.1
  induction x using hy.history.acyclic.wellFounded.induction with
  | _ x ih =>
  obtain ⟨ox, base, hox, ⟨E, hmrg⟩, -, hst⟩ := hy.resolved x hx
  obtain ⟨ox', base', hox', ⟨E', hmerged'⟩, -, hstate'⟩ := hy'.resolved x (hext.has_old hox).1
  cases (hext.has_old hox).unique hox'
  have hbase : base' = base := by
    have hcongr : y'.mergeStates E' ox.dependencies.toFinset =
        y.mergeStates E' ox.dependencies.toFinset := mergeStates_congr fun d hd => by
      have hadj := (hy.history.adj_iff_dep hox).mpr hd
      exact ih d hadj.before hadj.left_mem
    rw [hcongr, h.confluent E' E hox, hmrg] at hmerged'
    cases hmerged'
    rfl
  rw [hst, hstate', hbase, resolvedMembers_congr
    (hext.mutual_old hox (hext.not_onCycle_of_last hy.history.acyclic hlast))
    fun _ => hext.filtered_of_last hlast hox]

theorem Sequential.step (h : Sequential y current) (hy : Consistent y)
    (hext : IsExtension y y' o) (hy' : Consistent y') (htips : BuildsOnTips y o) :
    Sequential y' (current.insert o.groupId
      (resolveMembers false false o (current.lookup o.groupId))) := by
  have hlast : ∀ {x ox}, y.Has x ox → ox.groupId = o.groupId → y'.graph.Before x o.id :=
    fun hx _ => htips.before hy hext hx.1
  have hdeps : ∀ d ∈ o.dependencies.toFinset, d ∈ y.graph.nodes :=
    fun d hd => hext.graph.deps_mem (List.mem_toFinset.mp hd)
  have hold : ∀ x ∈ y.graph.nodes, y'.states.lookup x = y.states.lookup x :=
    fun x hx => h.states_eq hy hext hy' htips hx
  have hmrg : ∀ E, y'.mergeStates E o.dependencies.toFinset = .ok current := fun E =>
    (mergeStates_congr fun d hd => hold d (hdeps d hd)).trans (h.mergeStates hy hdeps htips E)
  obtain ⟨o', base, ho', hfrom⟩ := hy'.resolved o.id hext.has_new.1
  cases ho'.unique hext.has_new
  obtain ⟨E, hbase⟩ := hfrom.merged
  cases (hmrg E).symm.trans hbase
  have hst := hfrom.state
  rw [resolvedMembers_eq (hext.not_filtered_of_last hlast) fun ⟨_, _, _, hcyc⟩ =>
    hext.not_onCycle_of_last hy.history.acyclic hlast hcyc] at hst
  refine ⟨Or.inr ⟨o.id, ?_, hst⟩, ?_, ?_⟩
  · ext a
    simp only [headsGlobal, hext.graph.externals, Finset.mem_singleton, or_iff_left_iff_imp]
    rintro ⟨ha, hnot⟩
    exact absurd (List.mem_toFinset.mp (htips.1 ha)) hnot
  · intro x ox E E' hx
    rcases hext.has.mp hx with ⟨rfl, rfl⟩ | hx
    · rw [hmrg, hmrg]
    · have hcongr : ∀ E, y'.mergeStates E ox.dependencies.toFinset =
          y.mergeStates E ox.dependencies.toFinset := fun E => mergeStates_congr fun d hd =>
        hold d ((hy.history.adj_iff_dep hx).mpr hd).left_mem
      rw [hcongr, hcongr, h.confluent E E' hx]
  · intro honce x hx
    rw [hext.graph.nodes, Finset.mem_insert] at hx
    rcases hx with rfl | hx
    · rw [stateOf_eq hst]
      exact fun groupId s hs => ⟨s, hs, .refl s⟩
    · have hnewest := h.newest (fun hc hc' => honce (hext.has_old hc) (hext.has_old hc')) x hx
      rw [stateOf, hold x hx]
      exact hnewest.trans (precedes_insert_resolveMembers
        fun hcrt => hfrom.absent hy'.toResolved (honce.on _) hext.has_new hcrt)

inductive GuardedRun (P : Runtime ID OP → GroupCrdtInnerState ID OP C → Operation ID OP C → Prop) :
    GroupCrdtInnerState ID OP C → Prop
  | init : GuardedRun P init
  | step {y y' : GroupCrdtInnerState ID OP C} {o : Operation ID OP C} (E : Runtime ID OP) :
      GuardedRun P y → P E y o → process E y o = .ok y' → GuardedRun P y'

/-- What the empty state has, and is kept when an operation is applied to the current state, holds
after every run on all tips. -/
theorem GuardedRun.sequential
    {P : Runtime ID OP → GroupCrdtInnerState ID OP C → Operation ID OP C → Prop}
    (h : GuardedRun P y) (hP : ∀ {E y o}, P E y o → BuildsOnTips y o)
    {I : GroupStates ID C → Prop} (hinit : I ∅)
    (hstep : ∀ {E y o current}, Sequential y current → P E y o → Admissible E y o → I current →
      I (current.insert o.groupId (resolveMembers false false o (current.lookup o.groupId)))) :
    ∃ current, Sequential y current ∧ Consistent y ∧ I current := by
  induction h with
  | init => exact ⟨∅, sequential_init, consistent_init, hinit⟩
  | step E _ hguard hok ih =>
    obtain ⟨current, hsequ, hcons, hI⟩ := ih
    obtain ⟨hext, hconsistent', hadm⟩ := process_ok hcons hok
    exact ⟨_, hsequ.step hcons hext hconsistent' (hP hguard), hconsistent',
      hstep hsequ hguard hadm hI⟩

end GroupCrdt

end P2Panda.Auth.Group
