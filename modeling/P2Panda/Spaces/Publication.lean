import P2Panda.Auth.Group.Convergence
import P2Panda.Spaces.Idempotence
import P2Panda.Spaces.Totality

/-!
# What is published into a space

A new space has the auth state of all groups, but pointers are published for a slice: the history of
the groups among the initial members. The rest stays without a pointer, since later calls take it to
be known.
-/

namespace P2Panda.Spaces

open P2Panda.Library Outcome P2Panda.Auth P2Panda.Auth.Group List Space SpacesMessage Option
open P2Panda.Encryption.DataScheme
open Manager
open GroupCrdtInnerState

variable {ID OP C φ : Type} {message : SpacesMessage ID OP C}

/-! ## Pointers -/

def SpacesMessage.pointer? (message : SpacesMessage ID OP C) : Option (OP × OP) :=
  match message.args with
  | .spaceMembership spaceId _ _ authMessageId _ => some (spaceId, authMessageId)
  | _ => none

/-- There is a pointer to an auth message in a space. -/
def Referenced (id : OP) (messages : List (SpacesMessage ID OP C)) (x : OP) : Prop :=
  (id, x) ∈ messages.filterMap SpacesMessage.pointer?

@[simp] theorem not_referenced_nil {id x : OP} :
    ¬Referenced id ([] : List (SpacesMessage ID OP C)) x :=
  not_mem_nil

@[simp] theorem referenced_append {id x : OP} {messages messages' : List (SpacesMessage ID OP C)} :
    Referenced id (messages ++ messages') x ↔
      Referenced id messages x ∨ Referenced id messages' x := by
  rw [Referenced, filterMap_append, mem_append]
  rfl

theorem referenced_cons {id x : OP} {messages : List (SpacesMessage ID OP C)} :
    Referenced id (message :: messages) x ↔
      message.pointer? = some (id, x) ∨ Referenced id messages x := by
  rw [Referenced, Referenced]
  simp

theorem referenced_of_pointers {id x : OP} {messages messages' : List (SpacesMessage ID OP C)}
    (h : ∀ message, message ∈ messages' ↔ message ∈ messages ∧ message.pointer?.isSome = true) :
    Referenced id messages' x ↔ Referenced id messages x := by
  rw [Referenced, Referenced, mem_filterMap, mem_filterMap]
  constructor
  · rintro ⟨message, hmsg, hptr⟩
    exact ⟨message, ((h message).mp hmsg).1, hptr⟩
  · rintro ⟨message, hmsg, hptr⟩
    exact ⟨message, (h message).mpr ⟨hmsg, by rw [hptr]; rfl⟩, hptr⟩

variable [LinearOrder ID] [DecidableEq OP] [Conditions C]

/-! ## Operations of an auth state -/

def Knows (y : AuthGroupState ID OP C) (x : OP) : Prop := (y.operations.lookup x).isSome = true

theorem knows_process {E : Runtime ID OP} {y y' : AuthGroupState ID OP C}
    {o : Operation ID OP C} (hy : GroupCrdt.Consistent y) (h : GroupCrdt.process E y o = .ok y') :
    ¬Knows y o.id ∧ ∀ x, Knows y' x ↔ x = o.id ∨ Knows y x := by
  obtain ⟨hext, hy', -⟩ := GroupCrdt.process_ok hy h
  refine ⟨fun hknown => hext.graph.fresh (hy.isSome_iff.mp hknown), fun x => ?_⟩
  rw [Knows, Knows, hy'.isSome_iff, hy.isSome_iff, hext.graph.nodes, Finset.mem_insert]

variable [Placeholders ID OP] {platform : Platform ID} {env : Surroundings ID OP C φ}
  {manager : Manager ID OP C} {id : OP} {groupsY : AuthGroupState ID OP C}
  {messages : List (SpacesMessage ID OP C)} {authMessage : AuthMessage ID OP C}
  {events : List (Event ID OP C)} {y : SpacesState ID OP C} {members : List (ID × Access C)}

/-! ## What is referenced -/

/-- The referenced operations are those the space knows, but for those of the auth state it started
with which are not in a slice. -/
structure Complete (id : OP) (seed : AuthGroupState ID OP C) (slice : List OP)
    (groupsY : AuthGroupState ID OP C) (sent : List (SpacesMessage ID OP C)) : Prop where
  seeded : ∀ x, Knows seed x → Knows groupsY x
  referenced : ∀ x, Referenced id sent x ↔ Knows groupsY x ∧ (Knows seed x → x ∈ slice)

namespace Complete

variable {seed : AuthGroupState ID OP C} {slice : List OP} {sent : List (SpacesMessage ID OP C)}

omit [Conditions C] [LinearOrder ID] [Placeholders ID OP] in
theorem congr {sent' : List (SpacesMessage ID OP C)} (h : Complete id seed slice groupsY sent)
    (hsent : ∀ x, Referenced id sent' x ↔ Referenced id sent x) :
    Complete id seed slice groupsY sent' :=
  ⟨h.seeded, fun x => (hsent x).trans (h.referenced x)⟩

theorem processAuthMessage {y y' : SpacesState ID OP C} (h : Complete id seed slice y.groupsY sent)
    (hy : y.Sound) (hid : y.spaceId = id)
    (hproc : Space.processAuthMessage platform env manager y authMessage =
      .ok (y', message, events)) :
    Complete id seed slice y'.groupsY (sent ++ [message]) := by
  obtain ⟨hpub⟩ := nonempty_published hproc
  obtain ⟨hnew, hknows⟩ := knows_process hy.consistent hpub.processed
  have hptr : message.pointer? = some (id, authMessage.id) := by
    rw [hpub.message_eq, ← hid]
    rfl
  rw [hpub.groupsY_eq]
  refine ⟨fun x hx => (hknows x).mpr (Or.inr (h.seeded x hx)), fun x => ?_⟩
  rw [referenced_append, referenced_cons, h.referenced, hknows, hptr]
  simp only [Option.some.injEq, Prod.mk.injEq, true_and, not_referenced_nil, or_false]
  constructor
  · rintro (⟨hx, hslice⟩ | rfl)
    · exact ⟨Or.inr hx, hslice⟩
    · exact ⟨Or.inl rfl, fun hseed => absurd (h.seeded _ hseed) hnew⟩
  · rintro ⟨rfl | hx, hslice⟩
    · exact Or.inr rfl
    · exact Or.inl ⟨hx, hslice⟩

theorem applyMissing {env : Nat → Surroundings ID OP C φ} {n : Nat} {y y' : SpacesState ID OP C}
    {ids : List OP} (h : Complete id seed slice y.groupsY sent) (hy : y.Sound)
    (hid : y.spaceId = id)
    (hmiss : Space.applyMissing platform manager groupsY env n y ids = .ok (y', messages, events)) :
    Complete id seed slice y'.groupsY (sent ++ messages) ∧ y'.spaceId = id := by
  induction ids generalizing n y sent messages events with
  | nil =>
    cases hmiss
    rw [append_nil]
    exact ⟨h, hid⟩
  | cons x ids ih =>
    rw [applyMissing] at hmiss
    split at hmiss
    · exact ih h hy hid hmiss
    · obtain ⟨operation, -, hmiss⟩ := bind_eq_ok.mp hmiss
      obtain ⟨⟨y1, message, events1⟩, hproc, hmiss⟩ := bind_eq_ok.mp hmiss
      obtain ⟨⟨y2, messages', events2⟩, hrest, hmiss⟩ := bind_eq_ok.mp hmiss
      cases hmiss
      obtain ⟨hy1, hid1⟩ := hy.processAuthMessage hproc
      have hrest := ih (h.processAuthMessage hy hid hproc) hy1 (hid1.trans hid) hrest
      rwa [append_assoc] at hrest

end Complete

/-! ## Creating a space -/

omit [Placeholders ID OP] in
theorem pointers_publishPointers {n : Nat} {y y' : SpacesState ID OP C}
    {spaceDependencies ids : List OP} (hgroups : GroupCrdt.Consistent groupsY)
    (h : Space.publishPointers env manager groupsY n y spaceDependencies ids = .ok (y', messages)) :
    messages.filterMap SpacesMessage.pointer? = ids.map fun x => (y.spaceId, x) := by
  induction ids generalizing n y spaceDependencies messages with
  | nil =>
    cases h
    rfl
  | cons x ids ih =>
    obtain ⟨operation, hlook, h⟩ := bind_eq_ok.mp h
    obtain ⟨message, hforge, h⟩ := bind_eq_ok.mp h
    obtain ⟨⟨y1, messages'⟩, hrest, h⟩ := bind_eq_ok.mp h
    cases h
    obtain ⟨id, -, hforge⟩ := bind_eq_ok.mp (mapErr_eq_ok.mp hforge)
    cases hforge
    have hlook := expect_eq_ok.mp hlook
    have hnode : x ∈ groupsY.graph.nodes := hgroups.complete x (by rw [hlook]; rfl)
    have hx : operation.id = x := hgroups.history.id ⟨hnode, hlook⟩
    rw [filterMap_cons, ih hrest, ← hx]
    rfl

omit [Placeholders ID OP] in
theorem pointer_processLocalControl {groupsY groupsY' : AuthGroupState ID OP C} {groupId : ID}
    {action : GroupAction ID C} {event : Event ID OP C}
    (h : Group.processLocalControl env manager groupsY groupId action =
      .ok (groupsY', message, event)) : message.pointer? = none := by
  obtain ⟨⟨dependencies, hargs⟩, -⟩ := processLocalControl_eq_ok h
  rw [pointer?, hargs]

omit [Placeholders ID OP] in
theorem complete_fromGroup (hsound : manager.Sound) {groupId : ID} {includes : List ID}
    (h : Space.fromGroup platform env manager id groupId includes = .ok (y, messages)) :
    ∃ sorted, manager.getGroupsState.toposort (env.auth 0) includes =
        (.ok sorted : Outcome (SpaceError ID OP φ) _) ∧
      Complete id manager.getGroupsState sorted y.groupsY messages := by
  obtain ⟨sorted, hsort, h⟩ := bind_eq_ok.mp h
  obtain ⟨⟨y1, messages'⟩, hptrs, h⟩ := bind_eq_ok.mp h
  cases h
  refine ⟨sorted, hsort, fun x hx => hx, fun x => ?_⟩
  obtain ⟨dependencies, hrun, -⟩ := hsound.consistent.groupDependencies (env.auth 0) includes
  have hid := (hsound.getOrInitState platform id groupId).2
  rw [Referenced, pointers_publishPointers hsound.consistent hptrs, hid, List.mem_map]
  constructor
  · rintro ⟨x', hx', heq⟩
    cases heq
    obtain ⟨o, ho, -⟩ := (hsound.consistent.mem_toposort hsort hrun).mp hx'
    exact ⟨isSome_of_mem ho.2, fun _ => hx'⟩
  · rintro ⟨hx, hslice⟩
    exact ⟨x, hslice hx, rfl⟩

/-- The groups whose history is published when a space is created: those among the initial
members. -/
def Space.includes (E : Runtime ID OP) (manager : Manager ID OP C)
    (members : List (ID × Access C)) : List ID :=
  (typedMembers E manager.getGroupsState (Space.initialMembers manager members)).filterMap
    fun (member, _) => member.groupId?

/-- A created space references what is new, and a slice of the auth state it was made from. -/
theorem complete_create (hsound : manager.Sound) {env : Nat → Surroundings ID OP C φ}
    (h : Space.create platform manager env id members = .ok (groupsY, y, messages, events)) :
    y.spaceId = id ∧ ∃ sorted, manager.getGroupsState.toposort ((env 0).auth 0)
        (Space.includes ((env 0).auth 1) manager members) =
        (.ok sorted : Outcome (SpaceError ID OP φ) _) ∧
      Complete id manager.getGroupsState sorted y.groupsY messages := by
  obtain ⟨⟨bytes, rng⟩, -, h⟩ := bind_eq_ok.mp h
  obtain ⟨⟨spaceY, history⟩, hfrom, h⟩ := bind_eq_ok.mp h
  obtain ⟨⟨groupsY1, createGroup, authEvent⟩, hgrp, h⟩ := bind_eq_ok.mp h
  obtain ⟨authMessage, -, h⟩ := bind_eq_ok.mp h
  obtain ⟨⟨spaceY1, createSpace, spaceEvents⟩, hproc, h⟩ := bind_eq_ok.mp h
  cases h
  obtain ⟨hfromSound, hid⟩ := hsound.fromGroup hfrom
  obtain ⟨sorted, hsort, hcomp⟩ := complete_fromGroup hsound hfrom
  refine ⟨(hfromSound.processAuthMessage hproc).2.trans hid, sorted, hsort, ?_⟩
  refine (hcomp.processAuthMessage hfromSound hid hproc).congr fun x => ?_
  have hnone := pointer_processLocalControl (mapErr_eq_ok.mp hgrp)
  rw [cons_append, referenced_cons, hnone]
  simp

/-! ## The history of a space -/

/-- A space is created and then changed by the local actor, who publishes messages into it. Nothing
else changes it. -/
inductive Space.History (φ : Type) (platform : Platform ID) (id : OP) (start : Manager ID OP C)
    (env : Nat → Surroundings ID OP C φ) (members : List (ID × Access C)) :
    Manager ID OP C → List (SpacesMessage ID OP C) → Prop where
  | create {groupsY : AuthGroupState ID OP C} {y : SpacesState ID OP C}
      {messages : List (SpacesMessage ID OP C)} {events : List (Event ID OP C)} :
      Space.create platform start env id members = .ok (groupsY, y, messages, events) →
        History φ platform id start env members
          (start.persist ⟨none, some groupsY, some y, []⟩) messages
  | change {manager : Manager ID OP C} {sent : List (SpacesMessage ID OP C)}
      {env' : Nat → Surroundings ID OP C φ} {member : ID}
      {action : GroupMember ID → GroupAction ID C} {groupsY : AuthGroupState ID OP C}
      {y : SpacesState ID OP C} {authMessage spaceMessage : SpacesMessage ID OP C}
      {events : List (Event ID OP C)} : History φ platform id start env members manager sent →
      Space.change platform manager env' id member action =
          .ok (groupsY, y, authMessage, spaceMessage, events) →
        History φ platform id start env members
          (manager.persist ⟨none, some groupsY, some y, []⟩) (sent ++ [authMessage, spaceMessage])
  | repair {manager : Manager ID OP C} {sent : List (SpacesMessage ID OP C)} {E : Runtime ID OP}
      {env' : Nat → Surroundings ID OP C φ} {groups : List ID} {y : SpacesState ID OP C}
      {messages : List (SpacesMessage ID OP C)} {events : List (Event ID OP C)} :
      History φ platform id start env members manager sent →
      Space.repair platform manager E env' id groups = .ok (y, messages, events) →
        History φ platform id start env members (manager.persist ⟨none, none, some y, []⟩)
          (sent ++ messages)
  | other {manager manager' : Manager ID OP C} {sent : List (SpacesMessage ID OP C)} :
      History φ platform id start env members manager sent → manager'.Sound →
      manager'.getSpaceState id = manager.getSpaceState id →
        History φ platform id start env members manager' sent

omit [Placeholders ID OP] in
theorem Manager.Sound.loaded (h : manager.Sound) {stored : SpacesStoreState ID OP C}
    (hspc : manager.getSpaceState id = some stored)
    (hst : Space.state platform manager id = (.ok y : Outcome (SpaceError ID OP φ) _)) :
    y.Sound ∧ y.spaceId = id ∧ y.groupsY = stored.groupsY := by
  obtain ⟨hy, hid⟩ := h.state hst
  rw [Space.state, hspc] at hst
  cases hst
  exact ⟨hy, hid, rfl⟩

omit [LinearOrder ID] [Placeholders ID OP] [Conditions C] in
theorem getSpaceState_persist_self {output : Manager.Output ID OP C}
    (houtp : output.space = some y) (hid : y.spaceId = id) :
    (manager.persist output).getSpaceState id = some y.toStore := by
  rw [getSpaceState_persist, houtp, elim_some, if_pos hid.symm]

/-- A space references what is new, and a slice of the auth state it was made from. -/
theorem Space.History.complete {start : Manager ID OP C} {env : Nat → Surroundings ID OP C φ}
    {sent : List (SpacesMessage ID OP C)} (hstart : start.Sound)
    (h : Space.History φ platform id start env members manager sent) :
    manager.Sound ∧ ∃ y sorted, manager.getSpaceState id = some y ∧
      start.getGroupsState.toposort ((env 0).auth 0)
        (Space.includes ((env 0).auth 1) start members) =
        (.ok sorted : Outcome (SpaceError ID OP φ) _) ∧
      Complete id start.getGroupsState sorted y.groupsY sent := by
  induction h with
  | create hcrt =>
    obtain ⟨hid, sorted, hsort, hcomp⟩ := complete_create hstart hcrt
    exact ⟨hstart.step (.createSpace hcrt), _, sorted, getSpaceState_persist_self rfl hid,
      hsort, hcomp⟩
  | change _ hchg ih =>
    obtain ⟨hsound, stored, sorted, hspc, hsort, hcomp⟩ := ih
    refine ⟨hsound.step (.changeSpace hchg), ?_⟩
    obtain ⟨spaceY, hst, hchg⟩ := bind_eq_ok.mp hchg
    obtain ⟨⟨groupsY1, message, authEvent⟩, hgrp, hchg⟩ := bind_eq_ok.mp hchg
    obtain ⟨operation, -, hchg⟩ := bind_eq_ok.mp hchg
    obtain ⟨⟨spaceY1, pointer, spaceEvents⟩, hproc, hchg⟩ := bind_eq_ok.mp hchg
    cases hchg
    obtain ⟨hy, hid, hgroups⟩ := hsound.loaded hspc hst
    rw [← hgroups] at hcomp
    refine ⟨_, sorted, getSpaceState_persist_self rfl
      ((hy.processAuthMessage hproc).2.trans hid), hsort, ?_⟩
    refine (hcomp.processAuthMessage hy hid hproc).congr fun x => ?_
    have hnone := pointer_processLocalControl (mapErr_eq_ok.mp hgrp)
    simp [referenced_cons, hnone]
  | repair _ hrep ih =>
    obtain ⟨hsound, stored, sorted, hspc, hsort, hcomp⟩ := ih
    have hrepaired := hsound.repair hrep
    refine ⟨hsound.persist (by simp) (by simpa using hrepaired), ?_⟩
    obtain ⟨spaceY, hst, hrep⟩ := bind_eq_ok.mp hrep
    obtain ⟨ids, -, hrep⟩ := bind_eq_ok.mp hrep
    obtain ⟨hy, hid, hgroups⟩ := hsound.loaded hspc hst
    rw [← hgroups] at hcomp
    obtain ⟨hcomp, hid'⟩ := hcomp.applyMissing hy hid hrep
    exact ⟨_, sorted, getSpaceState_persist_self rfl hid', hsort, hcomp⟩
  | other _ hsound hspc ih =>
    obtain ⟨-, stored, sorted, hstor, hsort, hcomp⟩ := ih
    exact ⟨hsound, stored, sorted, hspc.trans hstor, hsort, hcomp⟩

/-! ## Other members -/

/-- Pointers of a space are processed by a manager which did not know it. -/
inductive Space.Receives (φ : Type) (platform : Platform ID) (id : OP) :
    Manager ID OP C → List (SpacesMessage ID OP C) → Prop where
  | start {manager : Manager ID OP C} (hsound : manager.Sound)
      (hnone : manager.getSpaceState id = none) : Receives φ platform id manager []
  | process {manager : Manager ID OP C} {received : List (SpacesMessage ID OP C)}
      {env : Surroundings ID OP C φ} {message : SpacesMessage ID OP C} {x : OP}
      {output : Manager.Output ID OP C} : Receives φ platform id manager received →
      message.pointer? = some (id, x) →
      Manager.process platform env manager message = .ok output →
      output.space.isSome = true →
        Receives φ platform id (manager.persist output) (message :: received)
  | other {manager manager' : Manager ID OP C} {received : List (SpacesMessage ID OP C)} :
      Receives φ platform id manager received → manager'.Sound →
      manager'.getSpaceState id = manager.getSpaceState id →
        Receives φ platform id manager' received

def Manager.spaceGroups (manager : Manager ID OP C) (id : OP) : AuthGroupState ID OP C :=
  ((manager.getSpaceState id).map SpacesStoreState.groupsY).getD .default

omit [Placeholders ID OP] in
theorem Manager.Sound.spaceGroups (h : manager.Sound) (id : OP) :
    GroupCrdt.Consistent (manager.spaceGroups id) := by
  unfold Manager.spaceGroups
  cases hspc : manager.getSpaceState id with
  | none => exact GroupCrdt.consistent_init
  | some y => exact (h.spaces id y hspc).1

omit [LinearOrder ID] [Conditions C] [Placeholders ID OP] in
theorem groupsY_getOrInitState (groupId : ID) :
    (Space.getOrInitState platform manager id groupId).groupsY = manager.spaceGroups id := by
  unfold getOrInitState spaceGroups
  cases manager.getSpaceState id <;> rfl

omit [Placeholders ID OP] in
theorem knows_processPointer (hy : y.Sound)
    (h : Space.processPointer env y authMessage = .ok groupsY) (x : OP) :
    Knows groupsY x ↔ x = authMessage.id ∨ Knows y.groupsY x := by
  unfold processPointer at h
  split at h
  · rename_i hknown
    cases h
    exact ⟨Or.inr, fun hx => hx.elim (fun heq => heq ▸ hknown) fun hx => hx⟩
  · exact (knows_process hy.consistent (mapErr_eq_ok.mp h)).2 x

theorem Space.Receives.knows {received : List (SpacesMessage ID OP C)}
    (h : Space.Receives φ platform id manager received) :
    manager.Sound ∧ ∀ x, Knows (manager.spaceGroups id) x ↔ Referenced id received x := by
  induction h with
  | start hsound hnone =>
    refine ⟨hsound, fun x => ?_⟩
    rw [spaceGroups, hnone]
    simp [Knows, GroupCrdtInnerState.default]
  | process _ hptr hproc hsome ih =>
    obtain ⟨hsound, hknows⟩ := ih
    refine ⟨hsound.process hproc, fun x => ?_⟩
    rw [referenced_cons, hptr, ← hknows]
    cases processed_of_process hproc with
    | membership hargs hhdl =>
      obtain ⟨authMessage, hauth, ⟨hhdld⟩⟩ := handled_of_handleSpaceMembershipMessage hhdl
      rw [pointer?, hargs] at hptr
      cases hptr
      obtain ⟨hy, hid⟩ := hsound.getOrInitState platform id _
      rw [spaceGroups, getSpaceState_persist_self rfl ((hhdld.sound hy).2.trans hid)]
      show Knows (_ : SpacesState ID OP C).groupsY x ↔ _
      rw [hhdld.groupsY_eq, knows_processPointer hy hhdld.processed,
        groupsY_getOrInitState, id_getAuthMessage hauth]
      simp [eq_comm]
    | application hargs =>
      rw [pointer?, hargs] at hptr
      cases hptr
    | _ => cases hsome
  | other _ hsound hspc ih =>
    refine ⟨hsound, fun x => ?_⟩
    rw [spaceGroups, hspc]
    exact ih.2 x

/-- The same operations and graph. Where access has no conditions, the groups have the same
members. -/
structure SameAuth (y z : AuthGroupState ID OP C) : Prop where
  operations : z.operations = y.operations
  graph : z.graph = y.graph
  currentState : y.Unconditional → ∀ E E' : Runtime ID OP, ∃ states,
    y.currentState E = (.ok states : Outcome Empty _) ∧
      z.currentState E' = (.ok states : Outcome Empty _)

omit [Placeholders ID OP] in
theorem sameAuth_of_knows {y z : AuthGroupState ID OP C} (hy : GroupCrdt.Consistent y)
    (hz : GroupCrdt.Consistent z) (hknows : ∀ x, Knows z x ↔ Knows y x)
    (hagree : ∀ x o o', y.operations.lookup x = some o → z.operations.lookup x = some o' → o = o') :
    SameAuth y z := by
  have hops : z.operations = y.operations := by
    apply Finmap.ext_lookup
    intro x
    cases hlook : y.operations.lookup x with
    | none =>
      have hnot : ¬Knows z x := by
        rw [hknows, Knows, hlook]
        exact Bool.false_ne_true
      exact not_isSome_iff_eq_none.mp hnot
    | some o =>
      have hknown : Knows z x := (hknows x).mpr (isSome_of_mem hlook)
      obtain ⟨o', hlookup'⟩ := isSome_iff_exists.mp hknown
      rw [hlookup', hagree x o o' hlook hlookup']
  have hhas {x : OP} {o : Operation ID OP C} : y.Has x o ↔ z.Has x o := by
    unfold Has
    rw [hops, and_congr_left]
    intro hlook
    rw [← hy.isSome_iff, ← hz.isSome_iff, hops]
  refine ⟨hops, (graph_eq hy.history hz.history hhas).symm, ?_⟩
  intro huncond E E'
  obtain ⟨states, hsts, hjoin⟩ := hy.currentState E
  obtain ⟨states', hstates', hjoin'⟩ := hz.currentState E'
  have heq := currentState_eq hy.toResolved hz.toResolved huncond hhas hjoin hjoin'
  exact ⟨states, hsts, heq ▸ hstates'⟩

/-! ## Complete histories -/

/-- All operations of the auth state a space is made from are of its initial groups, or of groups
nested in them. -/
def Space.Covers (env : Surroundings ID OP C φ) (manager : Manager ID OP C)
    (members : List (ID × Access C)) : Prop :=
  ∃ dependencies, manager.getGroupsState.groupDependencies (env.auth 0)
      (Space.includes (env.auth 1) manager members) =
      (.ok dependencies : Outcome (SpaceError ID OP φ) _) ∧
    ∀ x o, manager.getGroupsState.operations.lookup x = some o → o.groupId ∈ dependencies

omit [Placeholders ID OP] in
theorem covers_iff {sorted : List OP} (hy : GroupCrdt.Consistent manager.getGroupsState)
    (hsort : manager.getGroupsState.toposort (env.auth 0)
      (Space.includes (env.auth 1) manager members) =
      (.ok sorted : Outcome (SpaceError ID OP φ) _)) :
    Space.Covers env manager members ↔ ∀ x, Knows manager.getGroupsState x → x ∈ sorted := by
  obtain ⟨dependencies, hrun, -⟩ := hy.groupDependencies (env.auth 0)
    (includes (env.auth 1) manager members)
  constructor
  · rintro ⟨dependencies', hrun', hall⟩ x hx
    cases hrun.symm.trans hrun'
    obtain ⟨o, ho⟩ := isSome_iff_exists.mp hx
    exact (hy.mem_toposort hsort hrun).mpr ⟨o, ⟨hy.complete x hx, ho⟩, hall x o ho⟩
  · intro hall
    refine ⟨dependencies, hrun, fun x o ho => ?_⟩
    obtain ⟨o', ho', hgrp⟩ := (hy.mem_toposort hsort hrun).mp (hall x (isSome_of_mem ho))
    cases ho.symm.trans ho'.2
    exact hgrp

/-- The history of a space is published completely just in case the auth state it was made from has
nothing but the history of its initial members: then every operation it knows is referenced, and
whoever processes the messages has the same auth state. -/
theorem Space.published_iff_covers {start : Manager ID OP C} {env : Nat → Surroundings ID OP C φ}
    {members : List (ID × Access C)} {sent : List (SpacesMessage ID OP C)}
    {y : SpacesStoreState ID OP C} (hstart : start.Sound)
    (h : Space.History φ platform id start env members manager sent)
    (hspace : manager.getSpaceState id = some y) :
    ((∀ x, (y.groupsY.operations.lookup x).isSome = true → Referenced id sent x) ∧
      ∀ receiver received, Space.Receives φ platform id receiver received →
        (∀ message, message ∈ received ↔
          message ∈ sent ∧ message.pointer?.isSome = true) →
        (∀ x o o', y.groupsY.operations.lookup x = some o →
          (receiver.spaceGroups id).operations.lookup x = some o' → o = o') →
        SameAuth y.groupsY (receiver.spaceGroups id)) ↔
      Space.Covers (env 0) start members := by
  obtain ⟨hsound, y', sorted, hspace', hsort, hcomp⟩ := h.complete hstart
  cases hspace.symm.trans hspace'
  rw [covers_iff hstart.consistent hsort]
  constructor
  · rintro ⟨hall, -⟩ x hx
    exact ((hcomp.referenced x).mp (hall x (hcomp.seeded x hx))).2 hx
  · intro hcovers
    have hreferenced (x : OP) : Referenced id sent x ↔ Knows y.groupsY x := by
      rw [hcomp.referenced, and_iff_left (hcovers x)]
    refine ⟨fun x => (hreferenced x).mpr, fun receiver received hreceives hsame hagree => ?_⟩
    obtain ⟨hreceiver, hknows⟩ := hreceives.knows
    refine sameAuth_of_knows (hsound.spaces id y hspace).1 (hreceiver.spaceGroups id)
      (fun x => ?_) hagree
    rw [hknows, referenced_of_pointers hsame, hreferenced]

section Sample

def sampleGrouped : Manager Nat Nat Unit :=
  let manager : Manager Nat Nat Unit := { sampleNewManager with
    store := { sampleNewManager.store with keyRegistry := some sampleKeyRegistry } }
  match Manager.process samplePlatform sampleEnv manager
    ⟨1, 0, .group 51 (.create [(.individual 0, .manage)]) []⟩ with
  | .ok output => manager.persist output
  | _ => manager

theorem sound_sampleGrouped : sampleGrouped.Sound := by
  unfold sampleGrouped
  dsimp only
  have hnew : Reachable Empty samplePlatform { sampleNewManager with
      store := { sampleNewManager.store with keyRegistry := some sampleKeyRegistry } } :=
    .start rfl rfl
  split
  · rename_i hproc
    exact hnew.sound.process hproc
  · exact hnew.sound

theorem history_sampleGrouped (members : List (Nat × Access Unit)) (pointers : List (Nat × Nat))
    (hret : (Space.create samplePlatform sampleGrouped sampleCalls 60 members).Returns
      fun result => result.2.2.1.filterMap SpacesMessage.pointer? = pointers ∧
        (result.2.1.groupsY.operations.lookup 1).isSome = true) :
    ∃ manager sent y,
      Space.History Empty samplePlatform 60 sampleGrouped sampleCalls members manager sent ∧
      manager.getSpaceState 60 = some y ∧
      sent.filterMap SpacesMessage.pointer? = pointers ∧
      (y.groupsY.operations.lookup 1).isSome = true := by
  obtain ⟨⟨groupsY, y, messages, events⟩, hcrt, hptrs, hknown⟩ := hret
  have hid := (complete_create sound_sampleGrouped hcrt).1
  exact ⟨_, messages, y.toStore, .create hcrt, getSpaceState_persist_self rfl hid, hptrs, hknown⟩

/-- A space which includes the group is published completely. -/
theorem published_sampleGrouped : ∃ manager sent y,
    Space.History Empty samplePlatform 60 sampleGrouped sampleCalls [(51, .read)] manager sent ∧
    manager.getSpaceState 60 = some y ∧
    ∀ x, (y.groupsY.operations.lookup x).isSome = true → Referenced 60 sent x := by
  obtain ⟨manager, sent, y, hhist, hspc, -⟩ := history_sampleGrouped
    [(51, .read)] [(60, 1), (60, 200)] (by decide +kernel)
  have hcovers : Covers (sampleCalls 0) sampleGrouped [(51, .read)] := by
    have hret : (sampleGrouped.getGroupsState.groupDependencies (sampleEnv.auth 0)
        (includes (sampleEnv.auth 1) sampleGrouped [(51, .read)]) :
        Outcome (SpaceError Nat Nat Empty) _).Returns fun dependencies =>
          ∀ x ∈ sampleGrouped.getGroupsState.operations.keys,
            ∀ o ∈ sampleGrouped.getGroupsState.operations.lookup x, o.groupId ∈ dependencies := by
      decide +kernel
    obtain ⟨dependencies, hrun, hall⟩ := hret
    refine ⟨dependencies, hrun, fun x o ho => hall x ?_ o ho⟩
    exact Finmap.mem_keys.mpr (Finmap.mem_of_lookup_eq_some ho)
  exact ⟨manager, sent, y, hhist, hspc,
    ((published_iff_covers sound_sampleGrouped hhist hspc).mpr hcovers).1⟩

/-- A space which does not include the group knows of its creation, and does not reference it. -/
theorem not_referenced_sampleGrouped : sampleGrouped.Sound ∧ ∃ manager sent y,
    Space.History Empty samplePlatform 60 sampleGrouped sampleCalls [] manager sent ∧
    manager.getSpaceState 60 = some y ∧
    (y.groupsY.operations.lookup 1).isSome = true ∧ ¬Referenced 60 sent 1 := by
  obtain ⟨manager, sent, y, hhist, hspc, hptrs, hknown⟩ := history_sampleGrouped
    [] [(60, 200)] (by decide +kernel)
  refine ⟨sound_sampleGrouped, manager, sent, y, hhist, hspc, hknown, ?_⟩
  rw [Referenced, hptrs]
  decide

end Sample

end P2Panda.Spaces
