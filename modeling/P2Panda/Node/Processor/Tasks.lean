import P2Panda.Library.HashMap

/-!
# Task tracker

A task which is marked as done leaves the tracker, and everyone who observes it gets its result.
-/

namespace P2Panda.Node

open P2Panda.Library HashMap List

structure Task (T ID : Type) where
  id : ID
  readyResult : Option T

/-- A task is shared between everyone who tracks it: here it is the place among all tasks ever
registered. -/
structure TaskTracker (T ID : Type) where
  inner : HashMap ID Nat
  tasks : List (Task T ID)

namespace TaskTracker

variable {T ID : Type} [DecidableEq ID]

def new : TaskTracker T ID := ⟨∅, []⟩

def track (self : TaskTracker T ID) (id : ID) : TaskTracker T ID :=
  match self.inner.lookup id with
  | some _ => self
  | none => ⟨self.inner.insert id self.tasks.length, self.tasks ++ [⟨id, none⟩]⟩

def markAsDone (self : TaskTracker T ID) (id : ID) (result : T) : TaskTracker T ID :=
  match self.inner.lookup id with
  | none => self
  | some i =>
    ⟨self.inner.erase id, self.tasks.modify i fun task => { task with readyResult := some result }⟩

/-- The tasks in the map have no result, and the results of all others are as `ok` says. -/
structure Sound (ok : ID → T → Prop) (tracker : TaskTracker T ID) : Prop where
  tracked : ∀ {id i}, tracker.inner.lookup id = some i → tracker.tasks[i]? = some ⟨id, none⟩
  open_ : ∀ {i id}, tracker.tasks[i]? = some ⟨id, none⟩ → tracker.inner.lookup id = some i
  done : ∀ {task}, task ∈ tracker.tasks → ∀ result, task.readyResult = some result →
    ok task.id result

variable {ok : ID → T → Prop} {tracker : TaskTracker T ID}

theorem sound_new : Sound ok (new : TaskTracker T ID) where
  tracked h := by simp [new] at h
  open_ h := by simp [new] at h
  done h := by simp [new] at h

theorem Sound.mono {ok' : ID → T → Prop} (h : Sound ok tracker)
    (himp : ∀ id result, ok id result → ok' id result) : Sound ok' tracker where
  tracked := h.tracked
  open_ := h.open_
  done hmem result hres := himp _ _ (h.done hmem result hres)

theorem Sound.track (h : Sound ok tracker) (id : ID) : Sound ok (tracker.track id) := by
  unfold TaskTracker.track
  cases hlook : tracker.inner.lookup id with
  | some i => exact h
  | none =>
  refine ⟨fun {id' i} htrk => ?_, fun {i id'} hpend => ?_, fun {task} hmem => ?_⟩
  · rw [lookup_insert_ite] at htrk
    split_ifs at htrk with heq
    · cases htrk
      subst heq
      simp
    · have hold := h.tracked htrk
      rw [List.getElem?_append_left (List.getElem?_eq_some_iff.mp hold).1]
      exact hold
  · rw [lookup_insert_ite]
    by_cases hlt : i < tracker.tasks.length
    · rw [getElem?_append_left hlt] at hpend
      have hold := h.open_ hpend
      rw [if_neg, hold]
      rintro rfl
      rw [hlook] at hold
      cases hold
    · rw [getElem?_append_right (not_lt.mp hlt), getElem?_singleton] at hpend
      split_ifs at hpend
      cases hpend
      rw [if_pos rfl, show i = tracker.tasks.length by omega]
  · rcases mem_append.mp hmem with hmem | hmem
    · exact h.done hmem
    · rw [mem_singleton.mp hmem]
      intro result hres
      cases hres

theorem Sound.markAsDone (h : Sound ok tracker) (id : ID) {result : T} (hok : ok id result) :
    Sound ok (tracker.markAsDone id result) := by
  unfold TaskTracker.markAsDone
  cases hlook : tracker.inner.lookup id with
  | none => exact h
  | some i =>
  have hi := h.tracked hlook
  refine ⟨fun {id' j} htrk => ?_, fun {j id'} hpend => ?_, fun {task} hmem => ?_⟩
  · rw [lookup_erase_ite] at htrk
    split_ifs at htrk with heq
    have hj := h.tracked htrk
    rw [getElem?_modify_ne, hj]
    rintro rfl
    rw [hi] at hj
    cases hj
    exact heq rfl
  · by_cases hij : i = j
    · subst hij
      rw [getElem?_modify_eq, hi] at hpend
      cases hpend
    · rw [getElem?_modify_ne _ _ hij] at hpend
      have hj := h.open_ hpend
      rw [lookup_erase_ite, if_neg, hj]
      rintro rfl
      rw [hlook] at hj
      cases hj
      exact hij rfl
  · obtain ⟨j, hj⟩ := mem_iff_getElem?.mp hmem
    by_cases hij : i = j
    · subst hij
      rw [getElem?_modify_eq, hi] at hj
      cases hj
      intro result' hresult'
      cases hresult'
      exact hok
    · rw [getElem?_modify_ne _ _ hij] at hj
      exact h.done (mem_of_getElem? hj)

theorem lookup_track {id id' : ID} :
    ((tracker.track id).inner.lookup id').isSome ↔
      id' = id ∨ (tracker.inner.lookup id').isSome := by
  unfold TaskTracker.track
  cases hlook : tracker.inner.lookup id with
  | some i =>
    refine (or_iff_right_of_imp ?_).symm
    rintro rfl
    rw [hlook]
    rfl
  | none =>
    rw [lookup_insert_ite]
    split_ifs with heq
    · simp [heq]
    · simp [heq]

theorem lookup_markAsDone {id id' : ID} {result : T} :
    ((tracker.markAsDone id result).inner.lookup id').isSome ↔
      id' ≠ id ∧ (tracker.inner.lookup id').isSome := by
  unfold TaskTracker.markAsDone
  cases hlook : tracker.inner.lookup id with
  | none =>
    refine (and_iff_right_of_imp ?_).symm
    rintro hsome rfl
    rw [hlook] at hsome
    cases hsome
  | some i =>
    rw [lookup_erase_ite]
    split_ifs with heq
    · simp [heq]
    · simp [heq]

theorem Sound.exists_track (h : Sound ok tracker) (id : ID) :
    ∃ task ∈ (tracker.track id).tasks, task.id = id := by
  unfold TaskTracker.track
  cases hlook : tracker.inner.lookup id with
  | some i => exact ⟨_, mem_of_getElem? (h.tracked hlook), rfl⟩
  | none => exact ⟨⟨id, none⟩, by simp, rfl⟩

theorem exists_of_track {task : Task T ID} (htask : task ∈ tracker.tasks) (id : ID) :
    ∃ task' ∈ (tracker.track id).tasks, task'.id = task.id := by
  unfold TaskTracker.track
  cases tracker.inner.lookup id with
  | some i => exact ⟨task, htask, rfl⟩
  | none => exact ⟨task, mem_append_left _ htask, rfl⟩

theorem exists_of_markAsDone {task : Task T ID} (htask : task ∈ tracker.tasks) (id : ID)
    (result : T) : ∃ task' ∈ (tracker.markAsDone id result).tasks, task'.id = task.id := by
  unfold TaskTracker.markAsDone
  cases tracker.inner.lookup id with
  | none => exact ⟨task, htask, rfl⟩
  | some i =>
    obtain ⟨j, hj⟩ := mem_iff_getElem?.mp htask
    by_cases hij : i = j
    · subst hij
      refine ⟨{ task with readyResult := some result }, ?_, rfl⟩
      apply mem_of_getElem?
      rw [getElem?_modify_eq, hj]
      rfl
    · refine ⟨task, ?_, rfl⟩
      apply mem_of_getElem?
      rw [getElem?_modify_ne _ _ hij, hj]

end TaskTracker

end P2Panda.Node
