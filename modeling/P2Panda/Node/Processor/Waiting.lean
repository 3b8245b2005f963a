import P2Panda.Node.Processor.Tasks

/-!
# Waiting for tasks

Whoever waits for a task looks first if there is a result, and then asks to be notified. The task
can be done between the two steps.
-/

namespace P2Panda.Node

open List

variable {T ID : Type}

/-- Where a call of `ready` is. -/
inductive Readiness (T : Type) where
  | called
  /-- There was no result. -/
  | checked
  /-- The future of `notified` was created. -/
  | waiting
  | woken
  | returned (result : T)
  | panicked

/-- A call of `ready` on the task at a place. -/
structure Waiter (T : Type) where
  task : Nat
  readiness : Readiness T

/-- The tracker with all calls of `ready`. `mark_as_done` stores the result and then notifies: in
between, `signal` is the task, and the tracker is locked. -/
structure TaskSystem (T ID : Type) where
  tracker : TaskTracker T ID
  signal : Option Nat
  waiters : List (Waiter T)

inductive TaskAct (T ID : Type) where
  | track (id : ID)
  | ready (task : Nat)
  | advance (waiter : Nat)
  | markAsDone (id : ID) (result : T)
  | notifyWaiters

namespace Waiter

/-- The next step of `ready`, with the result of the task. -/
def advance (self : Waiter T) (result : Option T) : Waiter T :=
  { self with readiness := match self.readiness, result with
    | .called, some result => .returned result
    | .called, none => .checked
    | .checked, _ => .waiting
    | .woken, some result => .returned result
    -- result exists after ready signal was fired
    | .woken, none => .panicked
    | readiness, _ => readiness }

def notify (self : Waiter T) (task : Nat) : Waiter T :=
  match self.readiness with
  | .waiting => if self.task = task then { self with readiness := .woken } else self
  | _ => self

theorem advance_eq_waiting {self : Waiter T} {result : Option T} {task : Nat} :
    self.advance result = ⟨task, .waiting⟩ ↔ self = ⟨task, .waiting⟩ ∨ self = ⟨task, .checked⟩ := by
  obtain ⟨i, readiness⟩ := self
  cases readiness <;> cases result <;> simp [advance]

theorem notify_eq_waiting {self : Waiter T} {task task' : Nat} :
    self.notify task' = ⟨task, .waiting⟩ ↔ self = ⟨task, .waiting⟩ ∧ task ≠ task' := by
  obtain ⟨i, readiness⟩ := self
  cases readiness <;> simp [notify]
  grind

end Waiter

namespace TaskSystem

def new : TaskSystem T ID := ⟨⟨∅, []⟩, none, []⟩

def result (self : TaskSystem T ID) (task : Nat) : Option T :=
  self.tracker.tasks[task]?.bind Task.readyResult

variable [DecidableEq ID]

/-- A step that can not be taken changes nothing. -/
def step (self : TaskSystem T ID) : TaskAct T ID → TaskSystem T ID
  | .track id =>
    if self.signal.isNone then { self with tracker := self.tracker.track id } else self
  | .ready task =>
    if task < self.tracker.tasks.length then
      { self with waiters := self.waiters ++ [⟨task, .called⟩] }
    else self
  | .advance waiter =>
    { self with waiters := self.waiters.modify waiter fun w => w.advance (self.result w.task) }
  | .markAsDone id result =>
    if self.signal.isNone then
      { self with
        tracker := self.tracker.markAsDone id result
        signal := self.tracker.inner.lookup id }
    else self
  | .notifyWaiters =>
    match self.signal with
    | some task =>
      { self with signal := none, waiters := self.waiters.map fun w => w.notify task }
    | none => self

def run (acts : List (TaskAct T ID)) : TaskSystem T ID := acts.foldl step new

/-- `mark_as_done` has returned. -/
def Done (self : TaskSystem T ID) (task : Nat) : Prop :=
  (self.result task).isSome ∧ self.signal ≠ some task

def WaitsForever (self : TaskSystem T ID) (waiter : Nat) : Prop :=
  ∀ acts : List (TaskAct T ID), ∃ task,
    (acts.foldl step self).waiters[waiter]? = some ⟨task, .waiting⟩

/-- Somebody who found no result asks to be notified after the others were. -/
def Late (acts : List (TaskAct T ID)) : Prop :=
  ∃ before waiter task, before ++ [.advance waiter] <+: acts ∧
    (run before).waiters[waiter]? = some ⟨task, .checked⟩ ∧ (run before).Done task

abbrev Sound (self : TaskSystem T ID) : Prop := self.tracker.Sound fun _ _ => True

variable {self : TaskSystem T ID}

theorem Sound.step (h : self.Sound) (a : TaskAct T ID) : (self.step a).Sound := by
  cases a with
  | track id =>
    rw [TaskSystem.step]
    split_ifs
    · exact h.track id
    · exact h
  | ready task =>
    rw [TaskSystem.step]
    split_ifs <;> exact h
  | advance waiter => exact h
  | markAsDone id result =>
    rw [TaskSystem.step]
    split_ifs
    · exact h.markAsDone id trivial
    · exact h
  | notifyWaiters =>
    rw [TaskSystem.step]
    split <;> exact h

theorem readyResult_track (tracker : TaskTracker T ID) (id : ID) (task : Nat) :
    (tracker.track id).tasks[task]?.bind Task.readyResult =
      tracker.tasks[task]?.bind Task.readyResult := by
  unfold TaskTracker.track
  cases tracker.inner.lookup id with
  | some _ => rfl
  | none =>
    rw [getElem?_append]
    split_ifs with hlt
    · rfl
    · rw [getElem?_eq_none (not_lt.mp hlt), getElem?_singleton]
      split_ifs <;> rfl

theorem readyResult_markAsDone (h : self.Sound) (id : ID) (result : T) (task : Nat) :
    (self.tracker.markAsDone id result).tasks[task]?.bind Task.readyResult =
      if self.tracker.inner.lookup id = some task then some result else self.result task := by
  unfold TaskTracker.markAsDone
  cases hlook : self.tracker.inner.lookup id with
  | none => simp [TaskSystem.result]
  | some i =>
    by_cases hi : i = task
    · subst hi
      simp [h.tracked hlook]
    · simp [hi, getElem?_modify_ne, TaskSystem.result]

theorem done_step (h : self.Sound) (a : TaskAct T ID) (task : Nat) :
    (self.step a).Done task ↔ self.Done task ∨
      a = .notifyWaiters ∧ self.signal = some task ∧ (self.result task).isSome := by
  cases a with
  | track id =>
    rw [step]
    split_ifs <;> simp [Done, result, readyResult_track]
  | ready task' =>
    rw [step]
    split_ifs <;> simp [Done, result]
  | advance waiter => simp [step, Done, result]
  | markAsDone id result =>
    rw [step]
    split_ifs with hfree
    · have hnone : self.tracker.inner.lookup id = some task → self.result task = none :=
        fun hlook => by rw [TaskSystem.result, h.tracked hlook]; rfl
      rw [Option.isNone_iff_eq_none] at hfree
      simp only [Done, TaskSystem.result, readyResult_markAsDone h, hfree] at hnone ⊢
      by_cases hlook : self.tracker.inner.lookup id = some task <;> simp [hlook, hnone]
    · simp
  | notifyWaiters =>
    rw [step]
    cases hsignal : self.signal with
    | none => simp
    | some task' => simp [Done, hsignal, result]; grind

/-- Somebody waits for a task that is done. -/
def Stuck (self : TaskSystem T ID) (waiter task : Nat) : Prop :=
  self.waiters[waiter]? = some ⟨task, .waiting⟩ ∧ self.Done task

theorem stuck_step (h : self.Sound) (a : TaskAct T ID) (waiter task : Nat) :
    (self.step a).Stuck waiter task ↔ self.Stuck waiter task ∨
      a = .advance waiter ∧ self.waiters[waiter]? = some ⟨task, .checked⟩ ∧ self.Done task := by
  unfold Stuck
  rw [done_step h]
  cases a with
  | track id =>
    rw [step]
    split_ifs <;> simp
  | ready task' =>
    rw [step]
    split_ifs
    · rw [getElem?_append]
      split_ifs with hlt
      · simp
      · rw [getElem?_eq_none (not_lt.mp hlt), getElem?_singleton]
        split_ifs <;> simp
    · simp
  | advance waiter' =>
    rw [step, getElem?_modify]
    split_ifs with heq
    · simp [Option.map_eq_some_iff, Waiter.advance_eq_waiting]
      grind
    · simp [heq]
  | markAsDone id result =>
    rw [step]
    split_ifs <;> simp
  | notifyWaiters =>
    rw [step]
    cases hsignal : self.signal with
    | none => simp
    | some i =>
      have hdone : self.Done task → task ≠ i := by
        rintro hdone rfl
        exact hdone.2 hsignal
      simp [Waiter.notify_eq_waiting]
      grind

theorem sound_run (acts : List (TaskAct T ID)) : (run acts).Sound :=
  acts.foldlRecOn step TaskTracker.sound_new fun _ h a _ => h.step a

theorem Stuck.waitsForever {waiter task : Nat} (h : self.Stuck waiter task)
    (hsound : self.Sound) : self.WaitsForever waiter := by
  intro acts
  have hall := acts.foldlRecOn (motive := fun s => s.Sound ∧ s.Stuck waiter task) step ⟨hsound, h⟩
    fun _ h a _ => ⟨h.1.step a, (stuck_step h.1 a waiter task).mpr (Or.inl h.2)⟩
  exact ⟨task, hall.2.1⟩

theorem stuck_run_iff (acts : List (TaskAct T ID)) :
    (∃ waiter task, (run acts).Stuck waiter task) ↔ Late acts := by
  induction acts using List.reverseRecOn with
  | nil => simp [run, new, Stuck, Late]
  | append_singleton acts a ih =>
    have hrun : run (acts ++ [a]) = (run acts).step a := foldl_concat ..
    simp only [hrun, stuck_step (sound_run acts), exists_or, ih, Late, prefix_concat_iff]
    constructor
    · rintro (⟨before, waiter, task, hacts, hlate⟩ | ⟨waiter, task, rfl, hlate⟩)
      · exact ⟨before, waiter, task, Or.inr hacts, hlate⟩
      · exact ⟨acts, waiter, task, Or.inl rfl, hlate⟩
    · rintro ⟨before, waiter, task, hacts | hacts, hlate⟩
      · obtain ⟨rfl, heq⟩ := append_inj' hacts rfl
        cases heq
        exact Or.inr ⟨waiter, task, rfl, hlate⟩
      · exact Or.inl ⟨before, waiter, task, hacts, hlate⟩

/-- Once a task is done nobody waits for it forever, if and only if nobody found no result and asked
to be notified when the others had been. -/
theorem noneLost_iff (acts : List (TaskAct T ID)) :
    (∀ i waiter, (run acts).waiters[i]? = some waiter → (run acts).Done waiter.task →
        ¬(run acts).WaitsForever i) ↔ ¬Late acts := by
  rw [← stuck_run_iff, not_exists]
  constructor
  · rintro h i ⟨task, hstuck⟩
    exact h i _ hstuck.1 hstuck.2 (hstuck.waitsForever (sound_run acts))
  · intro hnone i waiter hwaiter hdone hforever
    obtain ⟨task, hwt⟩ := hforever []
    rw [foldl_nil, hwaiter] at hwt
    cases hwt
    exact hnone i ⟨_, hwaiter, hdone⟩

/-- The task is done between the two steps. -/
theorem lost_between :
    let system : TaskSystem String Nat := run [.track 7, .ready 0, .advance 0,
      .markAsDone 7 "done", .notifyWaiters, .advance 0]
    system.Done 0 ∧ system.WaitsForever 0 := by
  have hdone : (run [.track 7, .ready 0, .advance 0, .markAsDone 7 "done", .notifyWaiters,
      .advance 0]).Done 0 := ⟨rfl, Option.some_ne_none 0 |>.symm⟩
  exact ⟨hdone, Stuck.waitsForever ⟨rfl, hdone⟩ (sound_run _)⟩

end TaskSystem

end P2Panda.Node
