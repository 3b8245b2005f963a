import Mathlib.Data.List.Induction

/-!
# Runs

What holds along a run, for as long as steps are possible, follows from what holds for a step.
-/

namespace P2Panda.Library.Runs

variable {S A : Type} {step : S → A → Option S} {s s' : S} {acts : List A}

theorem invariant {inv : S → Prop} (hstep : ∀ {s act s'}, inv s → step s act = some s' → inv s')
    (h : inv s) (hrun : acts.foldlM step s = some s') : inv s' := by
  induction acts generalizing s with
  | nil =>
    cases hrun
    exact h
  | cons act acts ih =>
    obtain ⟨next, hnext, hrest⟩ := Option.bind_eq_some_iff.mp hrun
    exact ih (hstep h hnext) hrest

/-- Every step of the run is as `p` says of the state before it. -/
def Always (step : S → A → Option S) (p : S → A → Prop) : List A → S → Prop
  | [], _ => True
  | act :: acts, s => p s act ∧ ∀ s', step s act = some s' → Always step p acts s'

variable {p : S → A → Prop}

theorem always_cons {act : A} (hstep : step s act = some s') :
    Always step p (act :: acts) s ↔ p s act ∧ Always step p acts s' := by
  constructor
  · rintro ⟨hp, hacts⟩
    exact ⟨hp, hacts s' hstep⟩
  · rintro ⟨hp, hacts⟩
    refine ⟨hp, fun next hnext => ?_⟩
    rw [hstep] at hnext
    cases hnext
    exact hacts

theorem always_of_forall (h : ∀ s act, p s act) : Always step p acts s := by
  induction acts generalizing s with
  | nil => trivial
  | cons act acts ih => exact ⟨h s act, fun s' _ => ih⟩

/-- When steps keep the goal just if they are as `p` says, a run keeps it just if all its steps are.
The steps may be restricted by `q`. -/
theorem goal_iff_always {inv goal : S → Prop} {p q : S → A → Prop}
    (hstep : ∀ {s act s'}, inv s → q s act → step s act = some s' →
      inv s' ∧ (goal s' ↔ goal s ∧ p s act))
    (h : inv s) (hq : Always step q acts s) (hrun : acts.foldlM step s = some s') :
    goal s' ↔ goal s ∧ Always step p acts s := by
  induction acts generalizing s with
  | nil =>
    cases hrun
    exact (and_iff_left trivial).symm
  | cons act acts ih =>
    obtain ⟨next, hnext, hrest⟩ := Option.bind_eq_some_iff.mp hrun
    obtain ⟨hact, hacts⟩ := (always_cons hnext).mp hq
    obtain ⟨hinv, hgoal⟩ := hstep h hact hnext
    rw [ih hinv hacts hrest, hgoal, always_cons hnext, and_assoc]

/-- A goal holds after every step of a run just if every step is as `p` says, provided that `p` says
when a step keeps the goal. -/
theorem goal_iff_forall {step : S → A → S} {goal : S → Prop} (h : goal s)
    (hstep : ∀ done act, done ++ [act] <+: acts → goal (done.foldl step s) →
      (goal (step (done.foldl step s) act) ↔ p (done.foldl step s) act)) :
    (∀ done, done <+: acts → goal (done.foldl step s)) ↔
      ∀ done act, done ++ [act] <+: acts → p (done.foldl step s) act := by
  constructor
  · intro hgoal done act hacts
    have hnext := hgoal _ hacts
    rw [List.foldl_append] at hnext
    exact (hstep done act hacts (hgoal _ ((List.prefix_append _ _).trans hacts))).mp hnext
  · intro hp done hacts
    induction done using List.reverseRecOn with
    | nil => exact h
    | append_singleton done act ih =>
      rw [List.foldl_append]
      exact (hstep done act hacts (ih ((List.prefix_append _ _).trans hacts))).mpr
        (hp done act hacts)

theorem forall_step_of_get {step : S → A → S}
    (h : ∀ i : Fin acts.length, p ((acts.take i).foldl step s) (acts.get i)) (done : List A)
    (act : A) (hacts : done ++ [act] <+: acts) : p (done.foldl step s) act := by
  obtain ⟨rest, rfl⟩ := hacts
  simpa using h ⟨done.length, by simp⟩

end P2Panda.Library.Runs
