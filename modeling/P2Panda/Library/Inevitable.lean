import Mathlib.Order.WellFounded

/-!
# Inevitable outcomes

What a system runs into whichever steps it takes. A step of the environment, such as a fault, does
not count as progress.
-/

namespace P2Panda.Library

variable {α : Type}

/-- Every run with the steps `next` gets to `goal`, and until then one of `progress` can be
taken. -/
inductive Inevitable (next progress : α → α → Prop) (goal : α → Prop) : α → Prop
  | reached {a : α} (h : goal a) : Inevitable next progress goal a
  | step {a : α} (possible : ∃ b, progress a b)
      (all : ∀ b, next a b → Inevitable next progress goal b) : Inevitable next progress goal a

/-- The goal is inevitable when steps keep an invariant that rules out being stuck, and descend in a
well-founded relation. -/
theorem Inevitable.of_wellFounded {next progress r : α → α → Prop} {goal : α → Prop}
    (hr : WellFounded r) (invariant : α → Prop)
    (hnext : ∀ a b, invariant a → next a b → invariant b ∧ r b a)
    (hprog : ∀ a, invariant a → goal a ∨ ∃ b, progress a b) (a : α) (ha : invariant a) :
    Inevitable next progress goal a := by
  induction a using hr.induction with
  | _ a ih =>
    rcases hprog a ha with hgoal | hpossible
    · exact .reached hgoal
    · apply Inevitable.step hpossible
      intro b hb
      obtain ⟨hinvariant, hlt⟩ := hnext a b ha hb
      exact ih b hlt hinvariant

end P2Panda.Library
