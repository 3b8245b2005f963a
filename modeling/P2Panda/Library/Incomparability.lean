import Mathlib.Logic.Relation
import Mathlib.Tactic.ByContra

/-!
# Components of incomparable elements

In a strict order, join two elements when neither is below the other. The components are stacked, so
a walk that never goes strictly down returns to its start only inside one of them.
-/

namespace P2Panda.Library

open Relation

namespace Incomparability

variable {α β : Type} (R : α → α → Prop) (N : α → Prop)

/-- Two distinct elements of `N`, neither below the other. -/
def Incomparable (a b : α) : Prop := N a ∧ N b ∧ a ≠ b ∧ ¬R a b ∧ ¬R b a

def SameComponent : α → α → Prop := ReflTransGen (Incomparable R N)

variable {R N} {a a' b b' : α}

theorem Incomparable.symm (h : Incomparable R N a b) : Incomparable R N b a :=
  ⟨h.2.1, h.1, h.2.2.1.symm, h.2.2.2.2, h.2.2.2.1⟩

theorem SameComponent.refl (a : α) : SameComponent R N a a := ReflTransGen.refl

theorem SameComponent.symm (h : SameComponent R N a b) : SameComponent R N b a := by
  induction h with
  | refl => exact ReflTransGen.refl
  | tail _ hstep ih => exact ih.head hstep.symm

theorem SameComponent.trans {c : α} (hab : SameComponent R N a b) (hbc : SameComponent R N b c) :
    SameComponent R N a c :=
  ReflTransGen.trans hab hbc

theorem Incomparable.sameComponent (h : Incomparable R N a b) : SameComponent R N a b :=
  ReflTransGen.single h

/-- A walk that comes back visits only what it can come back from. -/
theorem walk_within {E : β → β → Prop} {P : β → Prop} {p q : β}
    (hP : ∀ n, ReflTransGen E p n → ReflTransGen E n p → P n)
    (hpq : ReflTransGen E p q) (hqp : ReflTransGen E q p) :
    ReflTransGen (fun x y => E x y ∧ P x ∧ P y) p q := by
  induction hpq with
  | refl => exact ReflTransGen.refl
  | tail hpx hstep ih =>
    have hxp := hqp.head hstep
    exact (ih hxp).tail ⟨hstep, hP _ hpx hxp, hP _ (hpx.tail hstep) hqp⟩

section Stacked

variable (htrans : ∀ x y z, R x y → R y z → R x z)

include htrans in
/-- What is above one element of a component and outside it is above all of it. -/
theorem below_of_sameComponent_left (hb : N b) (hab : R a b)
    (hout : ¬SameComponent R N a b) (haa' : SameComponent R N a a') : R a' b := by
  induction haa' with
  | refl => exact hab
  | tail hax hxy ih =>
    rename_i y
    have hne : y ≠ b := by
      rintro rfl
      exact hout (hax.tail hxy)
    by_contra hyb
    by_cases hby : R b y
    · exact hxy.2.2.2.1 (htrans _ _ _ ih hby)
    · exact hout ((hax.tail hxy).tail ⟨hxy.2.1, hb, hne, hyb, hby⟩)

include htrans in
/-- What is below one element of a component and outside it is below all of it. -/
theorem below_of_sameComponent_right (ha : N a) (hab : R a b)
    (hout : ¬SameComponent R N a b) (hbb' : SameComponent R N b b') : R a b' := by
  induction hbb' with
  | refl => exact hab
  | tail hbx hxy ih =>
    rename_i y
    have hay : ¬SameComponent R N a y := by
      intro hsame
      exact hout (hsame.trans (SameComponent.symm (hbx.tail hxy)))
    have hne : a ≠ y := by
      rintro rfl
      exact hay (SameComponent.refl a)
    by_contra hnot
    by_cases hya : R y a
    · exact hxy.2.2.2.2 (htrans _ _ _ hya ih)
    · exact hay (Incomparable.sameComponent ⟨ha, hxy.2.1, hne, hnot, hya⟩)

include htrans in
theorem sameComponent_of_between {c : α} (hirrefl : ∀ x, ¬R x x) (hb : N b)
    (hac : SameComponent R N a c) (hab : R a b) (hbc : R b c) : SameComponent R N a b := by
  by_contra hout
  have hcb : R c b := below_of_sameComponent_left htrans hb hab hout hac
  exact hirrefl b (htrans _ _ _ hbc hcb)

/-- A walk over `β` whose steps, seen through `π`, never go strictly down. -/
structure NeverDescends (R : α → α → Prop) (N : α → Prop) (π : β → α)
    (E : β → β → Prop) : Prop where
  source : ∀ {p q}, E p q → N (π p)
  target : ∀ {p q}, E p q → N (π q)
  not_below : ∀ {p q}, E p q → ¬R (π q) (π p)

variable {π : β → α} {E : β → β → Prop} {p q : β}

include htrans in
theorem NeverDescends.path (hE : NeverDescends R N π E) (hp : N (π p))
    (hpq : ReflTransGen E p q) : SameComponent R N (π p) (π q) ∨ R (π p) (π q) := by
  induction hpq with
  | refl => exact Or.inl (SameComponent.refl _)
  | @tail x y _ hstep ih =>
    by_cases hxy : SameComponent R N (π x) (π y)
    · rcases ih with hsame | hbelow
      · exact Or.inl (hsame.trans hxy)
      · by_cases hpx : SameComponent R N (π p) (π x)
        · exact Or.inl (hpx.trans hxy)
        · exact Or.inr (below_of_sameComponent_right htrans hp hbelow hpx hxy)
    · -- Leaving a component is a strict step up.
      have hlt : R (π x) (π y) := by
        by_contra hnot
        have hne : π x ≠ π y := by
          intro heq
          exact hxy (heq ▸ SameComponent.refl _)
        exact hxy (Incomparable.sameComponent
          ⟨hE.source hstep, hE.target hstep, hne, hnot, hE.not_below hstep⟩)
      rcases ih with hsame | hbelow
      · exact Or.inr (below_of_sameComponent_left htrans (hE.target hstep) hlt hxy hsame.symm)
      · exact Or.inr (htrans _ _ _ hbelow hlt)

include htrans in
theorem NeverDescends.sameComponent_of_cycle (hirrefl : ∀ x, ¬R x x) (hE : NeverDescends R N π E)
    (hp : N (π p)) (hq : N (π q)) (hpq : ReflTransGen E p q) (hqp : ReflTransGen E q p) :
    SameComponent R N (π p) (π q) := by
  rcases hE.path htrans hp hpq with hsame | hlt
  · exact hsame
  · rcases hE.path htrans hq hqp with hsame | hgt
    · exact hsame.symm
    · exact absurd (htrans _ _ _ hlt hgt) (hirrefl _)

end Stacked

end Incomparability

end P2Panda.Library
