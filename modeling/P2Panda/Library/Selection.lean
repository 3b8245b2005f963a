import Mathlib.Data.List.Perm.Basic
import Mathlib.Data.Set.Basic
import Mathlib.Order.WithBot
import Mathlib.Tactic.Cases

/-!
# Selecting one of two values

An operation that returns the first of its arguments if a relation prefers it, else the second. When
it commutes and associates can be read off the relation; where it does both, it can be folded in any
order.
-/

namespace P2Panda.Library

open Option

section Select

variable {α : Type} (r : α → α → Prop) [DecidableRel r] (x y z : α)

/-- The first value if it is preferred to the second, else the second. -/
def select : α := if r x y then x else y

theorem select_self : select r x x = x := ite_self x

theorem select_comm_iff : select r x y = select r y x ↔ x = y ∨ (r x y ↔ ¬ r y x) := by
  unfold select
  by_cases hxy : r x y
  · by_cases hyx : r y x
    · simp [hxy, hyx]
    · simp [hxy, hyx]
  · by_cases hyx : r y x
    · simp [hxy, hyx]
    · simp [hxy, hyx, eq_comm]

theorem select_assoc_iff : select r x (select r y z) = select r (select r x y) z ↔
    x = z ∨ (r x y → r y z → r x z) ∧ (r x z → r x y ∨ r y z) := by
  unfold select
  by_cases hxy : r x y
  · by_cases hyz : r y z
    · by_cases hxz : r x z
      · simp [hxy, hyz, hxz]
      · simp [hxy, hyz, hxz]
    · by_cases hxz : r x z
      · simp [hxy, hyz, hxz]
      · simp [hxy, hyz, hxz]
  · by_cases hyz : r y z
    · simp [hxy, hyz]
    · by_cases hxz : r x z
      · simp [hxy, hyz, hxz]
      · simp [hxy, hyz, hxz]

end Select

section Merge

variable {α β : Type} {op : α → α → α} {r : α → α → Prop} {a b c : Option α} {s : α → β}

/-- Where the first value is there, so is the second, and they are related. -/
def Under (r : α → α → Prop) (a b : Option α) : Prop := ∀ x, a = some x → ∃ y, b = some y ∧ r x y

theorem merge_eq_left (h : Under r b a) (hop : ∀ {x y}, r y x → op x y = x) :
    Option.merge op a b = a := by
  cases b with
  | none => exact merge_none_right
  | some y =>
    obtain ⟨x, rfl, hr⟩ := h y rfl
    exact congrArg some (hop hr)

theorem merge_eq_right (h : Under r a b) (hop : ∀ {x y}, r x y → op x y = y) :
    Option.merge op a b = b := by
  cases a with
  | none => exact merge_none_left
  | some x =>
    obtain ⟨y, rfl, hr⟩ := h x rfl
    exact congrArg some (hop hr)

theorem Under.merge (ha : Under r a c) (hb : Under r b c)
    (hop : ∀ {x y z}, r x z → r y z → r (op x y) z) : Under r (Option.merge op a b) c := by
  cases a with
  | none => rwa [merge_none_left]
  | some x =>
    cases b with
    | none => exact ha
    | some y =>
      obtain ⟨z, hz, hxz⟩ := ha x rfl
      obtain ⟨z', hz', hyz⟩ := hb y rfl
      cases hz.symm.trans hz'
      rintro _ ⟨⟩
      exact ⟨z, hz, hop hxz hyz⟩

theorem under_merge (hrefl : ∀ x, r x x) (hop : ∀ x y, r x (op x y) ∧ r y (op x y)) :
    Under r a (Option.merge op a b) ∧ Under r b (Option.merge op a b) := by
  cases a with
  | none =>
    rw [merge_none_left]
    exact ⟨by simp [Under], fun y hy => ⟨y, hy, hrefl y⟩⟩
  | some x =>
    cases b with
    | none => simpa [Under] using hrefl x
    | some y => simpa [Under] using hop x y

/-! Values with a rank, where a missing value has the lowest one. -/

theorem under_of_elim_le [Preorder β]
    (h : (a.elim ⊥ fun x => (s x : WithBot β)) ≤ b.elim ⊥ fun x => ↑(s x)) :
    Under (fun x y => s x ≤ s y) a b := by
  rintro x rfl
  cases b with
  | none => simp at h
  | some y => exact ⟨y, rfl, WithBot.coe_le_coe.mp h⟩

theorem eq_of_elim_eq (h : (a.elim ⊥ fun x => (s x : WithBot β)) = b.elim ⊥ fun x => ↑(s x))
    (hs : ∀ x y, a = some x → b = some y → s x = s y → x = y) : a = b := by
  cases a with
  | none => cases b <;> simp_all
  | some x =>
    cases b with
    | none => simp at h
    | some y => rw [hs x y rfl rfl (WithBot.coe_inj.mp h)]

theorem elim_merge [SemilatticeSup β] (hop : ∀ x y, a = some x → s (op x y) = s x ⊔ s y) :
    ((Option.merge op a b).elim ⊥ fun x => (s x : WithBot β)) =
      (a.elim ⊥ fun x => (s x : WithBot β)) ⊔ b.elim ⊥ fun x => ↑(s x) := by
  cases a with
  | none => simp
  | some x =>
    cases b with
    | none => simp
    | some y => simp [hop x y rfl]

end Merge

section Fold

variable {α β : Type} {op : α → α → α} {S : Set α} {f : β → Option α} {l l' : List β}

theorem merge_left_comm (hcomm : ∀ x ∈ S, ∀ y ∈ S, op x y = op y x)
    (hassoc : ∀ x ∈ S, ∀ y ∈ S, ∀ z ∈ S, op x (op y z) = op (op x y) z) {a b c : Option α}
    (ha : ∀ x, a = some x → x ∈ S) (hb : ∀ x, b = some x → x ∈ S) (hc : ∀ x, c = some x → x ∈ S) :
    Option.merge op a (Option.merge op b c) = Option.merge op b (Option.merge op a c) := by
  cases a with
  | none => cases b <;> cases c <;> rfl
  | some x =>
    cases b with
    | none => cases c <;> rfl
    | some y =>
      have hx : x ∈ S := ha x rfl
      have hy : y ∈ S := hb y rfl
      cases c with
      | none =>
        show some (op x y) = some (op y x)
        rw [hcomm x hx y hy]
      | some z =>
        have hz : z ∈ S := hc z rfl
        show some (op x (op y z)) = some (op y (op x z))
        rw [hassoc x hx y hy z hz, hcomm x hx y hy, hassoc y hy x hx z hz]

theorem foldl_merge_perm (hcl : ∀ x ∈ S, ∀ y ∈ S, op x y ∈ S)
    (hcomm : ∀ x ∈ S, ∀ y ∈ S, op x y = op y x)
    (hassoc : ∀ x ∈ S, ∀ y ∈ S, ∀ z ∈ S, op x (op y z) = op (op x y) z) (hl : l.Perm l')
    (hf : ∀ b ∈ l, ∀ x, f b = some x → x ∈ S) {acc : Option α} (hacc : ∀ x, acc = some x → x ∈ S) :
    l.foldl (fun acc b => Option.merge op (f b) acc) acc =
      l'.foldl (fun acc b => Option.merge op (f b) acc) acc := by
  induction hl generalizing acc with
  | nil => rfl
  | cons b hl ih =>
    rw [List.foldl_cons]
    apply ih fun b' hb' => hf b' (List.mem_cons_of_mem _ hb')
    intro x hx
    cases hb : f b with
    | none =>
      rw [hb, merge_none_left] at hx
      exact hacc x hx
    | some y =>
      have hy : y ∈ S := hf b List.mem_cons_self y hb
      cases acc with
      | none =>
        rw [hb] at hx
        cases hx
        exact hy
      | some z =>
        rw [hb] at hx
        cases hx
        exact hcl y hy z (hacc z rfl)
  | swap b b' l =>
    simp only [List.foldl_cons]
    rw [merge_left_comm hcomm hassoc (hf b (by simp)) (hf b' (by simp)) hacc]
  | trans hl hl' ih ih' =>
    rw [ih hf hacc]
    exact ih' (fun b hb => hf b (hl.mem_iff.mpr hb)) hacc

end Fold

end P2Panda.Library
