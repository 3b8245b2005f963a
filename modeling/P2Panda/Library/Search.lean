import Mathlib.Algebra.BigOperators.Group.Finset.Basic
import Mathlib.Order.Interval.Finset.Nat

/-!
# Walks with a set of visited nodes

A recursive walk that marks nodes in a shared set (`mark`), and a loop over a stack that looks for a
goal (`search`). With enough fuel both are exact.
-/

namespace P2Panda.Library

open Relation Finset ReflTransGen

variable {α : Type} [DecidableEq α]

abbrev Step (next : α → List α) (a b : α) : Prop := b ∈ next a

/-- Collect what can be reached from `target` without entering `visited`: what this call collected,
and the set shared by all calls. -/
def mark (next : α → List α) : Nat → α → Finset α → Finset α × Finset α
  | 0, target, visited => ({target}, visited)
  | fuel + 1, target, visited =>
    (next target).foldl
      (fun acc v =>
        if v ∈ acc.2 then acc
        else (acc.1 ∪ (mark next fuel v (insert v acc.2)).1,
          (mark next fuel v (insert v acc.2)).2))
      ({target}, visited)

/-- What a call of `mark` that returns `r` has achieved. -/
structure Marked (next : α → List α) (target : α) (visited : Finset α)
    (r : Finset α × Finset α) : Prop where
  target_mem : target ∈ r.1
  shared : r.2 = visited ∪ r.1
  closed : ∀ v ∈ r.1, ∀ w ∈ next v, w ∈ r.2
  reached : ∀ v ∈ r.1, ReflTransGen (Step next) target v

/-- The loop over the successors of `target` when `todo` is still to come. -/
structure Marking (next : α → List α) (target : α) (visited : Finset α)
    (acc : Finset α × Finset α) (todo : List α) : Prop where
  target_mem : target ∈ acc.1
  shared : acc.2 = visited ∪ acc.1
  closed : ∀ v ∈ acc.1, v = target ∨ ∀ w ∈ next v, w ∈ acc.2
  reached : ∀ v ∈ acc.1, ReflTransGen (Step next) target v
  met : ∀ v ∈ next target, v ∈ todo ∨ v ∈ acc.2

variable {next : α → List α} {universe_ : Finset α}

namespace Marking

variable {target v : α} {visited : Finset α} {acc inner : Finset α × Finset α} {todo : List α}

theorem start (htgt : target ∈ visited) :
    Marking next target visited ({target}, visited) (next target) where
  target_mem := by simp
  shared := by simp [htgt]
  closed := by simp
  reached := by
    simp only [mem_singleton]
    rintro v rfl
    exact refl
  met v hv := Or.inl hv

theorem finish (h : Marking next target visited acc []) : Marked next target visited acc where
  target_mem := h.target_mem
  shared := h.shared
  closed v hv w hw := by
    rcases h.closed v hv with rfl | hcl
    · simpa using h.met w hw
    · exact hcl w hw
  reached := h.reached

theorem skip (h : Marking next target visited acc (v :: todo)) (hv : v ∈ acc.2) :
    Marking next target visited acc todo :=
  { h with
    met := by
      intro w hw
      rcases h.met w hw with hmem | hold
      · rcases List.mem_cons.mp hmem with rfl | hrest
        · exact Or.inr hv
        · exact Or.inl hrest
      · exact Or.inr hold }

theorem visit (h : Marking next target visited acc (v :: todo)) (hstep : Step next target v)
    (hinn : Marked next v (insert v acc.2) inner) :
    Marking next target visited (acc.1 ∪ inner.1, inner.2) todo := by
  have hgrow : acc.2 ⊆ inner.2 := by
    intro w hw
    rw [hinn.shared]
    simp [hw]
  have hmet : v ∈ inner.2 := by
    rw [hinn.shared]
    simp
  refine ⟨by simp [h.target_mem], ?_, ?_, ?_, ?_⟩
  · ext w
    rw [hinn.shared, h.shared]
    simp only [mem_union, mem_insert]
    have hvm : w = v → w ∈ inner.1 := by
      rintro rfl
      exact hinn.target_mem
    tauto
  · intro w hw
    rcases mem_union.mp hw with hw | hw
    · rcases h.closed w hw with rfl | hcl
      · exact Or.inl rfl
      · exact Or.inr fun z hz => hgrow (hcl z hz)
    · exact Or.inr (hinn.closed w hw)
  · intro w hw
    rcases mem_union.mp hw with hw | hw
    · exact h.reached w hw
    · exact (hinn.reached w hw).head hstep
  · intro w hw
    rcases h.met w hw with hmem | hold
    · rcases List.mem_cons.mp hmem with rfl | hrest
      · exact Or.inr hmet
      · exact Or.inl hrest
    · exact Or.inr (hgrow hold)

theorem card_lt (h : Marking next target visited acc todo) (hmem : v ∈ universe_)
    (hv : v ∉ acc.2) : (universe_ \ insert v acc.2).card < (universe_ \ visited).card := by
  have hsub : visited ⊆ acc.2 := by
    rw [h.shared]
    exact subset_union_left
  apply card_lt_card
  rw [ssubset_iff_of_subset]
  · exact ⟨v, mem_sdiff.mpr ⟨hmem, fun hold => hv (hsub hold)⟩, by simp⟩
  · intro w hw
    simp only [mem_sdiff, mem_insert, not_or] at hw ⊢
    exact ⟨hw.1, fun hold => hw.2.2 (hsub hold)⟩

end Marking

/-- With fuel for every node not yet visited, marking is complete. -/
theorem marked_mark (hnext : ∀ v w, w ∈ next v → w ∈ universe_) (fuel : Nat) (target : α)
    (visited : Finset α) (htgt : target ∈ visited) (hfuel : (universe_ \ visited).card ≤ fuel) :
    Marked next target visited (mark next fuel target visited) := by
  induction fuel generalizing target visited with
  | zero =>
    -- Everything has been visited, so there is nothing to recurse into.
    have hall : ∀ w ∈ universe_, w ∈ visited := by
      simpa [subset_iff] using hfuel
    refine Marking.finish { Marking.start htgt with met := fun w hw => ?_ }
    exact Or.inr (hall w (hnext _ w hw))
  | succ fuel ih =>
    have hloop : ∀ (todo : List α) (acc : Finset α × Finset α),
        (∀ v ∈ todo, v ∈ next target) → Marking next target visited acc todo →
        Marked next target visited (todo.foldl (fun acc v =>
            if v ∈ acc.2 then acc
            else (acc.1 ∪ (mark next fuel v (insert v acc.2)).1,
              (mark next fuel v (insert v acc.2)).2)) acc) := by
      intro todo
      induction todo with
      | nil => exact fun acc _ h => h.finish
      | cons v todo ihtodo =>
        intro acc htodo h
        have hstep : Step next target v := htodo v (by simp)
        have hrest : ∀ w ∈ todo, w ∈ next target := fun w hw => htodo w (by simp [hw])
        rw [List.foldl_cons]
        by_cases hv : v ∈ acc.2
        · rw [if_pos hv]
          exact ihtodo acc hrest (h.skip hv)
        · rw [if_neg hv]
          have hless := h.card_lt (hnext _ v hstep) hv
          exact ihtodo _ hrest (h.visit hstep (ih v _ (by simp) (by omega)))
    exact hloop (next target) _ (fun v hv => hv) (Marking.start htgt)

/-- When no edge leads from what the target reaches into what was visited before, marking it adds
exactly what it reaches. -/
theorem Marked.mem_iff {target : α} {visited : Finset α} {r : Finset α × Finset α}
    (hr : Marked next target (insert target visited) r)
    (hent : ∀ v w, ReflTransGen (Step next) target v → w ∈ next v → w ∈ visited → v ∈ visited)
    (hfresh : target ∉ visited) {v : α} : v ∈ r.1 ↔ ReflTransGen (Step next) target v := by
  refine ⟨hr.reached v, fun hv => ?_⟩
  have hrch : ∀ {w}, ReflTransGen (Step next) target w → w ∉ visited := by
    intro w hw
    induction hw with
    | refl => exact hfresh
    | @tail x y hx hstep ih => exact fun hmem => ih (hent x y hx hstep hmem)
  induction hv with
  | refl => exact hr.target_mem
  | @tail x y hx hstep ih =>
    have hy := hr.closed x ih y hstep
    rw [hr.shared, mem_union, mem_insert] at hy
    rcases hy with (rfl | hold) | hnew
    · exact hr.target_mem
    · exact absurd hold (hrch (hx.tail hstep))
    · exact hnew

/-- Pop a node, skip it when visited, stop at a goal, otherwise push its successors. The head of the
list is the top of the stack. -/
def search (next : α → List α) (goal : α → Bool) : Nat → List α → Finset α → Bool
  | 0, _, _ => false
  | _ + 1, [], _ => false
  | fuel + 1, v :: stack, visited =>
    if v ∈ visited then search next goal fuel stack visited
    else if goal v then true
    else search next goal fuel ((next v).reverse ++ stack) (insert v visited)

variable {goal : α → Bool}

theorem search_sound (fuel : Nat) (stack : List α) (visited : Finset α)
    (h : search next goal fuel stack visited = true) :
    ∃ s ∈ stack, ∃ t, ReflTransGen (Step next) s t ∧ goal t = true := by
  induction fuel generalizing stack visited with
  | zero => simp [search] at h
  | succ fuel ih =>
    cases stack with
    | nil => simp [search] at h
    | cons v stack =>
      rw [search] at h
      split_ifs at h with hv hgoal
      · obtain ⟨s, hs, hst⟩ := ih stack visited h
        exact ⟨s, by simp [hs], hst⟩
      · exact ⟨v, by simp, v, refl, hgoal⟩
      · obtain ⟨s, hs, t, hst, ht⟩ := ih _ _ h
        rcases List.mem_append.mp hs with hs | hs
        · exact ⟨v, by simp, t, hst.head (List.mem_reverse.mp hs), ht⟩
        · exact ⟨s, by simp [hs], t, hst, ht⟩

/-- Fuel for the stack and the successors of every unvisited node. -/
def searchFuel (next : α → List α) (universe_ : Finset α) (stack : List α)
    (visited : Finset α) : Nat :=
  stack.length + ∑ v ∈ universe_ \ visited, (next v).length

theorem searchFuel_visit (stack : List α) (hout : ∀ v, v ∉ universe_ → next v = []) {v : α}
    {visited : Finset α} (hv : v ∉ visited) :
    searchFuel next universe_ ((next v).reverse ++ stack) (insert v visited) + 1 =
      searchFuel next universe_ (v :: stack) visited := by
  unfold searchFuel
  by_cases hmem : v ∈ universe_
  · have hspl : ∑ w ∈ universe_ \ visited, (next w).length =
        ∑ w ∈ universe_ \ insert v visited, (next w).length + (next v).length := by
      rw [sdiff_insert, sum_erase_add _ _ (by simp [hmem, hv])]
    simp
    omega
  · have hsame : universe_ \ insert v visited = universe_ \ visited := by
      rw [sdiff_insert, erase_eq_of_notMem (by simp [hmem])]
    rw [hsame, hout v hmem]
    simp
    omega

/-- A failed search has closed everything it saw, without a goal. -/
theorem search_complete (hout : ∀ v, v ∉ universe_ → next v = []) (fuel : Nat) (stack : List α)
    (visited : Finset α) (hfuel : searchFuel next universe_ stack visited ≤ fuel)
    (hinv : ∀ v ∈ visited, goal v = false ∧ ∀ w ∈ next v, w ∈ visited ∨ w ∈ stack)
    (h : search next goal fuel stack visited = false) :
    ∃ closed : Finset α, (∀ v ∈ visited, v ∈ closed) ∧ (∀ v ∈ stack, v ∈ closed) ∧
      ∀ v ∈ closed, goal v = false ∧ ∀ w ∈ next v, w ∈ closed := by
  induction fuel generalizing stack visited with
  | zero =>
    have hnil : stack = [] := by
      rw [← List.length_eq_zero_iff]
      unfold searchFuel at hfuel
      omega
    subst hnil
    exact ⟨visited, by simp, by simp, by simpa using hinv⟩
  | succ fuel ih =>
    cases stack with
    | nil => exact ⟨visited, by simp, by simp, by simpa using hinv⟩
    | cons v stack =>
      rw [search] at h
      split_ifs at h with hv hgoal
      · have hless : searchFuel next universe_ stack visited ≤ fuel := by
          unfold searchFuel at hfuel ⊢
          simp only [List.length_cons] at hfuel
          omega
        have hinv' : ∀ x ∈ visited, goal x = false ∧ ∀ w ∈ next x, w ∈ visited ∨ w ∈ stack := by
          intro x hx
          refine ⟨(hinv x hx).1, fun w hw => ?_⟩
          rcases (hinv x hx).2 w hw with hold | hstack
          · exact Or.inl hold
          · rcases List.mem_cons.mp hstack with rfl | hrest
            · exact Or.inl hv
            · exact Or.inr hrest
        obtain ⟨closed, hvis, hstack, hcl⟩ := ih stack visited hless hinv' h
        exact ⟨closed, hvis, List.forall_mem_cons.mpr ⟨hvis v hv, hstack⟩, hcl⟩
      · have hstep := searchFuel_visit stack hout hv
        have hinv' : ∀ x ∈ insert v visited, goal x = false ∧
            ∀ w ∈ next x, w ∈ insert v visited ∨ w ∈ (next v).reverse ++ stack := by
          intro x hx
          rcases mem_insert.mp hx with rfl | hx
          · exact ⟨by simpa using hgoal, fun w hw => Or.inr (by simp [hw])⟩
          · refine ⟨(hinv x hx).1, fun w hw => ?_⟩
            rcases (hinv x hx).2 w hw with hold | hstack
            · exact Or.inl (by simp [hold])
            · rcases List.mem_cons.mp hstack with rfl | hrest
              · exact Or.inl (by simp)
              · exact Or.inr (by simp [hrest])
        obtain ⟨closed, hvis, hstack, hcl⟩ := ih _ _ (by omega) hinv' h
        exact ⟨closed, fun x hx => hvis x (by simp [hx]), List.forall_mem_cons.mpr
          ⟨hvis v (by simp), (List.forall_mem_append.mp hstack).2⟩, hcl⟩

theorem search_iff (hout : ∀ v, v ∉ universe_ → next v = []) {fuel : Nat} {start : α}
    (hfuel : searchFuel next universe_ [start] ∅ ≤ fuel) :
    search next goal fuel [start] ∅ = true ↔
      ∃ t, ReflTransGen (Step next) start t ∧ goal t = true := by
  constructor
  · intro h
    obtain ⟨s, hs, hst⟩ := search_sound fuel [start] ∅ h
    rw [List.mem_singleton] at hs
    exact hs ▸ hst
  · rintro ⟨t, hst, hgoal⟩
    by_contra hfalse
    obtain ⟨closed, -, hstart, hcl⟩ :=
      search_complete hout fuel [start] ∅ hfuel (by simp) (by simpa using hfalse)
    have hmem : t ∈ closed := by
      clear hgoal
      induction hst with
      | refl => exact hstart start (by simp)
      | tail _ hstep ih => exact (hcl _ ih).2 _ hstep
    rw [(hcl t hmem).1] at hgoal
    cases hgoal

omit [DecidableEq α] in
/-- New edges out of one node close no cycle if none leads to a node from which the walk could have
come back. -/
theorem not_transGen_of_new_edges {R S : α → α → Prop} {g : α} (hR : ∀ a, ¬TransGen R a a)
    (hS : ∀ a b, S a b → R a b ∨ a = g ∧ ¬ReflTransGen R b g) (a : α) : ¬TransGen S a a := by
  -- Behind a new edge the walk never gets to `g`, and so takes no other new edge.
  have hescape : ∀ {b c}, ¬ReflTransGen R b g → ReflTransGen S b c → ReflTransGen R b c := by
    intro b c hb hbc
    induction hbc with
    | refl => exact refl
    | tail _ hstep ih =>
      rcases hS _ _ hstep with hold | ⟨rfl, -⟩
      · exact ih.tail hold
      · exact absurd ih hb
  have hspl : ∀ {c}, TransGen S a c → TransGen R a c ∨
      ∃ b, ¬ReflTransGen R b g ∧ ReflTransGen S a g ∧ ReflTransGen S b c := by
    intro c hac
    induction hac with
    | single hstep =>
      rcases hS _ _ hstep with hold | ⟨rfl, hnot⟩
      · exact Or.inl (TransGen.single hold)
      · exact Or.inr ⟨_, hnot, refl, refl⟩
    | tail hwalk hstep ih =>
      rcases ih with hpath | ⟨b, hnot, hag, hbc⟩
      · rcases hS _ _ hstep with hold | ⟨rfl, hnot⟩
        · exact Or.inl (hpath.tail hold)
        · exact Or.inr ⟨_, hnot, hwalk.to_reflTransGen, refl⟩
      · exact Or.inr ⟨b, hnot, hag, hbc.tail hstep⟩
  intro hcyc
  rcases hspl hcyc with hold | ⟨b, hnot, hag, hba⟩
  · exact hR a hold
  · exact hnot (hescape hnot (hba.trans hag))

end P2Panda.Library
