import Mathlib.Data.Set.Finite.List
import P2Panda.Stream.Orderer.Soundness

/-!
# Items are not lost

An item becomes ready once everything it rests on has arrived, unless the last arrival completes two
of its dependencies of which one rests on the other: the walk then passes the item over, and deletes
its rows.
-/

namespace P2Panda.Stream.CausalOrderer

open P2Panda.Library P2Panda.Store Relation List OrdererStore Encodable

variable {ID D : Type}

/-- All that the item rests on has arrived, and the item itself. -/
def Complete (deps : ID → List ID) (arrived : List ID) (k : ID) : Prop :=
  ∀ a, ReflTransGen (DependsOn deps) k a → a ∈ arrived

/-- The arrival of `key` completes a waiting item, with two dependencies `x` and `y` of which the
second rests on the first. -/
def Chained (deps : ID → List ID) (arrived : List ID) (key c : ID) : Prop :=
  c ∈ arrived ∧ Complete deps (arrived ++ [key]) c ∧
    ∃ x ∈ deps c, ∃ y ∈ deps c, TransGen (DependsOn deps) y x ∧ ¬Complete deps arrived x

section Complete

variable {deps : ID → List ID} {arrived : List ID} {k : ID}

theorem Complete.mem (h : Complete deps arrived k) : k ∈ arrived := h k .refl

theorem Complete.of_mem (h : Complete deps arrived k) {d : ID} (hd : d ∈ deps k) :
    Complete deps arrived d :=
  fun a ha => h a (ReflTransGen.head hd ha)

theorem complete_of_closed (hcl : ∀ k ∈ arrived, ∀ d ∈ deps k, d ∈ arrived)
    (hk : k ∈ arrived) : Complete deps arrived k := by
  intro a ha
  induction ha with
  | refl => exact hk
  | tail _ hd ih => exact hcl _ ih _ hd

theorem Complete.mono {arrived' : List ID} (h : Complete deps arrived k)
    (hsub : ∀ a ∈ arrived, a ∈ arrived') : Complete deps arrived' k :=
  fun a ha => hsub a (h a ha)

theorem Complete.induction (hacyc : ∀ k ∈ arrived, ¬TransGen (DependsOn deps) k k)
    {P : ID → Prop}
    (step : ∀ k, Complete deps arrived k → (∀ d ∈ deps k, P d) → P k)
    (h : Complete deps arrived k) : P k := by
  let rests : {k // Complete deps arrived k} → {k // Complete deps arrived k} → Prop :=
    fun a b => TransGen (DependsOn deps) b a
  have : Finite {k // Complete deps arrived k} :=
    Set.Finite.subset (finite_toSet arrived) fun _ => Complete.mem
  have : Std.Irrefl rests := ⟨fun a => hacyc a a.2.mem⟩
  have hwf : WellFounded rests := Finite.wellFounded_of_trans_of_irrefl rests
  exact hwf.induction ⟨k, h⟩ fun a ih =>
    step a a.2 fun d hd => ih ⟨d, a.2.of_mem hd⟩ (TransGen.single hd)

end Complete

variable [LinearOrder ID]

/-- Nothing has been lost: an item that has arrived and is not ready waits. -/
structure Kept (digest : ID → List ID → D) (deps : ID → List ID) (arrived : List ID)
    (s : OrdererStore ID D) : Prop where
  consistent : Consistent digest deps (fun _ => False) s
  queued : Queued deps [] s
  ready : ∀ k ∈ s.readyIds, k ∈ arrived
  waits : ∀ {i c}, s.Waits i c → c ∈ arrived
  waiting : ∀ c ∈ arrived, c ∉ s.readyIds → ∃ i, s.Waits i c

namespace Kept

variable {digest : ID → List ID → D} {deps : ID → List ID} {arrived : List ID}
variable {s s' : OrdererStore ID D} {key : ID}

theorem empty : Kept digest deps [] (OrdererStore.empty : OrdererStore ID D) where
  consistent := .empty
  queued := .empty
  ready := by simp [OrdererStore.readyIds, OrdererStore.empty]
  waits := by
    rintro i c ⟨row, hrow, -⟩
    simp [OrdererStore.empty] at hrow
  waiting := by simp

theorem mem_readyIds_iff (h : Kept digest deps arrived s)
    (hacyc : ∀ k ∈ arrived, ¬TransGen (DependsOn deps) k k) {k : ID} :
    k ∈ s.readyIds ↔ Complete deps arrived k := by
  constructor
  · intro hk
    exact (complete_of_closed h.consistent.closed hk).mono h.ready
  · refine Complete.induction hacyc fun k hk hdeps => ?_
    by_contra hunr
    obtain ⟨i, hw⟩ := h.waiting k hk.mem hunr
    exact h.consistent.waits_ready hw (hdeps i (h.consistent.tabled.mem_deps hw))

theorem markPending [DecidableEq D] (h : Kept digest deps arrived s) (hnd : (deps key).Nodup)
    (hunmet : s.ready (deps key) = false) :
    Kept digest deps (arrived ++ [key]) (s.markPending digest key (deps key)).1 where
  consistent := h.consistent.markPending key
  queued := h.queued.of_readyRows rfl
  ready := fun k hk => mem_append_left _ (h.ready k hk)
  waits := by
    intro i c hw
    rcases waits_markPending.mp hw with hw | ⟨rfl, -⟩
    · exact mem_append_left _ (h.waits hw)
    · simp
  waiting := by
    intro c hc hunr
    rcases mem_append.mp hc with hc | hc
    · obtain ⟨i, hw⟩ := h.waiting c hc hunr
      exact ⟨i, waits_markPending.mpr (Or.inl hw)⟩
    · rw [mem_singleton] at hc
      subst hc
      by_contra hnone
      have hrdy : s.ready (deps c) = true := by
        rw [ready_iff]
        refine ⟨hnd, fun d hd => ?_⟩
        by_contra hd'
        exact hnone ⟨d, waits_markPending.mpr (Or.inr ⟨rfl, hd, hd'⟩)⟩
      rw [hunmet] at hrdy
      cases hrdy

/-- What a walk passes over still waits, except for items with a chain among the dependencies that
it has completed. -/
theorem releases (h : Kept digest deps arrived s)
    (hacyc : ∀ k ∈ arrived, ¬TransGen (DependsOn deps) k k) (hnew : key ∉ s.readyIds)
    (hmet : ∀ d ∈ deps key, d ∈ s.readyIds) {ks : List ID}
    (hrel : Releases deps (fun _ => False) key ks (s.markReady key).1 s')
    (hchained : ∀ c, ¬Chained deps arrived key c) : Kept digest deps (arrived ++ [key]) s' := by
  have hent := h.consistent.entered hnew hmet False.elim
  have hids : s'.readyIds = s.readyIds ++ key :: ks := by
    rw [hrel.readyIds, readyIds_markReady_of_notMem hnew, append_assoc]
    rfl
  have hwt : ∀ {i c}, s'.Waits i c ↔ s.Waits i c ∧ i ∉ key :: ks := by
    intro i c
    rw [hrel.waits_iff, waits_markReady]
  have hrdy : ∀ k ∈ s'.readyIds, k ∈ arrived ++ [key] := by
    intro k hk
    rw [hids, mem_append, mem_cons] at hk
    rcases hk with hk | rfl | hk
    · exact mem_append_left _ (h.ready k hk)
    · simp
    · obtain ⟨i, -, hw⟩ := hrel.waited k hk
      rw [waits_markReady] at hw
      exact mem_append_left _ (h.waits hw)
  have hcons := hrel.consistent hent
  refine ⟨hcons, ?_, hrdy, fun hw => ?_, fun c hc hunr => ?_⟩
  · exact ((h.queued.markReady_of_notMem hnew hmet).markAllReady
      hrel.unlocks).of_readyRows hrel.readyRows
  · exact mem_append_left _ (h.waits (hwt.mp hw).1)
  · have hold : c ∉ s.readyIds := by
      intro hmem
      rw [hids] at hunr
      exact hunr (mem_append_left _ hmem)
    have hc' : c ∈ arrived := by
      rcases mem_append.mp hc with hc | hc
      · exact hc
      · rw [mem_singleton] at hc
        subst hc
        rw [hids] at hunr
        simp at hunr
    obtain ⟨i, hw⟩ := h.waiting c hc' hold
    by_contra hnone
    -- All that `c` waited for is ready now.
    have hall : ∀ j, s.Waits j c → j ∈ key :: ks := by
      intro j hj
      by_contra hmem
      exact hnone ⟨j, hwt.mpr ⟨hj, hmem⟩⟩
    have hdeps : ∀ d ∈ deps c, d ∈ s'.readyIds := by
      intro d hd
      rw [hids, mem_append]
      by_contra hd'
      rw [not_or] at hd'
      exact hd'.2 (hall d (h.consistent.unmet hw hd hd'.1))
    have hblk := hrel.blocked hunr (hall i hw) ((waits_markReady key i c).mpr hw)
    rcases hblk with ⟨d, hd, hd'⟩ | ⟨x, y, hx, hy, hrests, -, -⟩
    · exact hd' (hdeps d (hent.tabled.mem_deps hd))
    · rw [waits_markReady] at hx
      refine hchained c ⟨hc', ?_, x, h.consistent.tabled.mem_deps hx, y,
        hent.tabled.mem_deps hy, hrests, ?_⟩
      · intro a ha
        rcases ReflTransGen.cases_head ha with rfl | ⟨d, hd, ha⟩
        · exact hc
        · exact (complete_of_closed hcons.closed (hdeps d hd)).mono hrdy a ha
      · rw [← h.mem_readyIds_iff hacyc]
        exact h.consistent.waits_ready hx

theorem processed [DecidableEq D] (h : Kept digest deps arrived s)
    (hacyc : ∀ k ∈ arrived, ¬TransGen (DependsOn deps) k k) (hkey : key ∉ arrived)
    (hnd : (deps key).Nodup) (hchained : ∀ c, ¬Chained deps arrived key c)
    {r : OrdererStore ID D × Bool} (hprocd : Processed digest deps s key r) :
    Kept digest deps (arrived ++ [key]) r.1 := by
  cases hprocd with
  | pending unmet => exact h.markPending hnd unmet
  | again hrdy _ => exact absurd (h.ready key hrdy) hkey
  | released new met hrel => exact h.releases hacyc new met hrel hchained

theorem queue_perm (h : Kept digest deps arrived s)
    (hacyc : ∀ k ∈ arrived, ¬TransGen (DependsOn deps) k k)
    (hcl : ∀ k ∈ arrived, ∀ d ∈ deps k, d ∈ arrived) (hnd : arrived.Nodup) :
    s.queue.Perm arrived := by
  have hmem : ∀ k, k ∈ s.readyIds ↔ k ∈ arrived := by
    intro k
    rw [h.mem_readyIds_iff hacyc]
    exact ⟨Complete.mem, complete_of_closed hcl⟩
  have hq : s.queue.Perm s.readyIds := by
    apply List.Perm.map
    rw [queueRows, filter_eq_self.mpr fun row hrow => ?_]
    · exact perm_insertionSort _ _
    · by_contra hleft
      rw [Bool.not_eq_true] at hleft
      simpa using h.queued.taken row hrow hleft
  exact hq.trans ((perm_ext_iff_of_nodup s.nodup_readyIds hnd).mpr hmem)

theorem pendingRows_eq_nil (h : Kept digest deps arrived s)
    (hacyc : ∀ k ∈ arrived, ¬TransGen (DependsOn deps) k k)
    (hcl : ∀ k ∈ arrived, ∀ d ∈ deps k, d ∈ arrived) : s.pendingRows.rows = [] := by
  rw [eq_nil_iff_forall_not_mem]
  intro row hrow
  have hw : s.Waits row.id row.childId := ⟨row, hrow, rfl, rfl⟩
  apply h.consistent.waits_ready hw
  rw [h.mem_readyIds_iff hacyc]
  exact complete_of_closed hcl
    (hcl row.childId (h.waits hw) row.id (h.consistent.tabled.mem_deps hw))

end Kept

variable [DecidableEq D] (digest : ID → List ID → D) (deps : ID → List ID)

/-- Process items one after another, with an order for each call. -/
def processAll (orders : ID → ID → HashOrder (ID × List ID)) (s : OrdererStore ID D)
    (keys : List ID) : Option (OrdererStore ID D) :=
  keys.foldlM (fun s key => Prod.fst <$> process digest (orders key) s key (deps key)) s

variable {digest deps}

theorem Kept.processAll {arrived keys : List ID} {s : OrdererStore ID D}
    (h : Kept digest deps arrived s) (hnd : (arrived ++ keys).Nodup)
    (hacyc : ∀ k ∈ arrived ++ keys, ¬TransGen (DependsOn deps) k k)
    (hdeps : ∀ k ∈ keys, (deps k).Nodup)
    (hchained : ∀ before key after, keys = before ++ key :: after →
      ∀ c, ¬Chained deps (arrived ++ before) key c)
    (orders : ID → ID → HashOrder (ID × List ID)) :
    ∃ s', processAll digest deps orders s keys = some s' ∧
      Kept digest deps (arrived ++ keys) s' := by
  induction keys generalizing arrived s with
  | nil =>
    rw [append_nil]
    exact ⟨s, rfl, h⟩
  | cons key keys ih =>
    have hkey : key ∉ arrived := by
      intro hmem
      exact (nodup_append.mp hnd).2.2 key hmem key mem_cons_self rfl
    obtain ⟨r, hrun, hprocd⟩ := process_spec h.consistent (orders key) key
    have hfst : ∀ c, ¬Chained deps arrived key c := by
      simpa using hchained [] key keys rfl
    have hstep := h.processed (fun k hk => hacyc k (mem_append_left _ hk)) hkey
      (hdeps key mem_cons_self) hfst hprocd
    rw [append_cons] at hnd hacyc
    obtain ⟨s', hrest, hkept⟩ := ih hstep hnd hacyc
      (fun k hk => hdeps k (mem_cons_of_mem _ hk)) (fun before key' after heq c => by
        have := hchained (key :: before) key' after (by rw [heq]; rfl) c
        rwa [append_cons] at this)
    refine ⟨s', ?_, append_cons arrived key keys ▸ hkept⟩
    unfold CausalOrderer.processAll
    rw [foldlM_cons, hrun]
    exact hrest

/-- If no arrival completes a chain, all items come out, once each, and nothing is left behind. -/
theorem all_yielded {keys : List ID} (hnodup : keys.Nodup)
    (hclosed : ∀ k ∈ keys, ∀ d ∈ deps k, d ∈ keys) (hdeps : ∀ k ∈ keys, (deps k).Nodup)
    (hacyclic : ∀ k ∈ keys, ¬TransGen (DependsOn deps) k k)
    (hchained : ∀ before key after, keys = before ++ key :: after →
      ∀ c, ¬Chained deps before key c)
    (orders : ID → ID → HashOrder (ID × List ID)) :
    ∃ s, processAll digest deps orders OrdererStore.empty keys = some s ∧
      ∀ n, keys.length ≤ n →
        (drain n s).1.Perm keys ∧ (drain n s).2.pendingRows.rows = [] := by
  have hemp : Kept digest deps [] empty := .empty
  obtain ⟨s, hrun, hkept⟩ := hemp.processAll hnodup hacyclic hdeps hchained orders
  have hperm := hkept.queue_perm hacyclic hclosed hnodup
  refine ⟨s, hrun, fun n hn => ⟨?_, ?_⟩⟩
  · rw [drain_eq_take hkept.queued.indexed, take_of_length_le (hperm.length_eq.trans_le hn)]
    exact hperm
  · rw [pendingRows_drain]
    exact hkept.pendingRows_eq_nil hacyclic hclosed

/-- Items `1`, `2` and `3`, each of which depends on all that are smaller. -/
def tower : Nat → List Nat
  | 3 => [1, 2]
  | 2 => [1]
  | _ => []

theorem tower_lt {a b : Nat} (h : TransGen (DependsOn tower) a b) : b < a := by
  have hstep : ∀ {a b}, DependsOn tower a b → b < a := by
    intro a b hab
    unfold DependsOn tower at hab
    split at hab <;> simp at hab <;> omega
  induction h with
  | single hab => exact hstep hab
  | tail _ hbc ih => exact (hstep hbc).trans ih

theorem eq_three_of_chained {arrived : List Nat} {key c : Nat}
    (h : Chained tower arrived key c) : c = 3 := by
  obtain ⟨-, -, x, hx, y, hy, hrests, -⟩ := h
  have hlt := tower_lt hrests
  unfold tower at hx hy
  split at hx
  · rfl
  · simp at hx hy
    omega
  · simp at hx

/-- Item `2` waits for item `1`, and item `3` comes last. -/
theorem all_yielded_tower :
    ∃ orders s, processAll (fun child _ => child) tower orders OrdererStore.empty [2, 1, 3] =
      some s ∧
      ∀ n, 3 ≤ n → (drain n s).1.Perm [2, 1, 3] ∧ (drain n s).2.pendingRows.rows = [] := by
  let orders : Nat → Nat → HashOrder (Nat × List Nat) := fun _ _ =>
    HashOrder.increasing encode encode_injective
  refine ⟨orders, all_yielded (by decide) (by decide) (by decide)
    (fun k _ h => lt_irrefl k (tower_lt h)) (fun before key after heq c hc => ?_) orders⟩
  have hmem : 3 ∈ before := eq_three_of_chained hc ▸ hc.1
  rcases before with _ | ⟨_, _ | ⟨_, _ | ⟨_, before⟩⟩⟩
  · simp at hmem
  · simp at heq hmem
    omega
  · simp at heq hmem
    omega
  · simp at heq

/-- In the opposite order, item `3` is lost: when item `1` makes item `2` ready, item `3` has a row
for both. -/
theorem tower_lost :
    ([3, 2, 1] : List Nat).Nodup ∧ (∀ k ∈ [3, 2, 1], ∀ d ∈ tower k, d ∈ [3, 2, 1]) ∧
      (∀ k ∈ [3, 2, 1], (tower k).Nodup) ∧ (∀ k, ¬TransGen (DependsOn tower) k k) ∧
      ∃ orders s, processAll (fun child _ => child) tower orders OrdererStore.empty [3, 2, 1] =
        some s ∧ (drain 3 s).1 = [1, 2] ∧ (drain 3 s).2.pendingRows.rows = [] := by
  refine ⟨by decide, by decide, by decide, fun k h => lt_irrefl k (tower_lt h), ?_⟩
  let orders : Nat → Nat → HashOrder (Nat × List Nat) := fun _ _ =>
    HashOrder.increasing encode encode_injective
  exact ⟨orders, _, rfl, rfl, rfl⟩

end P2Panda.Stream.CausalOrderer
