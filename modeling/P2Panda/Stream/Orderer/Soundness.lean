import Mathlib.Logic.Equiv.List
import P2Panda.Stream.Orderer.Release

/-!
# Items come out after their dependencies

The queue hands out items by their indices. An item gets the last index when its dependencies are in
the table, so each of them is in front of it or has been handed out.
-/

namespace P2Panda.Stream.CausalOrderer

open P2Panda.Library P2Panda.Store OrdererStore List

variable {ID D : Type} [LinearOrder ID]

/-! ## Taking items from the queue -/

section Drain

variable {s : OrdererStore ID D}

theorem drain_eq_take (h : s.Indexed) (n : Nat) : (drain n s).1 = s.queue.take n := by
  induction n generalizing s with
  | zero => rfl
  | succ n ih =>
    cases hq : s.queueRows with
    | nil =>
      rw [drain, next, takeNextReady_of_nil hq, queue, hq]
      rfl
    | cons row rest =>
      have hrest := ih h.takeNextReady
      rw [queue, queueRows_takeNextReady h hq] at hrest
      rw [drain, next, takeNextReady_eq hq, queue, hq]
      exact congrArg (row.id :: ·) hrest

theorem pendingRows_drain (n : Nat) : (drain n s).2.pendingRows = s.pendingRows := by
  induction n generalizing s with
  | zero => rfl
  | succ n ih =>
    cases hq : s.queueRows with
    | nil => rw [drain, next, takeNextReady_of_nil hq]
    | cons row rest =>
      rw [drain, next, takeNextReady_eq hq]
      exact ih.trans (takeNextReady_of_cons hq).2.1

end Drain

/-! ## The order of the queue -/

/-- What has left the queue has been handed out, and an item comes after its dependencies. -/
structure Queued (deps : ID → List ID) (out : List ID) (s : OrdererStore ID D) : Prop where
  indexed : s.Indexed
  ready : ∀ k ∈ out, k ∈ s.readyIds
  taken : ∀ row ∈ s.readyRows.rows, row.inQueue = false → row.id ∈ out
  after : ∀ row ∈ s.readyRows.rows, ∀ d ∈ deps row.id, d ∈ out ∨
    ∃ row' ∈ s.readyRows.rows, row'.id = d ∧ row'.queueIndex < row.queueIndex

namespace Queued

variable {deps : ID → List ID} {out : List ID} {s s' : OrdererStore ID D} {k : ID}

omit [LinearOrder ID] in
theorem empty : Queued deps [] (.empty : OrdererStore ID D) := by
  constructor <;> simp [OrdererStore.empty, Indexed]

omit [LinearOrder ID] in
theorem of_readyRows (h : Queued deps out s) (hrows : s'.readyRows = s.readyRows) :
    Queued deps out s' := by
  cases s'
  cases hrows
  exact ⟨h.indexed, h.ready, h.taken, h.after⟩

theorem markReady_of_notMem (h : Queued deps out s) (hk : k ∉ s.readyIds)
    (hmet : ∀ d ∈ deps k, d ∈ s.readyIds) : Queued deps out (s.markReady k).1 := by
  have hrows := rows_markReady_of_notMem hk
  refine ⟨h.indexed.markReady k, ?_, ?_, ?_⟩
  · intro k' hk'
    rw [readyIds_markReady_of_notMem hk]
    exact mem_append_left _ (h.ready k' hk')
  · intro row hrow hout
    rw [hrows, mem_append, mem_singleton] at hrow
    rcases hrow with hrow | rfl
    · exact h.taken row hrow hout
    · cases hout
  · intro row hrow d hd
    rw [hrows] at hrow ⊢
    rw [mem_append, mem_singleton] at hrow
    rcases hrow with hrow | rfl
    · rcases h.after row hrow d hd with hout | ⟨row', hrow', hid, hlt⟩
      · exact Or.inl hout
      · exact Or.inr ⟨row', mem_append_left _ hrow', hid, hlt⟩
    · obtain ⟨row', hrow', hid⟩ := mem_map.mp (hmet d hd)
      exact Or.inr ⟨row', mem_append_left _ hrow', hid,
        Nat.lt_succ_of_le (queueIndex_le_lastIndex hrow')⟩

/-- An item is queued again only when it has been handed out, so that no other item has to wait for
it. -/
theorem markReady_of_mem (h : Queued deps out s) (hk : k ∈ s.readyIds) :
    Queued deps out (s.markReady k).1 := by
  rcases rows_markReady_of_mem hk with heq | ⟨⟨row, hrow, rfl, hleft⟩, hrows⟩
  · rw [heq]
    exact h
  have hout := h.taken row hrow hleft
  refine ⟨h.indexed.markReady row.id, ?_, ?_, ?_⟩
  · rw [readyIds_markReady_of_mem hk]
    exact h.ready
  · intro row' hrow' hleft'
    rw [hrows, mem_map] at hrow'
    obtain ⟨old, hold, rfl⟩ := hrow'
    split at hleft'
    · cases hleft'
    · rename_i hne
      rw [if_neg hne]
      exact h.taken old hold hleft'
  · intro row' hrow' d hd
    rw [hrows] at hrow' ⊢
    obtain ⟨old, hold, rfl⟩ := mem_map.mp hrow'
    by_cases hdk : d = row.id
    · exact Or.inl (hdk ▸ hout)
    have hdeps : d ∈ deps old.id := by
      split at hd
      · exact hd
      · exact hd
    rcases h.after old hold d hdeps with hmem | ⟨older, holder, rfl, hlt⟩
    · exact Or.inl hmem
    · right
      refine ⟨older, mem_map.mpr ⟨older, holder, if_neg hdk⟩, rfl, ?_⟩
      have hle := queueIndex_le_lastIndex holder
      split
      · exact Nat.lt_succ_of_le hle
      · exact hlt

theorem markAllReady {ks : List ID} (h : Queued deps out s) (hks : Unlocks deps s.readyIds ks) :
    Queued deps out (markAllReady s ks) := by
  induction ks generalizing s with
  | nil => exact h
  | cons k ks ih =>
    cases hks with
    | cons new met rest =>
      apply ih (h.markReady_of_notMem new met)
      rw [readyIds_markReady_of_notMem new]
      exact rest

theorem takeNextReady (h : Queued deps out s) {row : ReadyRow ID} {rest : List (ReadyRow ID)}
    (hq : s.queueRows = row :: rest) :
    (∀ d ∈ deps row.id, d ∈ out) ∧ Queued deps (out ++ [row.id]) s.takeNextReady.1 := by
  have hrow := mem_queueRows.mp (hq ▸ mem_cons_self)
  have hsort := pairwise_queueRows h.indexed
  rw [hq, pairwise_cons] at hsort
  have hrows := (takeNextReady_of_cons hq).2.2
  constructor
  · intro d hd
    rcases h.after row hrow.1 d hd with hout | ⟨row', hrow', rfl, hlt⟩
    · exact hout
    · apply h.taken row' hrow'
      -- In the queue it would have been the one in front.
      by_contra hin
      rw [Bool.not_eq_false] at hin
      have hmem := mem_queueRows.mpr ⟨hrow', hin⟩
      rw [hq] at hmem
      rcases mem_cons.mp hmem with rfl | hmem
      · exact lt_irrefl _ hlt
      · exact lt_asymm hlt (hsort.1 row' hmem)
  · refine ⟨h.indexed.takeNextReady, ?_, ?_, ?_⟩
    · intro k hk
      rw [readyIds_takeNextReady]
      rcases mem_append.mp hk with hk | hk
      · exact h.ready k hk
      · rw [mem_singleton] at hk
        subst hk
        exact mem_map_of_mem hrow.1
    · intro row' hrow' hleft
      rw [hrows, mem_map] at hrow'
      obtain ⟨old, hold, rfl⟩ := hrow'
      rw [mem_append, mem_singleton]
      split at hleft
      · rename_i heq
        rw [if_pos heq]
        exact Or.inr heq
      · rename_i hne
        rw [if_neg hne]
        exact Or.inl (h.taken old hold hleft)
    · intro row' hrow' d hd
      rw [hrows] at hrow' ⊢
      obtain ⟨old, hold, rfl⟩ := mem_map.mp hrow'
      have hdeps : d ∈ deps old.id := by
        split at hd
        · exact hd
        · exact hd
      rcases h.after old hold d hdeps with hmem | ⟨older, holder, rfl, hlt⟩
      · exact Or.inl (mem_append_left _ hmem)
      · right
        refine ⟨_, mem_map.mpr ⟨older, holder, rfl⟩, ?_, ?_⟩
        · split
          · rfl
          · rfl
        · split
          · split
            · exact hlt
            · exact hlt
          · split
            · exact hlt
            · exact hlt

end Queued

/-! ## What holds after every run -/

section Sound

variable {digest : ID → List ID → D} {deps : ID → List ID} {s : OrdererStore ID D} {out : List ID}

def Ordered (deps : ID → List ID) (out : List ID) : Prop :=
  ∀ before k after, out = before ++ k :: after → ∀ d ∈ deps k, d ∈ before

omit [LinearOrder ID] in
theorem Ordered.concat {k : ID} (h : Ordered deps out) (hk : ∀ d ∈ deps k, d ∈ out) :
    Ordered deps (out ++ [k]) := by
  intro before k' after heq
  rcases eq_nil_or_concat after with rfl | ⟨after, last, rfl⟩
  · obtain ⟨rfl, hlast⟩ := append_inj' heq rfl
    rw [List.cons.injEq] at hlast
    exact hlast.1 ▸ hk
  · rw [concat_eq_append, ← cons_append, ← append_assoc] at heq
    exact h before k' after (append_inj' heq rfl).1

theorem Consistent.takeNextReady (h : Consistent digest deps (fun _ => False) s) :
    Consistent digest deps (fun _ => False) s.takeNextReady.1 := by
  cases hq : s.queueRows with
  | nil =>
    rw [takeNextReady_of_nil hq]
    exact h
  | cons row rest =>
    have hpend := (takeNextReady_of_cons hq).2.1
    have hwt : ∀ {i c}, s.takeNextReady.1.Waits i c ↔ s.Waits i c := by
      intro i c
      rw [OrdererStore.Waits, hpend, OrdererStore.Waits]
    constructor
    · exact h.tabled.of_pendingRows hpend
    · rw [readyIds_takeNextReady]
      exact h.closed
    · intro i c d hw hd hunr
      rw [readyIds_takeNextReady] at hunr
      rw [hwt] at hw ⊢
      exact h.unmet hw hd hunr
    · intro i c hw hi
      rw [readyIds_takeNextReady] at hi
      exact h.waits_ready (hwt.mp hw) hi

structure Sound (digest : ID → List ID → D) (deps : ID → List ID) (s : OrdererStore ID D)
    (out : List ID) : Prop where
  consistent : Consistent digest deps (fun _ => False) s
  queued : Queued deps out s
  ordered : Ordered deps out

theorem Sound.next (h : Sound digest deps s out) :
    Sound digest deps (next s).1 (out ++ (next s).2.toList) := by
  unfold CausalOrderer.next
  cases hq : s.queueRows with
  | nil =>
    rw [takeNextReady_of_nil hq, Option.toList_none, append_nil]
    exact h
  | cons row rest =>
    have htake := h.queued.takeNextReady hq
    rw [takeNextReady_eq hq]
    exact ⟨h.consistent.takeNextReady, htake.2, h.ordered.concat htake.1⟩

end Sound

/-! ## Runs -/

variable [DecidableEq D] (digest : ID → List ID → D) (deps : ID → List ID)

/-- Calls of `process` and `next` in any order, from an empty store, and what they yielded. An item
has the same dependencies each time. -/
inductive Run : OrdererStore ID D → List ID → Prop
  | init : Run OrdererStore.empty []
  | process {s s' : OrdererStore ID D} {out : List ID} {ready : Bool} (run : Run s out)
      (order : ID → HashOrder (ID × List ID)) (key : ID)
      (result : process digest order s key (deps key) = some (s', ready)) : Run s' out
  | next {s : OrdererStore ID D} {out : List ID} (run : Run s out) :
      Run (next s).1 (out ++ (next s).2.toList)

variable {digest deps} {s : OrdererStore ID D} {out : List ID} {key : ID}
  {r : OrdererStore ID D × Bool}

theorem Processed.queued (h : Processed digest deps s key r) (hs : Queued deps out s) :
    Queued deps out r.1 := by
  cases h with
  | pending => exact hs.of_readyRows rfl
  | again hrdy _ => exact hs.markReady_of_mem hrdy
  | released new met releases =>
    exact ((hs.markReady_of_notMem new met).markAllReady releases.unlocks).of_readyRows
      releases.readyRows

theorem Sound.process (h : Sound digest deps s out) {order : ID → HashOrder (ID × List ID)}
    (hrun : process digest order s key (deps key) = some r) :
    Processed digest deps s key r ∧ Sound digest deps r.1 out := by
  obtain ⟨r', hrun', hprocd⟩ := process_spec h.consistent order key
  cases hrun.symm.trans hrun'
  exact ⟨hprocd, hprocd.consistent h.consistent, hprocd.queued h.queued, h.ordered⟩

theorem Run.sound (h : Run digest deps s out) : Sound digest deps s out := by
  induction h with
  | init =>
    refine ⟨.empty, .empty, ?_⟩
    intro before k after heq
    simp at heq
  | process run order key result ih => exact (ih.process result).2
  | next run ih => exact ih.next

theorem Processed.again_spec (h : Processed digest deps s key r)
    (hs : Consistent digest deps (fun _ => False) s) (hidx : s.Indexed) (hrdy : key ∈ s.readyIds) :
    (r.1.queue = s.queue ∨ r.1.queue = s.queue ++ [key]) ∧ r.1.readyIds = s.readyIds ∧
      ∀ i c, r.1.Waits i c ↔ s.Waits i c := by
  cases h with
  | pending =>
    refine ⟨Or.inl rfl, rfl, fun i c => ?_⟩
    rw [waits_markPending]
    constructor
    · rintro (hw | ⟨-, hi, hunr⟩)
      · exact hw
      · exact absurd (hs.closed key hrdy i hi) hunr
    · exact Or.inl
  | again =>
    exact ⟨queue_markReady_of_mem hidx hrdy, readyIds_markReady_of_mem hrdy,
      fun i c => waits_markReady key i c⟩
  | released new => exact absurd hrdy new

/-- An item was yielded after its dependencies. To process a yielded item again changes nothing but
that it may be yielded once more, after all that would have been yielded without. -/
theorem yielded_after_dependencies (h : Run digest deps s out) :
    (∀ before k after, out = before ++ k :: after → ∀ d ∈ deps k, d ∈ before) ∧
      ∀ order, ∀ k ∈ out, ∃ s' ready, process digest order s k (deps k) = some (s', ready) ∧
        s'.readyIds = s.readyIds ∧ (∀ i c, s'.Waits i c ↔ s.Waits i c) ∧
        ∃ items again, (again = [] ∨ again = [k]) ∧
          ∀ n, (drain n s).1 = items.take n ∧ (drain n s').1 = (items ++ again).take n := by
  have hsound := h.sound
  refine ⟨hsound.ordered, fun order k hk => ?_⟩
  obtain ⟨⟨s', ready⟩, hrun, hprocd⟩ := process_spec hsound.consistent order k
  have hagain := hprocd.again_spec hsound.consistent hsound.queued.indexed
    (hsound.queued.ready k hk)
  have hdrain := drain_eq_take (hprocd.queued hsound.queued).indexed
  refine ⟨s', ready, hrun, hagain.2.1, hagain.2.2, s.queue, ?_⟩
  rcases hagain.1 with hq | hq
  · refine ⟨[], Or.inl rfl, fun n => ⟨drain_eq_take hsound.queued.indexed n, ?_⟩⟩
    rw [hdrain, hq, append_nil]
  · refine ⟨[k], Or.inr rfl, fun n => ⟨drain_eq_take hsound.queued.indexed n, ?_⟩⟩
    rw [hdrain, hq]

/-- Item `2` depends on item `1`. -/
def pairDeps : Nat → List Nat
  | 2 => [1]
  | _ => []

/-- Item `2` arrives first, and comes out second. -/
theorem yielded_after_dependencies_pair :
    ∃ s, Run (fun child _ => child) pairDeps s [1, 2] ∧
      ∀ before k after, [1, 2] = before ++ k :: after → ∀ d ∈ pairDeps k, d ∈ before := by
  let order : Nat → HashOrder (Nat × List Nat) := fun _ =>
    HashOrder.increasing Encodable.encode Encodable.encode_injective
  have hinit : Run (fun child _ => child) pairDeps _ _ := .init
  have hpend := hinit.process order 2 rfl
  have hrdy := hpend.process order 1 rfl
  have hrun : Run (fun child _ => child) pairDeps _ [1, 2] := hrdy.next.next
  exact ⟨_, hrun, (yielded_after_dependencies hrun).1⟩

end P2Panda.Stream.CausalOrderer
