import P2Panda.Stream.Orderer.CausalOrderer

/-!
# What becomes ready together with an item

A walk over the pending rows looks for the items that become ready together. Rows are deleted after
the walk below has come back, so the items on the way down are "open": ready, but with their rows.
-/

namespace P2Panda.Stream.CausalOrderer

open P2Panda.Library P2Panda.Store OrdererStore Relation List TransGen

variable {ID D : Type}

def DependsOn (deps : ID → List ID) (a b : ID) : Prop := b ∈ deps a

/-- Items become ready one after another: each is new, and finds its dependencies ready. -/
inductive Unlocks (deps : ID → List ID) : List ID → List ID → Prop
  | nil (ready : List ID) : Unlocks deps ready []
  | cons {ready ks : List ID} {k : ID} (new : k ∉ ready) (met : ∀ d ∈ deps k, d ∈ ready)
      (rest : Unlocks deps (ready ++ [k]) ks) : Unlocks deps ready (k :: ks)

namespace Unlocks

variable {deps : ID → List ID} {ready ks ks' : List ID} {k : ID}

theorem append (h : Unlocks deps ready ks) (h' : Unlocks deps (ready ++ ks) ks') :
    Unlocks deps ready (ks ++ ks') := by
  induction h with
  | nil => simpa using h'
  | cons new met _ ih =>
    apply Unlocks.cons new met
    apply ih
    simpa using h'

theorem notMem (h : Unlocks deps ready ks) (hk : k ∈ ks) : k ∉ ready := by
  induction h with
  | nil => simp at hk
  | cons new _ _ ih =>
    rcases mem_cons.mp hk with rfl | hk
    · exact new
    · intro hrdy
      exact ih hk (mem_append_left _ hrdy)

theorem closed (h : Unlocks deps ready ks) (hrdy : ∀ k ∈ ready, ∀ d ∈ deps k, d ∈ ready) :
    ∀ k ∈ ready ++ ks, ∀ d ∈ deps k, d ∈ ready ++ ks := by
  induction h with
  | nil => simpa using hrdy
  | @cons ready ks k _ met _ ih =>
    rw [append_cons]
    apply ih
    rw [forall_mem_append, forall_mem_singleton]
    exact ⟨fun k' hk' d hd => mem_append_left _ (hrdy k' hk' d hd),
      fun d hd => mem_append_left _ (met d hd)⟩

end Unlocks

theorem readyIds_congr {s t : OrdererStore ID D} (h : s.readyRows = t.readyRows) :
    s.readyIds = t.readyIds := by
  rw [readyIds, readyIds, h]

variable [LinearOrder ID]

def markAllReady (s : OrdererStore ID D) (ks : List ID) : OrdererStore ID D :=
  ks.foldl (fun s k => (s.markReady k).1) s

section MarkAllReady

variable {s t : OrdererStore ID D}

theorem readyRows_markReady_congr (h : s.readyRows = t.readyRows) (k : ID) :
    (s.markReady k).1.readyRows = (t.markReady k).1.readyRows := by
  unfold markReady lastIndex
  rw [h]
  cases t.readyRows.find? k with
  | none => rfl
  | some row =>
    dsimp only
    split
    · exact h
    · rfl

theorem readyRows_markAllReady_congr (h : s.readyRows = t.readyRows) (ks : List ID) :
    (markAllReady s ks).readyRows = (markAllReady t ks).readyRows := by
  induction ks generalizing s t with
  | nil => exact h
  | cons k ks ih => exact ih (readyRows_markReady_congr h k)

theorem markAllReady_append (ks ks' : List ID) :
    markAllReady s (ks ++ ks') = markAllReady (markAllReady s ks) ks' :=
  foldl_append

theorem Unlocks.readyIds {deps : ID → List ID} {ks : List ID} (h : Unlocks deps s.readyIds ks) :
    (markAllReady s ks).readyIds = s.readyIds ++ ks := by
  induction ks generalizing s with
  | nil => simp [markAllReady]
  | cons k ks ih =>
    cases h with
    | cons new _ rest =>
      have hids := readyIds_markReady_of_notMem new
      rw [← hids] at rest
      show (markAllReady (s.markReady k).1 ks).readyIds = _
      rw [ih rest, hids, append_assoc]
      rfl

end MarkAllReady

variable (digest : ID → List ID → D) (deps : ID → List ID)

/-- The tables while the walk is below the `opened` items; between two calls nothing is open. -/
structure Consistent (opened : ID → Prop) (s : OrdererStore ID D) : Prop where
  tabled : s.Tabled digest deps
  closed : ∀ k ∈ s.readyIds, ∀ d ∈ deps k, d ∈ s.readyIds
  unmet : ∀ {i c d}, s.Waits i c → d ∈ deps c → d ∉ s.readyIds → s.Waits d c
  waits_ready : ∀ {i c}, s.Waits i c → i ∈ s.readyIds → opened i

/-- The walk below `key` is about to begin. -/
structure Entered (opened : ID → Prop) (key : ID) (s : OrdererStore ID D) : Prop extends
    Consistent digest deps (fun i => opened i ∨ i = key) s where
  ready_key : key ∈ s.readyIds
  waits_key : ∀ {c}, s.Waits key c → c ∉ s.readyIds
  below : ∀ {x}, opened x → TransGen (DependsOn deps) key x

/-- An item is given up when two of its dependencies became ready on the same way down: the rows of
the upper one are still there when the lower one looks for items that only wait for itself. -/
def Nested (opened : ID → Prop) (s : OrdererStore ID D) (ks : List ID) (c : ID) : Prop :=
  ∃ x y, s.Waits x c ∧ s.Waits y c ∧ TransGen (DependsOn deps) y x ∧ (opened x ∨ x ∈ ks) ∧ y ∈ ks

/-- The walk below `key` has marked `ks` as ready, and has deleted the rows of `key` and of `ks`. -/
structure Releases (opened : ID → Prop) (key : ID) (ks : List ID) (s s' : OrdererStore ID D) :
    Prop where
  readyRows : s'.readyRows = (markAllReady s ks).readyRows
  pendingRows : s'.pendingRows.rows = s.pendingRows.rows.filter fun row => row.id ∉ key :: ks
  unlocks : Unlocks deps s.readyIds ks
  depends : ∀ k ∈ ks, TransGen (DependsOn deps) k key
  waited : ∀ k ∈ ks, ∃ i ∈ key :: ks, s.Waits i k
  blocked : ∀ {c i}, c ∉ s'.readyIds → i ∈ key :: ks → s.Waits i c →
    (∃ d, s.Waits d c ∧ d ∉ s'.readyIds) ∨ Nested deps opened s (key :: ks) c

/-- The loop over the dependents of `key` has visited `done`. -/
structure Progress (opened : ID → Prop) (key : ID) (done ks : List ID) (s t : OrdererStore ID D) :
    Prop where
  readyRows : t.readyRows = (markAllReady s ks).readyRows
  pendingRows : t.pendingRows.rows = s.pendingRows.rows.filter fun row => row.id ∉ ks
  unlocks : Unlocks deps s.readyIds ks
  depends : ∀ k ∈ ks, TransGen (DependsOn deps) k key
  waited : ∀ k ∈ ks, k ∈ done ∨ ∃ i ∈ ks, s.Waits i k
  visited : ∀ c ∈ done, (∀ j, s.Waits j c → j = key) → c ∈ ks
  blocked : ∀ {c i}, c ∉ t.readyIds → i ∈ ks → s.Waits i c →
    (∃ d, s.Waits d c ∧ d ∉ t.readyIds) ∨ Nested deps opened s (key :: ks) c

variable {digest deps} {opened : ID → Prop} {key : ID} {done ks : List ID}
variable {s s' t : OrdererStore ID D} {opened' : ID → Prop} {c : ID}

theorem waits_of_rows {ks : List ID} {i c : ID}
    (h : t.pendingRows.rows = s.pendingRows.rows.filter fun row => row.id ∉ ks) :
    t.Waits i c ↔ s.Waits i c ∧ i ∉ ks := by
  simp only [OrdererStore.Waits, h, mem_filter, decide_eq_true_eq]
  constructor
  · rintro ⟨row, ⟨hrow, hks⟩, rfl, rfl⟩
    exact ⟨⟨row, hrow, rfl, rfl⟩, hks⟩
  · rintro ⟨⟨row, hrow, rfl, rfl⟩, hks⟩
    exact ⟨row, ⟨hrow, hks⟩, rfl, rfl⟩

theorem Releases.readyIds (h : Releases deps opened key ks s s') : s'.readyIds = s.readyIds ++ ks :=
  (readyIds_congr h.readyRows).trans h.unlocks.readyIds

theorem Releases.waits_iff (h : Releases deps opened key ks s s') {i c : ID} :
    s'.Waits i c ↔ s.Waits i c ∧ i ∉ key :: ks :=
  waits_of_rows h.pendingRows

/-- When `ks` became ready and all rows for the items in `gone` went, with `ks` among them. -/
theorem Consistent.release (hs : Consistent digest deps opened s) (gone : List ID)
    (hunlocks : Unlocks deps s.readyIds ks) (hrdy : t.readyIds = s.readyIds ++ ks)
    (hrows : t.pendingRows.rows = s.pendingRows.rows.filter fun row => row.id ∉ gone)
    (hgone : ∀ i ∈ gone, i ∈ s.readyIds ++ ks) (hks : ∀ k ∈ ks, k ∈ gone)
    (hopened : ∀ i, opened i → i ∉ gone → opened' i) : Consistent digest deps opened' t where
  tabled := hs.tabled.filter (p := fun i => i ∉ gone) hrows
  closed := by
    rw [hrdy]
    exact hunlocks.closed hs.closed
  unmet := by
    intro i c d hw hd hunr
    rw [hrdy] at hunr
    rw [waits_of_rows hrows] at hw ⊢
    exact ⟨hs.unmet hw.1 hd fun hmem => hunr (mem_append_left _ hmem),
      fun hmem => hunr (hgone d hmem)⟩
  waits_ready := by
    intro i c hw hi
    rw [waits_of_rows hrows] at hw
    rw [hrdy, mem_append] at hi
    exact hopened i (hs.waits_ready hw.1 (hi.resolve_right fun hmem => hw.2 (hks i hmem))) hw.2

/-- After the walk below `key`, what is open is what was open before. -/
theorem Releases.consistent (h : Releases deps opened key ks s s')
    (hs : Entered digest deps opened key s) : Consistent digest deps opened s' := by
  apply hs.release (key :: ks) h.unlocks h.readyIds h.pendingRows
  · rw [forall_mem_cons]
    exact ⟨mem_append_left _ hs.ready_key, fun i hi => mem_append_right _ hi⟩
  · exact fun k hk => mem_cons_of_mem _ hk
  · intro i hi hgone
    exact hi.resolve_right fun hkey => hgone (hkey ▸ mem_cons_self)

theorem Consistent.entered (hs : Consistent digest deps opened s) {key : ID}
    (hnew : key ∉ s.readyIds) (hmet : ∀ d ∈ deps key, d ∈ s.readyIds)
    (hbelow : ∀ {x}, opened x → TransGen (DependsOn deps) key x) :
    Entered digest deps opened key (s.markReady key).1 := by
  have hids := readyIds_markReady_of_notMem hnew
  constructor
  · constructor
    · exact hs.tabled.of_pendingRows (pendingRows_markReady key)
    · intro k hk d hd
      rw [hids, mem_append, mem_singleton] at hk ⊢
      rcases hk with hk | rfl
      · exact Or.inl (hs.closed k hk d hd)
      · exact Or.inl (hmet d hd)
    · intro i c d hw hd hrdy
      rw [waits_markReady] at hw ⊢
      rw [hids, mem_append, not_or] at hrdy
      exact hs.unmet hw hd hrdy.1
    · intro i c hw hi
      rw [waits_markReady] at hw
      rw [hids, mem_append, mem_singleton] at hi
      rcases hi with hi | hi
      · exact Or.inl (hs.waits_ready hw hi)
      · exact Or.inr hi
  · rw [hids]
    simp
  · intro c hw
    rw [waits_markReady] at hw
    have hdep : key ∈ deps c := hs.tabled.mem_deps hw
    rw [hids, mem_append, mem_singleton, not_or]
    constructor
    · intro hrdy
      exact hnew (hs.closed c hrdy key hdep)
    · rintro rfl
      exact hnew (hmet c hdep)
  · exact hbelow

theorem Progress.start : Progress deps opened key [] [] s s where
  readyRows := rfl
  pendingRows := by simp
  unlocks := .nil _
  depends := by simp
  waited := by simp
  visited := by simp
  blocked := by simp

omit [LinearOrder ID] in
theorem Nested.mono {ks' : List ID} (h : Nested deps opened t ks c)
    (hwt : ∀ {i}, t.Waits i c → s.Waits i c) (hopened : ∀ {x}, opened x → opened' x ∨ x ∈ ks')
    (hks : ∀ k ∈ ks, k ∈ ks') :
    Nested deps opened' s ks' c := by
  obtain ⟨x, y, hx, hy, hdep, hxs, hys⟩ := h
  refine ⟨x, y, hwt hx, hwt hy, hdep, ?_, hks y hys⟩
  rcases hxs with hxs | hxs
  · exact hopened hxs
  · exact Or.inr (hks x hxs)

def unreadyChildren (s : OrdererStore ID D) : Finset ID :=
  (s.pendingRows.rows.map PendingRow.childId).toFinset \ s.readyIds.toFinset

theorem mem_unreadyChildren : c ∈ unreadyChildren s ↔ (∃ i, s.Waits i c) ∧ c ∉ s.readyIds := by
  simp only [unreadyChildren, Finset.mem_sdiff, mem_toFinset, mem_map, OrdererStore.Waits]
  apply and_congr_left
  intro _
  constructor
  · rintro ⟨row, hrow, rfl⟩
    exact ⟨row.id, row, hrow, rfl, rfl⟩
  · rintro ⟨_, row, hrow, -, rfl⟩
    exact ⟨row, hrow, rfl⟩

theorem card_unreadyChildren_le (s : OrdererStore ID D) :
    (unreadyChildren s).card ≤ s.pendingRows.rows.length :=
  calc (unreadyChildren s).card ≤ (s.pendingRows.rows.map PendingRow.childId).toFinset.card :=
        Finset.card_le_card Finset.sdiff_subset
    _ ≤ (s.pendingRows.rows.map PendingRow.childId).length := toFinset_card_le _
    _ = s.pendingRows.rows.length := length_map _

section Progress

variable (h : Progress deps opened key done ks s t)
include h

theorem Progress.readyIds : t.readyIds = s.readyIds ++ ks :=
  (readyIds_congr h.readyRows).trans h.unlocks.readyIds

theorem Progress.waits_iff {i c : ID} : t.Waits i c ↔ s.Waits i c ∧ i ∉ ks :=
  waits_of_rows h.pendingRows

theorem Progress.card_lt (hc : s.Waits key c) (hnew : c ∉ t.readyIds) :
    (unreadyChildren (t.markReady c).1).card < (unreadyChildren s).card := by
  have hids := readyIds_markReady_of_notMem hnew
  have hs : c ∉ s.readyIds := by
    intro hmem
    apply hnew
    rw [h.readyIds]
    exact mem_append_left _ hmem
  apply Finset.card_lt_card
  rw [Finset.ssubset_iff_of_subset]
  · refine ⟨c, mem_unreadyChildren.mpr ⟨⟨key, hc⟩, hs⟩, fun hmem => ?_⟩
    apply (mem_unreadyChildren.mp hmem).2
    rw [hids]
    simp
  · intro c' hc'
    obtain ⟨⟨i, hw⟩, hrdy⟩ := mem_unreadyChildren.mp hc'
    rw [waits_markReady, h.waits_iff] at hw
    rw [hids, h.readyIds, mem_append, mem_append, not_or, not_or] at hrdy
    exact mem_unreadyChildren.mpr ⟨⟨i, hw.1⟩, hrdy.1.1⟩

theorem Progress.skip (hc : ¬∀ j, s.Waits j c → j = key) :
    Progress deps opened key (done ++ [c]) ks s t :=
  { h with
    waited := fun k hk => (h.waited k hk).imp_left (mem_append_left _)
    visited := forall_mem_append.mpr
      ⟨h.visited, forall_mem_singleton.mpr fun hsole => absurd hsole hc⟩ }

variable (hs : Entered digest deps opened key s)
include hs

theorem Progress.notMem (hc : s.Waits key c) (hnew : c ∉ done)
    (hsole : ∀ j, s.Waits j c → j = key) :
    c ∉ t.readyIds := by
  rw [h.readyIds, mem_append, not_or]
  refine ⟨hs.waits_key hc, fun hmem => ?_⟩
  rcases h.waited c hmem with hdone | ⟨i, hi, hw⟩
  · exact hnew hdone
  · have hkey := hsole i hw
    subst hkey
    exact h.unlocks.notMem hi hs.ready_key

theorem Progress.entered (hc : s.Waits key c) (hnew : c ∉ t.readyIds)
    (hmet : ∀ d ∈ deps c, d ∈ t.readyIds) :
    Entered digest deps (fun i => opened i ∨ i = key) c (t.markReady c).1 := by
  have hkey : DependsOn deps c key := hs.tabled.mem_deps hc
  have ht : Consistent digest deps (fun i => opened i ∨ i = key) t :=
    hs.release ks h.unlocks h.readyIds h.pendingRows (fun k hk => mem_append_right _ hk)
      (fun _ hk => hk) fun _ hi _ => hi
  apply ht.entered hnew hmet
  rintro x (hx | rfl)
  · exact head hkey (hs.below hx)
  · exact single hkey

theorem Progress.extend {ks' : List ID} (hc : s.Waits key c) (hnew : c ∉ t.readyIds)
    (hmet : ∀ d ∈ deps c, d ∈ t.readyIds)
    (hrec : Releases deps (fun i => opened i ∨ i = key) c ks' (t.markReady c).1 s') :
    Progress deps opened key (done ++ [c]) (ks ++ c :: ks') s s' := by
  have hids := readyIds_markReady_of_notMem hnew
  have hkey : DependsOn deps c key := hs.tabled.mem_deps hc
  have hunlocks : Unlocks deps s.readyIds (ks ++ c :: ks') := by
    apply h.unlocks.append
    rw [← h.readyIds]
    apply Unlocks.cons hnew hmet
    rw [← hids]
    exact hrec.unlocks
  have hnotMem : ∀ k ∈ c :: ks', k ∉ ks := by
    intro k hk hks
    have hrdy : k ∈ t.readyIds := by
      rw [h.readyIds]
      exact mem_append_right _ hks
    rcases mem_cons.mp hk with rfl | hk
    · exact hnew hrdy
    · apply hrec.unlocks.notMem hk
      rw [hids]
      exact mem_append_left _ hrdy
  have hrdy : s'.readyIds = t.readyIds ++ c :: ks' := by
    rw [hrec.readyIds, hids, append_assoc]
    rfl
  have hwt : ∀ {i c'}, (t.markReady c).1.Waits i c' ↔ s.Waits i c' ∧ i ∉ ks := by
    intro i c'
    rw [waits_markReady, h.waits_iff]
  -- What the walk below `c` says of an item carries over to the whole loop.
  have hblk : ∀ {c' i}, c' ∉ s'.readyIds → i ∈ c :: ks' → s.Waits i c' →
      (∃ d, s.Waits d c' ∧ d ∉ s'.readyIds) ∨
        Nested deps opened s (key :: (ks ++ c :: ks')) c' := by
    intro c' i hc' hi hw
    rcases hrec.blocked hc' hi (hwt.mpr ⟨hw, hnotMem i hi⟩) with ⟨d, hd, hunr⟩ | hnest
    · exact Or.inl ⟨d, (hwt.mp hd).1, hunr⟩
    · right
      apply hnest.mono (fun hw => (hwt.mp hw).1)
      · rintro x (hx | rfl)
        · exact Or.inl hx
        · exact Or.inr mem_cons_self
      · intro k hk
        exact mem_cons_of_mem _ (mem_append_right _ hk)
  constructor
  · rw [hrec.readyRows, markAllReady_append]
    exact readyRows_markAllReady_congr (readyRows_markReady_congr h.readyRows c) ks'
  · rw [hrec.pendingRows, pendingRows_markReady, h.pendingRows, filter_filter]
    apply filter_congr
    intro row _
    simp only [mem_append, not_or, Bool.decide_and]
    exact Bool.and_comm _ _
  · exact hunlocks
  · rw [forall_mem_append, forall_mem_cons]
    exact ⟨h.depends, single hkey, fun k hk => tail (hrec.depends k hk) hkey⟩
  · rw [forall_mem_append, forall_mem_cons]
    refine ⟨fun k hk => ?_, Or.inl (by simp), fun k hk => ?_⟩
    · rcases h.waited k hk with hdone | ⟨i, hi, hw⟩
      · exact Or.inl (mem_append_left _ hdone)
      · exact Or.inr ⟨i, mem_append_left _ hi, hw⟩
    · obtain ⟨i, hi, hw⟩ := hrec.waited k hk
      exact Or.inr ⟨i, mem_append_right _ hi, (hwt.mp hw).1⟩
  · rw [forall_mem_append]
    exact ⟨fun c' hdone hsole => mem_append_left _ (h.visited c' hdone hsole), by simp⟩
  · intro c' i hc' hi hw
    rcases mem_append.mp hi with hi | hi
    · have hc0 : c' ∉ t.readyIds := by
        intro hmem
        rw [hrdy] at hc'
        exact hc' (mem_append_left _ hmem)
      rcases h.blocked hc0 hi hw with ⟨d, hd, hunr⟩ | hnest
      · -- The dependency it waited for may have become ready since.
        by_cases hd' : d ∈ s'.readyIds
        · rw [hrdy] at hd'
          exact hblk hc' ((mem_append.mp hd').resolve_left hunr) hd
        · exact Or.inl ⟨d, hd, hd'⟩
      · right
        apply hnest.mono id (fun hx => Or.inl hx)
        exact cons_subset_cons _ (subset_append_left ks _)
    · exact hblk hc' hi hw

theorem Progress.finish (hdone : ∀ c, s.Waits key c ↔ c ∈ done) (hrows : s'.readyRows = t.readyRows)
    (hpend : s'.pendingRows.rows = t.pendingRows.rows.filter fun row => row.id ≠ key) :
    Releases deps opened key ks s s' := by
  have hrdy : s'.readyIds = s.readyIds ++ ks := (readyIds_congr hrows).trans h.readyIds
  constructor
  · rw [hrows, h.readyRows]
  · rw [hpend, h.pendingRows, filter_filter]
    apply filter_congr
    simp [mem_cons, not_or]
  · exact h.unlocks
  · exact h.depends
  · intro k hk
    rcases h.waited k hk with hmem | ⟨i, hi, hw⟩
    · exact ⟨key, mem_cons_self, (hdone k).mpr hmem⟩
    · exact ⟨i, mem_cons_of_mem _ hi, hw⟩
  · intro c i hc hi hw
    rcases mem_cons.mp hi with rfl | hi
    · -- `c` was visited in this loop and not marked, so it waits for another item `y`.
      have hnotSole : ¬∀ j, s.Waits j c → j = i := by
        intro hsole
        rw [hrdy] at hc
        exact hc (mem_append_right _ (h.visited c ((hdone c).mp hw) hsole))
      obtain ⟨y, hy, hne⟩ : ∃ y, s.Waits y c ∧ y ≠ i := by
        by_contra hnone
        apply hnotSole
        intro j hj
        by_contra hne
        exact hnone ⟨j, hj, hne⟩
      by_cases hmem : y ∈ s'.readyIds
      · right
        rw [hrdy, mem_append] at hmem
        rcases hmem with hmem | hmem
        · have hopened := (hs.waits_ready hy hmem).resolve_right hne
          exact ⟨y, i, hy, hw, hs.below hopened, Or.inl hopened, mem_cons_self⟩
        · exact ⟨i, y, hw, hy, h.depends y hmem, Or.inr mem_cons_self, mem_cons_of_mem _ hmem⟩
      · exact Or.inl ⟨y, hy, hmem⟩
    · have hids : s'.readyIds = t.readyIds := readyIds_congr hrows
      rw [hids] at hc ⊢
      exact h.blocked hc hi hw

end Progress

theorem Consistent.empty :
    Consistent digest deps (fun _ => False) (OrdererStore.empty (D := D)) where
  tabled := .empty
  closed := by simp [readyIds, OrdererStore.empty]
  unmet := by
    rintro i c d ⟨row, hrow, -⟩
    simp [OrdererStore.empty] at hrow
  waits_ready := by
    rintro i c ⟨row, hrow, -⟩
    simp [OrdererStore.empty] at hrow

variable [DecidableEq D] {recurse : OrdererStore ID D → ID → Option (OrdererStore ID D)}

theorem Progress.step (h : Progress deps opened key done ks s t)
    (hs : Entered digest deps opened key s) (hc : s.Waits key c) (hnew : c ∉ done)
    (hrec : Entered digest deps (fun i => opened i ∨ i = key) c (t.markReady c).1 →
      (unreadyChildren (t.markReady c).1).card < (unreadyChildren s).card →
      ∃ ks' s', recurse (t.markReady c).1 c = some s' ∧
        Releases deps (fun i => opened i ∨ i = key) c ks' (t.markReady c).1 s') :
    ∃ ks' t', processDependent recurse t (c, s.parentIds c (digestOf digest deps c)) = some t' ∧
      Progress deps opened key (done ++ [c]) ks' s t' := by
  have hrdy := hs.tabled.ready_parentIds hc (t := t)
  unfold processDependent
  by_cases hfnd : t.ready (s.parentIds c (digestOf digest deps c)) = true
  · obtain ⟨hsole, hmet⟩ := hrdy.mp hfnd
    have hunr := h.notMem hs hc hnew hsole
    obtain ⟨ks', s', hrun, hrel⟩ := hrec (h.entered hs hc hunr hmet) (h.card_lt hc hunr)
    rw [if_pos hfnd]
    exact ⟨_, s', hrun, h.extend hs hc hunr hmet hrel⟩
  · rw [if_neg hfnd]
    refine ⟨ks, t, rfl, h.skip fun hsole => hfnd (hrdy.mpr ⟨hsole, fun d hd => ?_⟩)⟩
    rw [h.readyIds]
    apply mem_append_left
    -- A dependency that is not met is waited for, and that can only be `key`.
    by_contra hunmet
    have hkey := hsole d (hs.unmet hc hd hunmet)
    subst hkey
    exact hunmet hs.ready_key

theorem Progress.loop (hs : Entered digest deps opened key s)
    (hrec : ∀ {t c}, Entered digest deps (fun i => opened i ∨ i = key) c t →
      (unreadyChildren t).card < (unreadyChildren s).card →
      ∃ ks' s', recurse t c = some s' ∧
        Releases deps (fun i => opened i ∨ i = key) c ks' t s') {items : List (ID × List ID)}
    (hitems : ∀ item ∈ items,
      s.Waits key item.1 ∧ item.2 = s.parentIds item.1 (digestOf digest deps item.1))
    (hnd : (done ++ items.map Prod.fst).Nodup) (h : Progress deps opened key done ks s t) :
    ∃ ks' t', items.foldlM (processDependent recurse) t = some t' ∧
      Progress deps opened key (done ++ items.map Prod.fst) ks' s t' := by
  induction items generalizing done ks t with
  | nil =>
    rw [map_nil, append_nil]
    exact ⟨ks, t, rfl, h⟩
  | cons item items ih =>
    obtain ⟨c, l⟩ := item
    obtain ⟨⟨hc, hl⟩, hothers⟩ := forall_mem_cons.mp hitems
    dsimp only at hc hl
    subst hl
    have hnew : c ∉ done := by
      intro hdone
      rw [nodup_append] at hnd
      exact hnd.2.2 c hdone c (by simp) rfl
    obtain ⟨ks1, t1, hrun, h1⟩ := h.step hs hc hnew hrec
    rw [map_cons, append_cons] at hnd ⊢
    obtain ⟨ks2, t2, hrest, h2⟩ := ih hothers hnd h1
    refine ⟨ks2, t2, ?_, h2⟩
    rw [foldlM_cons, hrun]
    exact hrest

theorem processPending_spec (order : ID → HashOrder (ID × List ID)) (fuel : Nat)
    {opened : ID → Prop} {key : ID} {s : OrdererStore ID D} (hs : Entered digest deps opened key s)
    (hfuel : (unreadyChildren s).card < fuel) :
    ∃ ks s', processPending order fuel s key = some s' ∧ Releases deps opened key ks s s' := by
  induction fuel generalizing opened key s with
  | zero => omega
  | succ fuel ih =>
    unfold processPending
    cases hnext : s.getNextPending key with
    | none =>
      have hnone := getNextPending_eq_none.mp hnext
      refine ⟨[], s, rfl, Progress.start.finish hs (by simpa using hnone) rfl ?_⟩
      symm
      rw [filter_eq_self]
      intro row hrow
      rw [decide_eq_true_eq]
      intro hid
      exact hnone row.childId ⟨row, hrow, hid, rfl⟩
    | some dependents =>
      have hmem : ∀ item, item ∈ (order key).iter dependents ↔
          s.Waits key item.1 ∧ item.2 = s.parentIds item.1 (digestOf digest deps item.1) := by
        intro item
        rw [HashOrder.mem_iter]
        exact hs.tabled.mem_getNextPending hnext
      have hnd : (((order key).iter dependents).map Prod.fst).Nodup := by
        apply List.Nodup.map_on _ ((order key).nodup_iter _)
        intro item1 h1 item2 h2 heq
        apply Prod.ext heq
        rw [((hmem _).mp h1).2, ((hmem _).mp h2).2, heq]
      obtain ⟨ks, t, hrun, hprog⟩ := Progress.loop hs
        (fun hent hlt => ih hent (by omega)) (fun item => (hmem item).mp)
        hnd Progress.start
      refine ⟨ks, (t.removePending key).1, ?_, hprog.finish hs ?_ rfl ?_⟩
      · simp [hrun]
      · intro c
        rw [nil_append, mem_map]
        constructor
        · intro hc
          exact ⟨(c, s.parentIds c (digestOf digest deps c)), (hmem _).mpr ⟨hc, rfl⟩, rfl⟩
        · rintro ⟨item, hitem, rfl⟩
          exact ((hmem item).mp hitem).1
      · simp [removePending, Table.deleteWhere]

theorem Consistent.markPending (hs : Consistent digest deps (fun _ => False) s) (key : ID) :
    Consistent digest deps (fun _ => False) (s.markPending digest key (deps key)).1 where
  tabled := hs.tabled.markPending key
  closed := hs.closed
  unmet := by
    intro i c d hw hd hrdy
    rw [waits_markPending] at hw ⊢
    rcases hw with hw | ⟨rfl, -⟩
    · exact Or.inl (hs.unmet hw hd hrdy)
    · exact Or.inr ⟨rfl, hd, hrdy⟩
  waits_ready := by
    intro i c hw hrdy
    rcases waits_markPending.mp hw with hw | ⟨-, -, hunr⟩
    · exact hs.waits_ready hw hrdy
    · exact hunr hrdy

/-- What a call of `process` can do. An item that is ready has no rows left, so the walk below it
ends at once. -/
inductive Processed (digest : ID → List ID → D) (deps : ID → List ID) (s : OrdererStore ID D)
    (key : ID) : OrdererStore ID D × Bool → Prop
  | pending (unmet : s.ready (deps key) = false) :
      Processed digest deps s key ((s.markPending digest key (deps key)).1, false)
  | again (ready : key ∈ s.readyIds) (met : ∀ d ∈ deps key, d ∈ s.readyIds) :
      Processed digest deps s key ((s.markReady key).1, true)
  | released {ks : List ID} {s' : OrdererStore ID D} (new : key ∉ s.readyIds)
      (met : ∀ d ∈ deps key, d ∈ s.readyIds)
      (releases : Releases deps (fun _ => False) key ks (s.markReady key).1 s') :
      Processed digest deps s key (s', true)

theorem process_spec (hs : Consistent digest deps (fun _ => False) s)
    (order : ID → HashOrder (ID × List ID)) (key : ID) :
    ∃ r, process digest order s key (deps key) = some r ∧ Processed digest deps s key r := by
  unfold process
  cases hrdy : s.ready (deps key) with
  | false => exact ⟨_, rfl, .pending hrdy⟩
  | true =>
    have hmet := (ready_iff.mp hrdy).2
    by_cases hmem : key ∈ s.readyIds
    · have hnone : (s.markReady key).1.getNextPending key = none := by
        rw [getNextPending_eq_none]
        intro c hw
        rw [waits_markReady] at hw
        exact hs.waits_ready hw hmem
      refine ⟨((s.markReady key).1, true), ?_, .again hmem hmet⟩
      simp [processPending, hnone]
    · have hent := hs.entered hmem hmet False.elim
      obtain ⟨ks, s', hrun, hrel⟩ := processPending_spec order
        ((s.markReady key).1.pendingRows.rows.length + 1) hent
        (Nat.lt_succ_of_le (card_unreadyChildren_le _))
      rw [pendingRows_markReady] at hrun
      exact ⟨(s', true), by simp [hrun], .released hmem hmet hrel⟩

theorem Processed.consistent {key : ID} {r : OrdererStore ID D × Bool}
    (h : Processed digest deps s key r) (hs : Consistent digest deps (fun _ => False) s) :
    Consistent digest deps (fun _ => False) r.1 := by
  cases h with
  | pending => exact hs.markPending key
  | again hrdy _ =>
    -- nothing becomes ready, and no rows go
    apply hs.release [] (.nil _)
    · rw [readyIds_markReady_of_mem hrdy, append_nil]
    · simp [pendingRows_markReady]
    · exact forall_mem_nil _
    · exact forall_mem_nil _
    · exact fun _ hi _ => hi
  | released new met releases => exact releases.consistent (hs.entered new met False.elim)

end P2Panda.Stream.CausalOrderer
