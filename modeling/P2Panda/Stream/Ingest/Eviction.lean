import P2Panda.Library.Runs
import P2Panda.Library.SlidingWindow
import P2Panda.Stream.Ingest.Ooo

/-!
# Eviction from the out-of-order buffer

A full buffer makes room for an entry by dropping its latest one, not its oldest.
-/

namespace P2Panda.Stream.Ingest.ChainRing

open P2Panda.Library IndexMap List

variable {ID L T : Type}

/-- A ring with the entries pushed and not popped, the latest last. -/
structure Traced (ID L T : Type) where
  ring : ChainRing ID L T
  unpopped : List (ChainRingKey ID L × ChainRingValue ID T)

inductive Call (ID L T : Type) where
  | push (id : ID) (backlink : Option ID) (logId : L) (item : T)
  | popFrom (backlink : Option ID) (logId : L)

def Call.key? : Call ID L T → Option (ChainRingKey ID L)
  | push _ backlink logId _ => some ⟨backlink, logId⟩
  | popFrom _ _ => none

def MostRecent (n : Nat) (s : Traced ID L T) : Prop :=
  s.ring.capacity = n ∧ s.ring.buffer.len ≤ n ∧ s.ring.buffer.entries = s.unpopped.rtake n

variable {n : Nat} {s : Traced ID L T} [DecidableEq ID] [DecidableEq L]

def Traced.call (s : Traced ID L T) : Call ID L T → Traced ID L T
  | .push id backlink logId item =>
    ⟨s.ring.push id backlink logId item, s.unpopped ++ [(⟨backlink, logId⟩, ⟨id, item⟩)]⟩
  | .popFrom backlink logId =>
    let ring := (s.ring.popFrom backlink logId).2
    ⟨ring, s.unpopped.filter fun entry =>
      entry.1 ∉ s.ring.buffer.entries.map Prod.fst ∨ entry.1 ∈ ring.buffer.entries.map Prod.fst⟩

abbrev after (n : Nat) (calls : List (Call ID L T)) : Traced ID L T :=
  calls.foldl Traced.call ⟨withCapacity n, []⟩

/-- A push finds room or a capacity of one; on a pop, no entry waits under the key or nothing has
been evicted. -/
def NoLoss (n : Nat) (s : Traced ID L T) : Call ID L T → Prop
  | .push _ _ _ _ => s.ring.buffer.len < n ∨ n = 1
  | .popFrom backlink logId =>
    ⟨backlink, logId⟩ ∉ s.ring.buffer.entries.map Prod.fst ∨ s.unpopped.length ≤ n

instance : DecidablePred (NoLoss n s)
  | .push _ _ _ _ => inferInstanceAs (Decidable (_ ∨ _))
  | .popFrom _ _ => inferInstanceAs (Decidable (_ ∨ _))

theorem mostRecent_call (h : s.ring.capacity = n) (next : Call ID L T) :
    MostRecent n (s.call next) ↔
      (s.call next).ring.buffer.entries = (s.call next).unpopped.rtake n := by
  have hcap : (s.call next).ring.capacity = n := by
    cases next with
    | push id backlink logId item => exact h
    | popFrom backlink logId => exact h
  refine ⟨fun hrecent => hrecent.2.2, fun hentries => ⟨hcap, ?_, hentries⟩⟩
  rw [len, hentries, length_rtake]
  exact Nat.min_le_right _ _

theorem mostRecent_push (h : MostRecent n s) (id : ID) {backlink : Option ID} {logId : L} (item : T)
    (hfresh : ⟨backlink, logId⟩ ∉ s.unpopped.map Prod.fst) :
    MostRecent n (s.call (.push id backlink logId item)) ↔ s.ring.buffer.len < n ∨ n = 1 := by
  obtain ⟨hcap, -, hentries⟩ := h
  have hlen : s.ring.buffer.entries.length = min s.unpopped.length n := by
    rw [hentries, length_rtake]
  have hnew : ⟨backlink, logId⟩ ∉ s.ring.buffer.entries.map Prod.fst := by
    rw [hentries]
    exact fun hmem => hfresh (map_subset _ (drop_subset _ _) hmem)
  have hpop : ⟨backlink, logId⟩ ∉ s.ring.buffer.pop.entries.map Prod.fst :=
    fun hmem => hnew (map_subset _ (dropLast_subset _) hmem)
  rw [mostRecent_call hcap]
  simp only [Traced.call, push, hcap, len]
  rcases Nat.eq_zero_or_pos n with rfl | hpos
  · rw [rtake_zero, if_pos (Nat.zero_le _), entries_insert_of_notMem hpop]
    exact iff_of_false (append_ne_nil_of_right_ne_nil _ (cons_ne_nil _ _)) (by omega)
  rw [rtake_concat hpos]
  by_cases hfull : n ≤ s.ring.buffer.entries.length
  · rw [if_pos hfull, if_pos (by omega), entries_insert_of_notMem hpop, append_cancel_right_eq,
      ← hentries]
    change s.ring.buffer.entries.dropLast = _ ↔ _
    refine ⟨fun heq => ?_, fun hone => ?_⟩
    · have hle := length_le_one_of_dropLast_eq_tail s.ring.buffer.unique.of_map heq
      omega
    · obtain ⟨entry, hentry⟩ := length_eq_one_iff.mp
        (by omega : s.ring.buffer.entries.length = 1)
      rw [hentry]
      rfl
  · rw [if_neg hfull, if_neg (by omega), ← hentries, entries_insert_of_notMem hnew]
    exact iff_of_true rfl (Or.inl (Nat.lt_of_not_le hfull))

theorem popChain_sublist (logId : L) (buffer : IndexMap (ChainRingKey ID L) (ChainRingValue ID T))
    (backlink : Option ID) (result : List T) :
    (popChain logId buffer backlink result).2.entries.Sublist buffer.entries := by
  fun_induction popChain logId buffer backlink result with
  | case1 buffer backlink result hnone => exact Sublist.refl _
  | case2 buffer backlink result value rest hrm ih =>
    rw [(shiftRemove_eq_some hrm).2] at ih
    exact ih.trans filter_sublist

theorem len_popFrom_iff (ring : ChainRing ID L T) (backlink : Option ID) (logId : L) :
    (ring.popFrom backlink logId).2.buffer.len = ring.buffer.len ↔
      ⟨backlink, logId⟩ ∉ ring.buffer.entries.map Prod.fst := by
  change (popChain logId ring.buffer backlink []).2.len = _ ↔ _
  rw [← shiftRemove_eq_none, popChain]
  split
  · exact iff_of_true rfl ‹_›
  · rename_i value rest hrm
    have hlt := len_shiftRemove_lt hrm
    have hle := (popChain_sublist logId rest (some value.id) ([] ++ [value.item])).length_le
    exact iff_of_false (Nat.ne_of_lt (Nat.lt_of_le_of_lt hle hlt)) (by simp [hrm])

theorem mostRecent_popFrom (h : MostRecent n s) (hnodup : (s.unpopped.map Prod.fst).Nodup)
    (backlink : Option ID) (logId : L) :
    MostRecent n (s.call (.popFrom backlink logId)) ↔
      ⟨backlink, logId⟩ ∉ s.ring.buffer.entries.map Prod.fst ∨ s.unpopped.length ≤ n := by
  rw [← len_popFrom_iff]
  obtain ⟨hcap, hlen, hentries⟩ := h
  have hsub := popChain_sublist logId s.ring.buffer backlink []
  obtain ⟨old, hold⟩ : ∃ old, s.unpopped = old ++ s.ring.buffer.entries := by
    rw [hentries]
    exact ⟨_, (take_append_drop _ _).symm⟩
  have hdisjoint := disjoint_of_nodup_append (by rwa [hold, map_append] at hnodup)
  -- the evicted entries stay in front of what is left in the buffer
  have hunpopped : (s.call (.popFrom backlink logId)).unpopped =
      old ++ (s.ring.popFrom backlink logId).2.buffer.entries := by
    simp only [Traced.call]
    rw [hold, filter_append]
    congr 1
    · refine filter_eq_self.mpr fun entry hmem => decide_eq_true (Or.inl fun hin => ?_)
      exact hdisjoint (mem_map_of_mem hmem) hin
    · refine Eq.trans (filter_congr fun entry hmem => ?_)
        (filter_mem_keys hsub s.ring.buffer.unique)
      simp [mem_map_of_mem hmem]
  have hlength := congrArg length hold
  have hmin := congrArg length hentries
  rw [length_append] at hlength
  rw [length_rtake] at hmin
  rw [mostRecent_call hcap, hunpopped]
  refine (rtake_append_eq_iff (hsub.length_le.trans hlen)).trans ?_
  rw [← length_eq_zero_iff]
  simp only [popFrom, len]
  omega

theorem unpopped_sublist (n : Nat) (calls : List (Call ID L T)) :
    ((after n calls).unpopped.map Prod.fst).Sublist (calls.filterMap Call.key?) := by
  induction calls using List.reverseRecOn with
  | nil => exact Sublist.refl _
  | append_singleton calls next ih =>
    rw [after, foldl_append, filterMap_append]
    cases next with
    | push id backlink logId item =>
      rw [foldl_cons, foldl_nil, Traced.call, map_append]
      exact ih.append (Sublist.refl _)
    | popFrom backlink logId =>
      exact ((filter_sublist.map _).trans ih).trans (sublist_append_left _ _)

/-- The buffer has the most recent entries after every call just if no call meets a full buffer, or
pops from one that has evicted. -/
theorem mostRecent_iff_noLoss (n : Nat) (calls : List (Call ID L T))
    (hkeys : (calls.filterMap Call.key?).Nodup) :
    (∀ done, done <+: calls → MostRecent n (after n done)) ↔
      ∀ done next, done ++ [next] <+: calls → NoLoss n (after n done) next := by
  apply Runs.goal_iff_forall
  · exact ⟨rfl, Nat.zero_le n, (rtake_nil n).symm⟩
  · intro done next hdone hrecent
    have hsub := unpopped_sublist n done
    have hnodup := hkeys.sublist (hdone.sublist.filterMap _)
    rw [filterMap_append] at hnodup
    cases next with
    | push id backlink logId item =>
      refine mostRecent_push hrecent id item fun hmem => ?_
      exact disjoint_of_nodup_append hnodup (hsub.subset hmem) mem_cons_self
    | popFrom backlink logId =>
      exact mostRecent_popFrom hrecent (hnodup.of_append_left.sublist hsub) backlink logId

/-- Three operations of a log that wait for each other. -/
def threePushes : List (Call Nat Unit Unit) :=
  [.push 1 (some 0) () (), .push 2 (some 1) () (), .push 3 (some 2) () ()]

theorem not_mostRecent_threePushes : ¬MostRecent 2 (after 2 threePushes) :=
  fun h => absurd (congrArg (map (·.1.backlink)) h.2.2) (by decide)

/-- The same operations in a buffer with room for all of them, and popped. -/
theorem mostRecent_popped :
    ((threePushes ++ [Call.popFrom (some 1) ()]).filterMap Call.key?).Nodup ∧
      ∀ done, done <+: threePushes ++ [.popFrom (some 1) ()] → MostRecent 3 (after 3 done) := by
  have hkeys : ((threePushes ++ [Call.popFrom (some 1) ()]).filterMap Call.key?).Nodup := by decide
  exact ⟨hkeys, (mostRecent_iff_noLoss 3 _ hkeys).mpr
    (Runs.forall_step_of_get (by decide +kernel))⟩

end P2Panda.Stream.Ingest.ChainRing
