import Mathlib.Data.Finmap
import Mathlib.Data.Finset.Sort

/-!
# Hash maps and hash sets

What hash maps and sets leave open is the order in which a loop meets their elements. A program is
given one, and results which do not mention it hold for every order.
-/

namespace P2Panda.Library

open Finmap

/-- A finite map, equal to another when all lookups are. -/
abbrev HashMap (K V : Type) := Finmap (fun _ : K => V)

/-- The order in which a loop meets the elements of a hash set. -/
structure HashOrder (α : Type) where
  iter : Finset α → List α
  nodup_iter : ∀ s, (iter s).Nodup
  mem_iter : ∀ {s a}, a ∈ iter s ↔ a ∈ s

namespace HashOrder

variable {α : Type}

attribute [simp] mem_iter

@[simp] theorem toFinset_iter [DecidableEq α] (o : HashOrder α) (s : Finset α) :
    (o.iter s).toFinset = s := by
  ext a
  simp

theorem iter_perm (o o' : HashOrder α) (s : Finset α) : (o.iter s).Perm (o'.iter s) := by
  rw [List.perm_ext_iff_of_nodup (o.nodup_iter s) (o'.nodup_iter s)]
  simp

@[simp] theorem iter_empty (o : HashOrder α) : o.iter ∅ = [] := by
  rw [List.eq_nil_iff_forall_not_mem]
  simp

@[simp] theorem iter_singleton (o : HashOrder α) (a : α) : o.iter {a} = [a] := by
  classical
  rw [← List.perm_singleton, List.perm_ext_iff_of_nodup (o.nodup_iter _) (by simp)]
  simp

/-- Walking every set in the order of a numbering. -/
def increasing (f : α → Nat) (hf : Function.Injective f) : HashOrder α where
  iter s := Quot.liftOn s.1 (List.insertionSort fun a b => f a ≤ f b) fun l l' h => by
    have hperm : (l.insertionSort fun a b => f a ≤ f b).Perm
        (l'.insertionSort fun a b => f a ≤ f b) :=
      (List.perm_insertionSort _ l).trans (h.trans (List.perm_insertionSort _ l').symm)
    exact hperm.eq_of_pairwise (fun a b _ _ hab hba => hf (le_antisymm hab hba))
      (List.pairwise_insertionSort _ l) (List.pairwise_insertionSort _ l')
  nodup_iter s := by
    obtain ⟨⟨l⟩, hl⟩ := s
    exact (List.perm_insertionSort _ l).nodup_iff.mpr hl
  mem_iter := by
    rintro ⟨⟨l⟩, hl⟩ a
    exact (List.perm_insertionSort _ l).mem_iff

/-- Walking a set from one of its elements on. -/
def startingWith [LinearOrder α] (a : α) : HashOrder α where
  iter s := if a ∈ s then a :: (s.erase a).sort else s.sort
  nodup_iter s := by
    split_ifs
    · simp
    · simp
  mem_iter {s b} := by
    split_ifs with ha
    · by_cases hb : b = a
      · simp [hb, ha]
      · simp [hb]
    · simp

theorem iter_startingWith [LinearOrder α] {a : α} {s : Finset α} (ha : a ∈ s) :
    (startingWith a).iter s = a :: (s.erase a).sort :=
  if_pos ha

def reversed (o : HashOrder α) : HashOrder α where
  iter s := (o.iter s).reverse
  nodup_iter s := List.nodup_reverse.mpr (o.nodup_iter s)
  mem_iter := List.mem_reverse.trans o.mem_iter

end HashOrder

namespace HashMap

variable {K V W : Type} [DecidableEq K] {m : HashMap K V} {k : K}

/-- The entries, in the order a loop meets them. -/
def entries (o : HashOrder K) (m : HashMap K V) : List (K × V) :=
  (o.iter m.keys).filterMap fun k => (m.lookup k).map fun v => (k, v)

/-- `entry(k).and_modify(f)`. -/
def andModify (m : HashMap K V) (k : K) (f : V → V) : HashMap K V :=
  match m.lookup k with
  | some v => m.insert k (f v)
  | none => m

/-- `entry(k).and_modify(f).or_insert(v)`. -/
def andModifyOrInsert (m : HashMap K V) (k : K) (f : V → V) (v : V) : HashMap K V :=
  match m.lookup k with
  | some w => m.insert k (f w)
  | none => m.insert k v

theorem lookup_insert_ite (m : HashMap K V) (k k' : K) (v : V) :
    (m.insert k v).lookup k' = if k' = k then some v else m.lookup k' := by
  split_ifs with h
  · subst h
    exact lookup_insert m
  · exact lookup_insert_of_ne m h

theorem lookup_erase_ite (m : HashMap K V) (k k' : K) :
    (m.erase k).lookup k' = if k' = k then none else m.lookup k' := by
  split_ifs with h
  · subst h
    exact lookup_erase k' m
  · exact lookup_erase_ne h

@[simp] theorem insert_erase_self (m : HashMap K V) (k : K) (v : V) :
    (m.erase k).insert k v = m.insert k v := by
  apply ext_lookup
  intro k'
  rw [lookup_insert_ite, lookup_insert_ite, lookup_erase_ite]
  split_ifs
  · rfl
  · rfl

@[simp] theorem erase_empty (k : K) : (∅ : HashMap K V).erase k = ∅ := by
  apply ext_lookup
  intro k'
  rw [lookup_erase_ite]
  simp

theorem insert_lookup_self {v : V} (h : m.lookup k = some v) : m.insert k v = m := by
  apply ext_lookup
  intro k'
  rw [lookup_insert_ite]
  split_ifs with hk
  · rw [hk, h]
  · rfl

theorem lookup_andModify (m : HashMap K V) (k k' : K) (f : V → V) :
    (m.andModify k f).lookup k' = if k' = k then (m.lookup k).map f else m.lookup k' := by
  unfold andModify
  cases h : m.lookup k with
  | none =>
    split_ifs with hk
    · rw [hk, h]
      rfl
    · rfl
  | some v =>
    rw [lookup_insert_ite]
    rfl

theorem lookup_andModifyOrInsert (m : HashMap K V) (k k' : K) (f : V → V) (v : V) :
    (m.andModifyOrInsert k f v).lookup k' =
      if k' = k then some ((m.lookup k).elim v f) else m.lookup k' := by
  unfold andModifyOrInsert
  cases h : m.lookup k with
  | none =>
    rw [lookup_insert_ite]
    rfl
  | some w =>
    rw [lookup_insert_ite]
    rfl

def modifyAll (m : HashMap K V) (s : Finset K) (f : V → V) : HashMap K V where
  entries := (Finmap.entries m).map (Sigma.map id fun k v => if k ∈ s then f v else v)
  nodupKeys := by
    have hkeys := Multiset.nodup_keys.mpr m.nodupKeys
    rw [← Multiset.nodup_keys, Multiset.keys, Multiset.map_map]
    exact hkeys

theorem lookup_modifyAll {s : Finset K} {f : V → V} {v : V}
    (h : (m.modifyAll s f).lookup k = some v) :
    ∃ w, m.lookup k = some w ∧ v = if k ∈ s then f w else w := by
  obtain ⟨⟨k, w⟩, hmem, ⟨⟩⟩ := Multiset.mem_map.mp (lookup_eq_some_iff.mp h)
  exact ⟨w, lookup_eq_some_iff.mpr hmem, rfl⟩

/-- `into_iter().filter(p).collect()`. -/
def filter (m : HashMap K V) (p : K → V → Bool) : HashMap K V where
  entries := (Finmap.entries m).filter fun entry => p entry.1 entry.2
  nodupKeys := by
    have hkeys := Multiset.nodup_keys.mpr m.nodupKeys
    exact Multiset.nodup_keys.mp (Multiset.nodup_of_le (Multiset.map_le_map
      (Multiset.filter_le _ _)) hkeys)

theorem lookup_filter_eq_some {p : K → V → Bool} {v : V} :
    (m.filter p).lookup k = some v ↔ m.lookup k = some v ∧ p k v = true := by
  rw [lookup_eq_some_iff, lookup_eq_some_iff]
  exact Multiset.mem_filter

/-- `HashMap::extend`: the values of the other map win. -/
def extend (m other : HashMap K V) : HashMap K V := other ∪ m

theorem lookup_extend (m other : HashMap K V) (k : K) :
    (m.extend other).lookup k = (other.lookup k).or (m.lookup k) := by
  unfold extend
  by_cases h : k ∈ other
  · rw [lookup_union_left h]
    obtain ⟨v, hv⟩ := mem_iff.mp h
    rw [hv, Option.some_or]
  · rw [lookup_union_right h, lookup_eq_none.mpr h, Option.none_or]

theorem mem_keys_iff : k ∈ m.keys ↔ ∃ v, m.lookup k = some v := by
  rw [mem_keys, mem_iff]

@[simp] theorem mem_entries {o : HashOrder K} {v : V} :
    (k, v) ∈ m.entries o ↔ m.lookup k = some v := by
  simp only [entries, List.mem_filterMap, HashOrder.mem_iter, Option.map_eq_some_iff,
    Prod.mk.injEq]
  constructor
  · rintro ⟨k', _, v', hv, rfl, rfl⟩
    exact hv
  · intro h
    exact ⟨k, mem_keys_iff.mpr ⟨v, h⟩, v, h, rfl, rfl⟩

theorem entries_perm (o o' : HashOrder K) (m : HashMap K V) : (m.entries o).Perm (m.entries o') :=
  (o.iter_perm o' m.keys).filterMap _

theorem map_fst_entries (o : HashOrder K) (m : HashMap K V) :
    (m.entries o).map Prod.fst = o.iter m.keys := by
  have hwalk : ∀ ks : List K, (∀ k ∈ ks, ∃ v, m.lookup k = some v) →
      (ks.filterMap fun k => (m.lookup k).map fun v => (k, v)).map Prod.fst = ks := by
    intro ks
    induction ks with
    | nil => simp
    | cons k ks ih =>
      intro hpres
      obtain ⟨v, hv⟩ := hpres k (by simp)
      rw [List.filterMap_cons_some (b := (k, v)) (by simp [hv]), List.map_cons,
        ih fun k' hk' => hpres k' (by simp [hk'])]
  exact hwalk _ fun k hk => mem_keys_iff.mp (o.mem_iter.mp hk)

theorem nodup_fst_entries (o : HashOrder K) (m : HashMap K V) :
    ((m.entries o).map Prod.fst).Nodup := by
  rw [map_fst_entries]
  exact o.nodup_iter _

section Loop

variable {g : K → W → Option V → Option V} {f : HashMap K V → K × W → HashMap K V}

theorem lookup_foldl_of_forall_ne
    (hf : ∀ acc k w k', (f acc (k, w)).lookup k' =
      if k' = k then g k w (acc.lookup k) else acc.lookup k')
    (l : List (K × W)) (acc : HashMap K V) (k : K) (hk : ∀ e ∈ l, k ≠ e.1) :
    (l.foldl f acc).lookup k = acc.lookup k := by
  induction l generalizing acc with
  | nil => rfl
  | cons e l ih =>
    rw [List.foldl_cons, ih _ fun e' he' => hk e' (by simp [he']), hf, if_neg (hk e (by simp))]

/-- A loop over the entries whose body only writes the key at hand works key by key, in whatever
order. -/
theorem lookup_foldl_entries
    (hf : ∀ acc k w k', (f acc (k, w)).lookup k' =
      if k' = k then g k w (acc.lookup k) else acc.lookup k')
    (o : HashOrder K) (m : HashMap K W) (init : HashMap K V) (k : K) :
    ((m.entries o).foldl f init).lookup k =
      (m.lookup k).elim (init.lookup k) fun w => g k w (init.lookup k) := by
  cases h : m.lookup k with
  | none =>
    apply lookup_foldl_of_forall_ne hf
    rintro ⟨k', w⟩ he rfl
    rw [mem_entries, h] at he
    cases he
  | some w =>
    -- The key occurs once, so what comes before and after it leaves it alone.
    obtain ⟨l1, l2, hspl⟩ := List.append_of_mem (mem_entries.mpr h)
    have hnd := nodup_fst_entries o m
    rw [hspl, List.map_append, List.map_cons, List.nodup_append, List.nodup_cons] at hnd
    have hbef : ∀ e ∈ l1, k ≠ e.1 := by
      intro e he hk
      exact hnd.2.2 e.1 (List.mem_map_of_mem he) k (by simp) hk.symm
    have hafter : ∀ e ∈ l2, k ≠ e.1 := by
      intro e he hk
      have hmem : e.1 ∈ l2.map Prod.fst := List.mem_map_of_mem he
      exact hnd.2.1.1 (hk ▸ hmem)
    rw [hspl, List.foldl_append, List.foldl_cons,
      lookup_foldl_of_forall_ne hf _ _ _ hafter, hf, if_pos rfl,
      lookup_foldl_of_forall_ne hf _ _ _ hbef, Option.elim_some]

end Loop

end HashMap

end P2Panda.Library
