import Mathlib.Data.List.Nodup
import Mathlib.Data.List.Perm.Subperm

/-!
# Hash maps that remember the order of insertion

The entries are kept in the order in which their keys were first inserted.
-/

namespace P2Panda.Library

open List

/-- An `IndexMap`: entries in order, with distinct keys. -/
structure IndexMap (κ α : Type) where
  entries : List (κ × α)
  unique : (entries.map Prod.fst).Nodup

namespace IndexMap

variable {κ α : Type}

def empty : IndexMap κ α := ⟨[], List.nodup_nil⟩

def len (m : IndexMap κ α) : Nat := m.entries.length

def pop (m : IndexMap κ α) : IndexMap κ α where
  entries := m.entries.dropLast
  unique := m.unique.sublist ((List.dropLast_sublist _).map _)

variable [DecidableEq κ]

/-- Insert at the end, or replace the value where it stands. -/
def insert (m : IndexMap κ α) (k : κ) (a : α) : IndexMap κ α :=
  if h : k ∈ m.entries.map Prod.fst then
    ⟨m.entries.map fun entry => if entry.1 = k then (k, a) else entry, by
      have hkeys : (m.entries.map fun entry => if entry.1 = k then (k, a) else entry).map
          Prod.fst = m.entries.map Prod.fst := by
        rw [List.map_map]
        apply List.map_congr_left
        intro entry _
        rw [Function.comp_apply]
        split
        · rename_i heq
          exact heq.symm
        · rfl
      rw [hkeys]
      exact m.unique⟩
  else
    ⟨m.entries ++ [(k, a)], by
      rw [List.map_append, List.map_singleton, ← List.concat_eq_append]
      exact List.Nodup.concat h m.unique⟩

/-- Remove an entry; the others keep their order. -/
def shiftRemove (m : IndexMap κ α) (k : κ) : Option (α × IndexMap κ α) :=
  match m.entries.find? fun entry => entry.1 = k with
  | none => none
  | some entry => some (entry.2, ⟨m.entries.filter fun entry => entry.1 ≠ k,
      m.unique.sublist (List.filter_sublist.map _)⟩)

def lookup (m : IndexMap κ α) (k : κ) : Option α :=
  (m.entries.find? fun entry => entry.1 = k).map Prod.snd

variable {m : IndexMap κ α} {k : κ} {a : α} {m' : IndexMap κ α}

theorem entries_insert_of_notMem (h : k ∉ m.entries.map Prod.fst) (a : α) :
    (m.insert k a).entries = m.entries ++ [(k, a)] := by
  rw [insert, dif_neg h]

theorem shiftRemove_eq_none : m.shiftRemove k = none ↔ k ∉ m.entries.map Prod.fst := by
  rw [shiftRemove]
  cases hfind : m.entries.find? fun entry => entry.1 = k with
  | none =>
    rw [find?_eq_none] at hfind
    refine iff_of_true rfl fun hmem => ?_
    obtain ⟨entry, hent, hkey⟩ := mem_map.mp hmem
    exact hfind entry hent (decide_eq_true hkey)
  | some entry =>
    have hkey : entry.1 = k := by simpa using find?_some hfind
    have hmem := mem_map_of_mem (f := Prod.fst) (mem_of_find?_eq_some hfind)
    rw [hkey] at hmem
    simpa using hmem

theorem shiftRemove_eq_some (h : m.shiftRemove k = some (a, m')) :
    (k, a) ∈ m.entries ∧ m'.entries = m.entries.filter fun entry => entry.1 ≠ k := by
  rw [shiftRemove] at h
  cases hfind : m.entries.find? fun entry => entry.1 = k with
  | none =>
    rw [hfind] at h
    cases h
  | some entry =>
    rw [hfind] at h
    obtain ⟨rfl, rfl⟩ := h
    have hkey : entry.1 = k := by simpa using find?_some hfind
    subst hkey
    exact ⟨mem_of_find?_eq_some hfind, rfl⟩

theorem len_shiftRemove_lt (h : m.shiftRemove k = some (a, m')) : m'.len < m.len := by
  obtain ⟨hmem, hents⟩ := shiftRemove_eq_some h
  rw [len, hents]
  apply length_filter_lt_length_iff_exists.mpr
  exact ⟨(k, a), hmem, by simp⟩

theorem filter_mem_keys {left entries : List (κ × α)}
    (h : left.Sublist entries) (hunique : (entries.map Prod.fst).Nodup) :
    (entries.filter fun entry => entry.1 ∈ left.map Prod.fst) = left := by
  have hsub : (entries.filter fun entry => entry.1 ∈ left.map Prod.fst) ⊆ left := by
    intro entry hmem
    rw [mem_filter, decide_eq_true_eq, mem_map] at hmem
    obtain ⟨hentry, other, hoth, hkey⟩ := hmem
    rwa [inj_on_of_nodup_map hunique (h.subset hoth) hentry hkey] at hoth
  have hfilter := h.filter fun entry => entry.1 ∈ left.map Prod.fst
  rw [filter_eq_self.mpr fun entry hmem => decide_eq_true (mem_map_of_mem hmem)] at hfilter
  exact (hfilter.eq_of_length_le (subperm_of_subset (hunique.of_map.filter _) hsub).length_le).symm

theorem lookup_eq_some : m.lookup k = some a ↔ (k, a) ∈ m.entries := by
  rw [lookup, Option.map_eq_some_iff]
  constructor
  · rintro ⟨entry, hfind, rfl⟩
    have hkey : entry.1 = k := by simpa using find?_some hfind
    rw [← hkey]
    exact mem_of_find?_eq_some hfind
  · intro hmem
    cases hfind : m.entries.find? fun entry => entry.1 = k with
    | none => exact absurd (decide_eq_true rfl) (find?_eq_none.mp hfind _ hmem)
    | some entry =>
      have hkey : entry.1 = k := by simpa using find?_some hfind
      have hent := inj_on_of_nodup_map m.unique (mem_of_find?_eq_some hfind) hmem hkey
      exact ⟨entry, rfl, congrArg Prod.snd hent⟩

theorem lookup_eq_none : m.lookup k = none ↔ k ∉ m.entries.map Prod.fst := by
  rw [Option.eq_none_iff_forall_ne_some]
  constructor
  · intro h hmem
    obtain ⟨⟨k', a⟩, hent, rfl⟩ := mem_map.mp hmem
    exact h a (lookup_eq_some.mpr hent)
  · intro h a ha
    exact h (mem_map_of_mem (lookup_eq_some.mp ha))

theorem lookup_insert (a : α) (k' : κ) :
    (m.insert k a).lookup k' = if k' = k then some a else m.lookup k' := by
  ext b
  rw [lookup_eq_some]
  by_cases hmem : k ∈ m.entries.map Prod.fst
  · rw [insert, dif_pos hmem, mem_map]
    constructor
    · rintro ⟨entry, hent, heq⟩
      split_ifs at heq with hkey
      · cases heq
        rw [if_pos rfl]
      · rw [heq] at hkey hent
        rw [if_neg hkey]
        exact lookup_eq_some.mpr hent
    · intro hb
      split_ifs at hb with hkey
      · obtain ⟨entry, hent, hfst⟩ := mem_map.mp hmem
        refine ⟨entry, hent, ?_⟩
        rw [if_pos hfst, hkey, Option.some.inj hb]
      · exact ⟨(k', b), lookup_eq_some.mp hb, if_neg hkey⟩
  · rw [entries_insert_of_notMem hmem, mem_append, ← lookup_eq_some]
    by_cases hkey : k' = k
    · subst hkey
      rw [lookup_eq_none.mpr hmem]
      simp [eq_comm]
    · simp [hkey]

theorem lookup_of_lookup_pop (h : m.pop.lookup k = some a) : m.lookup k = some a := by
  rw [lookup_eq_some] at h ⊢
  exact dropLast_subset _ h

theorem lookup_pop :
    m.pop.lookup k = if m.entries.getLast?.map Prod.fst = some k then none else m.lookup k := by
  cases hlast : m.entries.getLast? with
  | none =>
    have hnil := getLast?_eq_none_iff.mp hlast
    simp [lookup, pop, hnil]
  | some last =>
    have hsplit := dropLast_append_getLast? last hlast
    have hnodup := m.unique
    rw [← hsplit, map_append, nodup_append'] at hnodup
    ext a
    rw [lookup_eq_some]
    split_ifs with hkey
    · refine iff_of_false (fun hmem => ?_) nofun
      cases hkey
      exact hnodup.2.2 (mem_map_of_mem hmem) (mem_singleton_self _)
    · have hne : (k, a) ≠ last := fun heq => hkey (heq ▸ rfl)
      rw [lookup_eq_some, ← hsplit, mem_append, mem_singleton, or_iff_left hne]
      rfl

theorem shiftRemove_eq_none_iff : m.shiftRemove k = none ↔ m.lookup k = none := by
  rw [shiftRemove_eq_none, lookup_eq_none]

theorem lookup_of_shiftRemove (h : m.shiftRemove k = some (a, m')) :
    m.lookup k = some a ∧ ∀ k', m'.lookup k' = if k' = k then none else m.lookup k' := by
  obtain ⟨hmem, hents⟩ := shiftRemove_eq_some h
  refine ⟨lookup_eq_some.mpr hmem, ?_⟩
  intro k'
  ext b
  rw [lookup_eq_some, hents, mem_filter, ← lookup_eq_some]
  by_cases hkey : k' = k
  · simp [hkey]
  · simp [hkey]

end IndexMap

end P2Panda.Library
