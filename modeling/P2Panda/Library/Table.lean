import Mathlib.Data.List.Nodup

/-!
# Database tables

A table is a list of rows with a `UNIQUE` constraint on a key, which every statement that writes it
has to keep.
-/

namespace P2Panda.Library

open List

/-- Rows with a `UNIQUE` constraint on `key`. -/
structure Table (α κ : Type) (key : α → κ) where
  rows : List α
  unique : (rows.map key).Nodup

namespace Table

variable {α κ : Type} {key : α → κ}

def empty : Table α κ key := ⟨[], List.nodup_nil⟩

/-- `DELETE FROM .. WHERE p`. -/
def deleteWhere (t : Table α κ key) (p : α → Bool) : Table α κ key where
  rows := t.rows.filter fun row => !p row
  unique := t.unique.sublist (List.filter_sublist.map key)

theorem map_map_ite {β : Type} {p : α → Prop} [DecidablePred p] {f : α → α} {g : α → β}
    (hf : ∀ a, g (f a) = g a) (rows : List α) :
    (rows.map fun row => if p row then f row else row).map g = rows.map g := by
  rw [map_map]
  apply map_congr_left
  intro row _
  simp only [Function.comp_apply]
  split
  · exact hf row
  · rfl

/-- `UPDATE .. SET f WHERE p`, for an `f` that leaves the key alone. -/
def updateWhere (t : Table α κ key) (p : α → Bool) (f : α → α) (hf : ∀ a, key (f a) = key a) :
    Table α κ key where
  rows := t.rows.map fun row => if p row then f row else row
  unique := by
    rw [map_map_ite hf]
    exact t.unique

@[simp] theorem rows_empty : (empty : Table α κ key).rows = [] := rfl

theorem eq_of_key_eq (t : Table α κ key) {a b : α} (ha : a ∈ t.rows) (hb : b ∈ t.rows)
    (h : key a = key b) : a = b :=
  inj_on_of_nodup_map t.unique ha hb h

variable [DecidableEq κ] {t : Table α κ key} {row : α}

/-- `INSERT OR IGNORE`; the flag says whether a row was affected. -/
def insertOrIgnore (t : Table α κ key) (row : α) : Table α κ key × Bool :=
  if h : key row ∈ t.rows.map key then (t, false)
  else
    (⟨t.rows ++ [row], by
      rw [List.map_append, List.map_singleton, ← List.concat_eq_append]
      exact List.Nodup.concat h t.unique⟩, true)

/-- `SELECT .. WHERE key = k`. -/
def find? (t : Table α κ key) (k : κ) : Option α :=
  t.rows.find? fun row => key row = k

theorem insertOrIgnore_of_mem (h : key row ∈ t.rows.map key) :
    t.insertOrIgnore row = (t, false) := by
  rw [insertOrIgnore, dif_pos h]

theorem rows_insertOrIgnore_of_notMem (h : key row ∉ t.rows.map key) :
    (t.insertOrIgnore row).1.rows = t.rows ++ [row] := by
  rw [insertOrIgnore, dif_neg h]

theorem mem_rows_insertOrIgnore {row other : α} :
    other ∈ (t.insertOrIgnore row).1.rows ↔
      other ∈ t.rows ∨ other = row ∧ key row ∉ t.rows.map key := by
  by_cases h : key row ∈ t.rows.map key
  · simp [insertOrIgnore_of_mem h, h]
  · simp [rows_insertOrIgnore_of_notMem h, h]

theorem find?_eq_some {k : κ} : t.find? k = some row ↔ row ∈ t.rows ∧ key row = k := by
  constructor
  · intro h
    have hkey := find?_some h
    exact ⟨mem_of_find?_eq_some h, by simpa using hkey⟩
  · rintro ⟨hrow, rfl⟩
    cases h : t.find? (key row) with
    | none => exact absurd (find?_eq_none.mp h row hrow) (by simp)
    | some other =>
      have hkey : key other = key row := by simpa using find?_some h
      rw [t.eq_of_key_eq (mem_of_find?_eq_some h) hrow hkey]

/-- An update of the row with a given key leaves the rows around it alone. -/
theorem map_update_eq (t : Table α κ key) (h : row ∈ t.rows) :
    ∃ before after, t.rows = before ++ row :: after ∧ ∀ f : α → α,
      (t.rows.map fun other => if key other = key row then f other else other) =
        before ++ f row :: after := by
  obtain ⟨before, after, hrows⟩ := append_of_mem h
  refine ⟨before, after, hrows, fun f => ?_⟩
  have hunique := t.unique
  rw [hrows, map_append, map_cons, nodup_append, nodup_cons] at hunique
  have hkeep {rows : List α} (hne : ∀ other ∈ rows, key other ≠ key row) :
      (rows.map fun other => if key other = key row then f other else other) = rows := by
    apply (map_congr_left _).trans (map_id _)
    exact fun other hoth => if_neg (hne other hoth)
  rw [hrows, map_append, map_cons, if_pos rfl, hkeep, hkeep]
  · exact fun other hoth heq => hunique.2.1.1 (heq ▸ mem_map_of_mem hoth)
  · exact fun other hoth =>
      hunique.2.2 _ (mem_map_of_mem hoth) _ mem_cons_self

theorem find?_eq_none {k : κ} : t.find? k = none ↔ k ∉ t.rows.map key := by
  simp [find?, List.find?_eq_none]

end Table

end P2Panda.Library
