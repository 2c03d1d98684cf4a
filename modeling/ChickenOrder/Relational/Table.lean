import Mathlib.Data.List.Nodup
import Mathlib.Tactic.Common

/-!
# Tables with a primary key and a second unique key

A `Table pk uk` is a list of rows, in insertion order, in which no two rows
agree on the primary key `pk` or on the unique key `uk`.  Both constraints are
fields, so a table that breaks them cannot be built: `insert` asks for the
freshness of both keys and `modify` for an update that keeps them.

`modify` is `UPDATE … WHERE pk = k`: at most one row matches, and a further
`WHERE` condition is part of the row update.

Both keys are looked up in the same way, and for each there are the rules of `insert` and
`modify`: what is found afterwards, in terms of what was found before.  Proofs about a table use
these rules and never its rows.
-/

namespace Relational

variable {α κ ν : Type}

/-- Rows with unique `pk` and unique `uk`.  The rows are in the order of their insertion, which no
query promises. -/
structure Table (pk : α → κ) (uk : α → ν) where
  rows : List α
  pk_nodup : (rows.map pk).Nodup
  uk_nodup : (rows.map uk).Nodup

namespace Table

variable {pk : α → κ} {uk : α → ν}

/-- A table is its rows: the keys are properties of them. -/
@[ext] theorem ext {t t' : Table pk uk} (h : t.rows = t'.rows) : t = t' := by
  cases t; cases t'; cases h; rfl

/-- The table without rows. -/
def empty : Table pk uk := ⟨[], List.nodup_nil, List.nodup_nil⟩

@[simp] theorem empty_rows : (empty : Table pk uk).rows = [] := rfl

/-- Insert a row whose keys are both unused. -/
def insert (t : Table pk uk) (a : α) (hpk : pk a ∉ t.rows.map pk) (huk : uk a ∉ t.rows.map uk) :
    Table pk uk where
  rows := t.rows ++ [a]
  pk_nodup := by
    rw [List.map_append, List.map_singleton]
    exact t.pk_nodup.append (List.nodup_singleton _) (by simpa using hpk)
  uk_nodup := by
    rw [List.map_append, List.map_singleton]
    exact t.uk_nodup.append (List.nodup_singleton _) (by simpa using huk)

@[simp] theorem insert_rows (t : Table pk uk) (a : α) (hpk) (huk) :
    (t.insert a hpk huk).rows = t.rows ++ [a] := rfl

/-- A row update that changes neither key.  Statements that update other columns are such. -/
structure KeepsKeys (pk : α → κ) (uk : α → ν) (f : α → α) : Prop where
  pk_eq : ∀ a, pk (f a) = pk a
  uk_eq : ∀ a, uk (f a) = uk a

/-! ## The primary key -/

section PrimaryKey

variable [DecidableEq κ]

/-- The row with primary key `k`. -/
def find? (t : Table pk uk) (k : κ) : Option α := t.rows.find? fun a => pk a = k

/-- Update the row with primary key `k`. -/
def modify (t : Table pk uk) (k : κ) (f : α → α) (hf : KeepsKeys pk uk f) : Table pk uk where
  rows := t.rows.map fun a => if pk a = k then f a else a
  pk_nodup := by
    have hkeys : pk ∘ (fun a => if pk a = k then f a else a) = pk := by
      funext a
      simp only [Function.comp_apply]
      split
      · exact hf.pk_eq a
      · rfl
    rw [List.map_map, hkeys]
    exact t.pk_nodup
  uk_nodup := by
    have hkeys : uk ∘ (fun a => if pk a = k then f a else a) = uk := by
      funext a
      simp only [Function.comp_apply]
      split
      · exact hf.uk_eq a
      · rfl
    rw [List.map_map, hkeys]
    exact t.uk_nodup

@[simp] theorem modify_rows (t : Table pk uk) (k : κ) (f : α → α) (hf : KeepsKeys pk uk f) :
    (t.modify k f hf).rows = t.rows.map fun a => if pk a = k then f a else a := rfl

@[simp] theorem find?_empty (k : κ) : (empty : Table pk uk).find? k = none := rfl

/-- A row is found by its primary key exactly if it is there. -/
theorem find?_eq_some_iff {t : Table pk uk} {a : α} {k : κ} :
    t.find? k = some a ↔ a ∈ t.rows ∧ pk a = k := by
  constructor
  · intro h
    exact ⟨List.mem_of_find?_eq_some h, by simpa using List.find?_some h⟩
  · rintro ⟨hmem, rfl⟩
    cases hfind : t.find? (pk a) with
    | none =>
        have := List.find?_eq_none.mp hfind a hmem
        simp at this
    | some b =>
        have hb := List.mem_of_find?_eq_some hfind
        have hkey : pk b = pk a := by simpa using List.find?_some hfind
        rw [List.inj_on_of_nodup_map t.pk_nodup hb hmem hkey]

/-- A key is not found exactly if no row has it. -/
theorem find?_eq_none_iff {t : Table pk uk} {k : κ} :
    t.find? k = none ↔ k ∉ t.rows.map pk := by
  simp [find?, List.find?_eq_none]

/-- After an insert the new row is found by its key, and the others as before. -/
theorem find?_insert (t : Table pk uk) (a : α) (hpk) (huk) (k : κ) :
    (t.insert a hpk huk).find? k = if pk a = k then some a else t.find? k := by
  by_cases hk : pk a = k
  · rw [if_pos hk, find?_eq_some_iff]
    exact ⟨by simp, hk⟩
  · simp [find?, hk]

/-- Lookups after an update see the updated row and nothing else changed.  With `find?_insert` this
describes the table as a map. -/
theorem find?_modify (t : Table pk uk) (k : κ) (f : α → α) (hf : KeepsKeys pk uk f) (k' : κ) :
    (t.modify k f hf).find? k' = (t.find? k').map fun a => if pk a = k then f a else a := by
  rw [find?, modify_rows, List.find?_map, find?]
  congr 2
  funext a
  simp only [Function.comp_apply]
  split
  · rw [hf.pk_eq a]
  · rfl

theorem find?_modify_self (t : Table pk uk) (k : κ) (f : α → α) (hf : KeepsKeys pk uk f) :
    (t.modify k f hf).find? k = (t.find? k).map f := by
  rw [find?_modify]
  cases hfind : t.find? k with
  | none => rfl
  | some a =>
      have hkey : pk a = k := (find?_eq_some_iff.mp hfind).2
      simp [hkey]

theorem find?_modify_of_ne (t : Table pk uk) {k k' : κ} (hne : k' ≠ k) (f : α → α)
    (hf : KeepsKeys pk uk f) : (t.modify k f hf).find? k' = t.find? k' := by
  rw [find?_modify]
  cases hfind : t.find? k' with
  | none => rfl
  | some a =>
      have hkey : pk a = k' := (find?_eq_some_iff.mp hfind).2
      simp [hkey, hne]

end PrimaryKey

/-! ## The unique key -/

section UniqueKey

variable [DecidableEq ν]

/-- The row with unique key `u`. -/
def findUnique? (t : Table pk uk) (u : ν) : Option α := t.rows.find? fun a => uk a = u

@[simp] theorem findUnique?_empty (u : ν) : (empty : Table pk uk).findUnique? u = none := rfl

/-- A row is found by its unique key exactly if it is there. -/
theorem findUnique?_eq_some_iff {t : Table pk uk} {a : α} {u : ν} :
    t.findUnique? u = some a ↔ a ∈ t.rows ∧ uk a = u := by
  constructor
  · intro h
    exact ⟨List.mem_of_find?_eq_some h, by simpa using List.find?_some h⟩
  · rintro ⟨hmem, rfl⟩
    cases hfind : t.findUnique? (uk a) with
    | none =>
        have := List.find?_eq_none.mp hfind a hmem
        simp at this
    | some b =>
        have hb := List.mem_of_find?_eq_some hfind
        have hkey : uk b = uk a := by simpa using List.find?_some hfind
        rw [List.inj_on_of_nodup_map t.uk_nodup hb hmem hkey]

/-- A unique key is not found exactly if no row has it. -/
theorem findUnique?_eq_none_iff {t : Table pk uk} {u : ν} :
    t.findUnique? u = none ↔ u ∉ t.rows.map uk := by
  simp [findUnique?, List.find?_eq_none]

/-- After an insert the new row is found by it, and the others as before. -/
theorem findUnique?_insert (t : Table pk uk) (a : α) (hpk) (huk) (u : ν) :
    (t.insert a hpk huk).findUnique? u = if uk a = u then some a else t.findUnique? u := by
  by_cases hu : uk a = u
  · rw [if_pos hu, findUnique?_eq_some_iff]
    exact ⟨by simp, hu⟩
  · simp [findUnique?, hu]

end UniqueKey

end Table

end Relational
