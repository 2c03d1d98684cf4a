import Mathlib.Algebra.BigOperators.Group.List.Basic
import Mathlib.Algebra.GroupWithZero.Nat
import Mathlib.Data.List.Dedup
import Mathlib.Data.List.Sort
import Mathlib.Data.String.Basic
import Mathlib.Tactic.Common

/-!
# Queries over a table

`SELECT … WHERE p ORDER BY k` returns the rows that satisfy `p`, each as often as the table has
it, in an order in which `k` does not decrease.  Rows that `k` does not tell apart may come in
any order, so a query has several results.  `IsSelection` is the relation of the results; what
a program finds first in a result is a least one of what it looks for, and every least one can
be found first.

`IsGrouping` is the same for `GROUP BY`: each row is in the group of its key, so what is summed
group by group is the sum over all rows.
-/

namespace Relational

variable {α β κ : Type}

/-- What rows are ordered by: a total preorder.  Two rows may be equal in it, and then the database
decides. -/
structure SortKey (α : Type) where
  le : α → α → Bool
  total : ∀ a b, le a b = true ∨ le b a = true
  trans : ∀ {a b c}, le a b = true → le b c = true → le a c = true

namespace SortKey

/-- `a` comes before `b` in every result, as `b` is not allowed before it. -/
def Precedes (k : SortKey α) (a b : α) : Prop := k.le b a = false

instance (k : SortKey α) (a b : α) : Decidable (k.Precedes a b) :=
  inferInstanceAs (Decidable (_ = _))

/-- Order by a value. -/
def ofLinearOrder [LinearOrder β] (f : α → β) : SortKey α where
  le := fun a b => f a ≤ f b
  total := fun a b => by simpa using le_total (f a) (f b)
  trans := by
    intro a b c hab hbc
    simp only [decide_eq_true_eq] at hab hbc ⊢
    exact hab.trans hbc

/-- Order by what another order says of a value. -/
def comap (f : α → β) (k : SortKey β) : SortKey α where
  le := fun a b => k.le (f a) (f b)
  total := fun a b => k.total (f a) (f b)
  trans := fun hab hbc => k.trans hab hbc

/-- `ORDER BY k, l`. -/
def thenBy (k l : SortKey α) : SortKey α where
  le := fun a b => k.le a b && (!k.le b a || l.le a b)
  total := fun a b => by
    have hk := k.total a b
    have hl := l.total a b
    cases hab : k.le a b <;> cases hba : k.le b a <;> simp_all
  trans := by
    intro a b c hab hbc
    simp only [Bool.and_eq_true, Bool.or_eq_true, Bool.not_eq_true'] at hab hbc ⊢
    obtain ⟨hab, hab'⟩ := hab
    obtain ⟨hbc, hbc'⟩ := hbc
    refine ⟨k.trans hab hbc, ?_⟩
    by_cases hca : k.le c a = true
    · -- all three are equivalent for the first key
      have hba : k.le b a = true := k.trans hbc hca
      have hcb : k.le c b = true := k.trans hca hab
      refine .inr (l.trans (hab'.resolve_left ?_) (hbc'.resolve_left ?_))
      · rw [hba]
        exact Bool.true_eq_false_eq_False
      · rw [hcb]
        exact Bool.true_eq_false_eq_False
    · exact .inl ((Bool.not_eq_true _).mp hca)

variable {k l : SortKey α} {a b c : α}

/-- The second key decides where the first does not. -/
theorem thenBy_le_iff : (k.thenBy l).le a b = true ↔
    k.le a b = true ∧ (k.le b a = true → l.le a b = true) := by
  simp only [thenBy, Bool.and_eq_true, Bool.or_eq_true, Bool.not_eq_true']
  refine and_congr_right fun _ => ?_
  cases k.le b a
  · simp
  · simp

theorem Precedes.le (h : k.Precedes a b) : k.le a b = true :=
  (k.total a b).resolve_right (by rw [h]; exact Bool.false_ne_true)

/-- It stays before whatever is not before the other. -/
theorem Precedes.trans_le (h : k.Precedes a b) (hbc : k.le b c = true) : k.Precedes a c := by
  by_contra hca
  have hba : k.le b a = true := k.trans hbc (by simpa [Precedes] using hca)
  rw [h] at hba
  cases hba

end SortKey

/-- How a database compares texts.  It is a setting of the database, so that nothing is assumed of
it. -/
abbrev Collation := SortKey String

/-- By code points, as the collation `C` does. -/
def Collation.codePoints : Collation := .ofLinearOrder fun s => s

/-- A result of `SELECT … FROM rows WHERE p ORDER BY k`.  It is a relation, since the order of equal
rows is open. -/
structure IsSelection (rows : List α) (p : α → Bool) (k : SortKey α) (result : List α) : Prop where
  perm : result.Perm (rows.filter p)
  sorted : result.Pairwise fun a b => k.le a b = true

section IsSelection

variable {rows result : List α} {p q : α → Bool} {k : SortKey α} {a b : α}

/-- A result has the selected rows, whatever order they are in. -/
theorem IsSelection.mem_iff (h : IsSelection rows p k result) : a ∈ result ↔ a ∈ rows ∧ p a = true := by
  rw [h.perm.mem_iff, List.mem_filter]

/-- Sorting gives a result, so that there is one. -/
theorem isSelection_mergeSort (rows : List α) (p : α → Bool) (k : SortKey α) :
    IsSelection rows p k ((rows.filter p).mergeSort k.le) where
  perm := List.mergeSort_perm _ _
  sorted := by
    refine @List.pairwise_mergeSort _ k.le (fun a b c => k.trans) (fun a b => ?_) _
    rw [Bool.or_eq_true]
    exact k.total a b

/-- **What is found first is a least one** of those that are looked for. -/
theorem IsSelection.find?_eq_some (h : IsSelection rows p k result) (hfind : result.find? q = some a) :
    a ∈ rows ∧ p a = true ∧ q a = true ∧
      ∀ b ∈ rows, p b = true → q b = true → k.le a b = true := by
  obtain ⟨hq, before, after, rfl, hbefore⟩ := List.find?_eq_some_iff_append.mp hfind
  obtain ⟨hmem, hp⟩ := h.mem_iff.mp (List.mem_append_right _ List.mem_cons_self)
  refine ⟨hmem, hp, hq, fun b hb hpb hqb => ?_⟩
  rcases List.mem_append.mp (h.mem_iff.mpr ⟨hb, hpb⟩) with hearly | hlate
  · have hnot := hbefore b hearly
    rw [hqb] at hnot
    cases hnot
  · rcases List.mem_cons.mp hlate with rfl | hlate
    · exact (k.total b b).elim id id
    · exact (List.pairwise_cons.mp (List.pairwise_append.mp h.sorted).2.1).1 b hlate

/-- What is not found in a result is in no selected row. -/
theorem IsSelection.find?_eq_none (h : IsSelection rows p k result) :
    result.find? q = none ↔ ∀ b ∈ rows, p b = true → q b = false := by
  rw [List.find?_eq_none]
  constructor
  · intro hnone b hb hpb
    exact (Bool.not_eq_true _).mp (hnone b (h.mem_iff.mpr ⟨hb, hpb⟩))
  · intro hnone b hb
    obtain ⟨hmem, hp⟩ := h.mem_iff.mp hb
    exact (Bool.not_eq_true _).mpr (hnone b hmem hp)

/-- **A row can come first among those it is not told apart from.** Hence a choice by the first row
is only safe without such ties. -/
theorem exists_isSelection_find? (k : SortKey α) (ha : a ∈ rows) (hp : p a = true) (hq : q a = true) :
    ∃ result b, IsSelection rows p k result ∧ result.find? q = some b ∧
      (b = a ∨ k.Precedes b a) := by
  classical
  -- among equals, `a` is put first
  let first : SortKey α := k.thenBy (.ofLinearOrder fun b => decide (b ≠ a))
  have hsorted := isSelection_mergeSort rows p first
  have hresult : IsSelection rows p k ((rows.filter p).mergeSort first.le) :=
    ⟨hsorted.perm, hsorted.sorted.imp fun h => (SortKey.thenBy_le_iff.mp h).1⟩
  cases hfind : ((rows.filter p).mergeSort first.le).find? q with
  | none =>
      have hnone := hresult.find?_eq_none.mp hfind a ha hp
      rw [hq] at hnone
      cases hnone
  | some b =>
      refine ⟨_, b, hresult, hfind, ?_⟩
      obtain ⟨-, -, -, hle⟩ := hsorted.find?_eq_some hfind
      obtain ⟨-, htie⟩ := SortKey.thenBy_le_iff.mp (hle a ha hp hq)
      by_cases hback : k.le a b = true
      · have hfirst : decide (b ≠ a) ≤ decide (a ≠ a) := of_decide_eq_true (htie hback)
        left
        by_contra hne
        simp [hne, Bool.le_iff_imp] at hfirst
      · exact .inr ((Bool.not_eq_true _).mp hback)

end IsSelection

/-! ## Groups -/

/-- A result of `SELECT key, … FROM rows WHERE p GROUP BY key ORDER BY key`: each key that occurs,
with its rows. -/
structure IsGrouping [DecidableEq κ] (rows : List α) (p : α → Bool) (key : α → κ) (k : SortKey κ)
    (groups : List (κ × List α)) : Prop where
  keys_nodup : (groups.map Prod.fst).Nodup
  mem_keys : ∀ a ∈ rows, p a = true → key a ∈ groups.map Prod.fst
  rows_eq : ∀ g ∈ groups, g.2 = rows.filter fun a => p a && decide (key a = g.1)
  nonempty : ∀ g ∈ groups, g.2 ≠ []
  sorted : (groups.map Prod.fst).Pairwise fun x y => k.le x y = true

section IsGrouping

variable [DecidableEq κ] {rows : List α} {p : α → Bool} {key : α → κ} {k : SortKey κ}
variable {groups : List (κ × List α)}

/-- Sorting the keys gives a result. -/
theorem exists_isGrouping (rows : List α) (p : α → Bool) (key : α → κ) (k : SortKey κ) :
    ∃ groups, IsGrouping rows p key k groups := by
  have hperm := List.mergeSort_perm ((rows.filter p).map key).dedup k.le
  have hkeys : ((((rows.filter p).map key).dedup.mergeSort k.le).map fun x =>
      (x, rows.filter fun a => p a && decide (key a = x))).map Prod.fst =
        ((rows.filter p).map key).dedup.mergeSort k.le := by
    rw [List.map_map]
    exact List.map_id _
  refine ⟨(((rows.filter p).map key).dedup.mergeSort k.le).map fun x =>
    (x, rows.filter fun a => p a && decide (key a = x)), ?_, ?_, ?_, ?_, ?_⟩
  · rw [hkeys]
    exact hperm.nodup_iff.mpr (List.nodup_dedup _)
  · intro a ha hp
    rw [hkeys, hperm.mem_iff, List.mem_dedup]
    exact List.mem_map_of_mem (List.mem_filter.mpr ⟨ha, hp⟩)
  · intro g hg
    obtain ⟨x, -, rfl⟩ := List.mem_map.mp hg
    rfl
  · intro g hg
    obtain ⟨x, hx, rfl⟩ := List.mem_map.mp hg
    rw [hperm.mem_iff, List.mem_dedup] at hx
    obtain ⟨a, ha, rfl⟩ := List.mem_map.mp hx
    obtain ⟨hmem, hp⟩ := List.mem_filter.mp ha
    exact List.ne_nil_of_mem (List.mem_filter.mpr ⟨hmem, by simp [hp]⟩)
  · rw [hkeys]
    refine @List.pairwise_mergeSort _ k.le (fun a b c => k.trans) (fun a b => ?_) _
    rw [Bool.or_eq_true]
    exact k.total a b

/-- Each key comes from a row. -/
theorem IsGrouping.exists_row (h : IsGrouping rows p key k groups) {g : κ × List α} (hg : g ∈ groups) :
    ∃ a ∈ rows, p a = true ∧ key a = g.1 := by
  obtain ⟨a, ha⟩ := List.exists_mem_of_ne_nil _ (h.nonempty g hg)
  rw [h.rows_eq g hg, List.mem_filter, Bool.and_eq_true, decide_eq_true_eq] at ha
  exact ⟨a, ha.1, ha.2⟩

theorem IsGrouping.key_eq (h : IsGrouping rows p key k groups) {g : κ × List α} (hg : g ∈ groups)
    {a : α} (ha : a ∈ g.2) : key a = g.1 := by
  rw [h.rows_eq g hg, List.mem_filter, Bool.and_eq_true, decide_eq_true_eq] at ha
  exact ha.2.2

/-- A row is in the group of its key, and in no other. -/
theorem IsGrouping.existsUnique (h : IsGrouping rows p key k groups) {a : α} (ha : a ∈ rows)
    (hp : p a = true) : ∃! g, g ∈ groups ∧ a ∈ g.2 := by
  have hmem : ∀ g ∈ groups, (a ∈ g.2 ↔ key a = g.1) := by
    intro g hg
    rw [h.rows_eq g hg, List.mem_filter]
    simp [ha, hp]
  obtain ⟨g, hg, hkey⟩ := List.mem_map.mp (h.mem_keys a ha hp)
  refine ⟨g, ⟨hg, (hmem g hg).mpr hkey.symm⟩, ?_⟩
  rintro g' ⟨hg', ha'⟩
  exact List.inj_on_of_nodup_map h.keys_nodup hg' hg (((hmem g' hg').mp ha').symm.trans hkey.symm)

variable {M : Type} [AddCommMonoid M]

/-- Of distinct keys at most one is that of a row. -/
theorem sum_ite_key {keys : List κ} (hkeys : keys.Nodup) (x : κ) (m : M) :
    (keys.map fun y => if x = y then m else 0).sum = if x ∈ keys then m else 0 := by
  induction keys with
  | nil => rfl
  | cons y keys ih =>
      obtain ⟨hy, hkeys⟩ := List.nodup_cons.mp hkeys
      rw [List.map_cons, List.sum_cons, ih hkeys]
      by_cases hxy : x = y
      · subst hxy
        simp [hy]
      · simp [hxy]

/-- Rows can be added up key by key. -/
theorem sum_keys {keys : List κ} (hkeys : keys.Nodup) (rows : List α) (key : α → κ) (f : α → M) :
    (keys.map fun y => ((rows.filter fun a => key a = y).map f).sum).sum =
      ((rows.filter fun a => key a ∈ keys).map f).sum := by
  induction rows with
  | nil => simp
  | cons a rows ih =>
      have hhead : ∀ y, (((a :: rows).filter fun b => key b = y).map f).sum =
          (if key a = y then f a else 0) + ((rows.filter fun b => key b = y).map f).sum := by
        intro y
        by_cases hy : key a = y
        · simp [hy]
        · simp [hy]
      simp only [hhead]
      rw [List.sum_map_add, sum_ite_key hkeys, ih]
      by_cases ha : key a ∈ keys
      · simp [ha]
      · simp [ha]

/-- **Groups add up**: what is summed over the groups is the sum over the rows.  Reports rest on
this. -/
theorem IsGrouping.sum_eq (h : IsGrouping rows p key k groups) (f : α → M) :
    (groups.map fun g => (g.2.map f).sum).sum = ((rows.filter p).map f).sum := by
  have hgroups : groups.map (fun g => (g.2.map f).sum) =
      (groups.map Prod.fst).map fun y => (((rows.filter p).filter fun a => key a = y).map f).sum := by
    rw [List.map_map]
    refine List.map_congr_left fun g hg => ?_
    rw [h.rows_eq g hg, Function.comp_apply, List.filter_filter]
    simp only [Bool.and_comm]
  have hall : ((rows.filter p).filter fun a => key a ∈ groups.map Prod.fst) = rows.filter p := by
    refine List.filter_eq_self.mpr fun a ha => ?_
    obtain ⟨hmem, hp⟩ := List.mem_filter.mp ha
    exact decide_eq_true (h.mem_keys a hmem hp)
  rw [hgroups, sum_keys h.keys_nodup, hall]

/-- The groups have all the selected rows, each once. -/
theorem IsGrouping.length_eq (h : IsGrouping rows p key k groups) :
    (groups.map fun g => g.2.length).sum = (rows.filter p).length := by
  have hones := h.sum_eq fun _ => 1
  simpa [List.map_const'] using hones

end IsGrouping

end Relational
