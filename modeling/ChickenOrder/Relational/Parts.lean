import Mathlib.Logic.Function.Basic
import ChickenOrder.Relational.Query

/-!
# Rows by their owners

Where every row has one owner, a table is a sheet of rows for each of them.  To delete the rows of
an owner and to insert others is to write its sheet anew, and no other sheet is touched.

What a key of the whole table asks of the new rows is said by `nodup_replacePart_iff`: they have
to be distinct among themselves and from the rows of the other owners, the old rows being out of
the way already.
-/

namespace Relational

variable {α κ ο : Type} [DecidableEq ο]

/-- The rows of an owner, as the table has them, in the same order. -/
def part (owner : α → ο) (rows : List α) (o : ο) : List α := rows.filter fun a => owner a = o

/-- `DELETE … WHERE owner = o`, and `INSERT`s of the new rows.  They stand behind those of other
owners. -/
def replacePart (owner : α → ο) (rows : List α) (o : ο) (new : List α) : List α :=
  (rows.filter fun a => owner a ≠ o) ++ new

section Parts

variable {owner : α → ο} {rows new : List α} {o : ο} {a : α}

theorem mem_part_iff : a ∈ part owner rows o ↔ a ∈ rows ∧ owner a = o := by
  rw [part, List.mem_filter, decide_eq_true_eq]

/-- Replacing a part leaves the rows of other owners and adds the new ones. -/
theorem mem_replacePart_iff :
    a ∈ replacePart owner rows o new ↔ (a ∈ rows ∧ owner a ≠ o) ∨ a ∈ new := by
  rw [replacePart, List.mem_append, List.mem_filter, decide_eq_true_eq]

/-- **The owner's sheet is written anew**, and the others stay.  So the table is the function from
owners to their sheets. -/
theorem part_replacePart (hnew : ∀ a ∈ new, owner a = o) :
    part owner (replacePart owner rows o new) = Function.update (part owner rows) o new := by
  funext o'
  rw [part, replacePart, List.filter_append, List.filter_filter]
  by_cases ho : o' = o
  · subst ho
    have hold : (rows.filter fun a => decide (owner a = o') && decide (owner a ≠ o')) = [] := by
      rw [List.filter_eq_nil_iff]
      intro a _
      simp
    rw [hold, Function.update_self, List.nil_append, List.filter_eq_self]
    exact fun a ha => decide_eq_true (hnew a ha)
  · have hkept : (rows.filter fun a => decide (owner a = o') && decide (owner a ≠ o)) =
        part owner rows o' := by
      refine List.filter_congr fun a _ => ?_
      by_cases howner : owner a = o'
      · simp [howner, ho]
      · simp [howner]
    have hnone : new.filter (fun a => decide (owner a = o')) = [] := by
      rw [List.filter_eq_nil_iff]
      intro a ha howner
      exact ho ((of_decide_eq_true howner).symm.trans (hnew a ha))
    rw [hkept, hnone, List.append_nil, Function.update_of_ne ho]

/-- What is unique in a table stays so if it is unique in the new rows and no other owner has it. -/
theorem nodup_replacePart_iff {key : α → κ} (hpk : (rows.map key).Nodup) :
    ((replacePart owner rows o new).map key).Nodup ↔
      (new.map key).Nodup ∧ ∀ a ∈ rows, owner a ≠ o → key a ∉ new.map key := by
  have hold : ((rows.filter fun a => owner a ≠ o).map key).Nodup :=
    (List.filter_sublist.map key).nodup hpk
  rw [replacePart, List.map_append, List.nodup_append, and_iff_right hold]
  refine and_congr_right fun _ => ?_
  constructor
  · intro hdisjoint a ha howner hkey
    have hmem : a ∈ rows.filter fun a => owner a ≠ o :=
      List.mem_filter.mpr ⟨ha, decide_eq_true howner⟩
    exact hdisjoint (key a) (List.mem_map_of_mem hmem) (key a) hkey rfl
  · rintro hnone _ hkey k hk rfl
    obtain ⟨a, hmem, rfl⟩ := List.mem_map.mp hkey
    obtain ⟨ha, howner⟩ := List.mem_filter.mp hmem
    exact hnone a ha (of_decide_eq_true howner) hk

/-- A query of an owner's rows is one of its sheet. -/
theorem isSelection_part {p : α → Bool} {order : SortKey α} {result : List α} :
    IsSelection rows (fun a => owner a = o ∧ p a) order result ↔
      IsSelection (part owner rows o) p order result := by
  have hrows : (rows.filter fun a => owner a = o ∧ p a) = (part owner rows o).filter p := by
    rw [part, List.filter_filter]
    exact List.filter_congr fun a _ => by simp [Bool.and_comm]
  constructor
  · rintro ⟨hperm, hsorted⟩
    exact ⟨hrows ▸ hperm, hsorted⟩
  · rintro ⟨hperm, hsorted⟩
    exact ⟨hrows ▸ hperm, hsorted⟩

end Parts

end Relational
