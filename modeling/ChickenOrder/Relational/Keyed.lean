import Mathlib.Logic.Function.Basic
import ChickenOrder.Relational.Query

/-!
# Rows as a partial map

Rows with a primary key are a partial map from keys to rows, whatever order they are kept in.
`lookup` is that map.  An `INSERT` of a new key, an `UPDATE` of the row of a key and a `DELETE` of it
change the map at that key only, and a `SELECT` lists part of its graph, each row once.

So two lists of rows with the same map answer every query alike, and a statement that changes
the map at one key leaves the answers about all others.  `isSelection_iff` is where the map
takes the place of the list.
-/

namespace Relational

variable {α κ : Type} [DecidableEq κ]

/-- The row of a key. -/
def lookup (key : α → κ) (rows : List α) (k : κ) : Option α := rows.find? fun a => key a = k

/-- `UPDATE … WHERE key = k`. -/
def assign (key : α → κ) (rows : List α) (k : κ) (f : α → α) : List α :=
  rows.map fun a => if key a = k then f a else a

/-- `DELETE … WHERE key = k`. -/
def erase (key : α → κ) (rows : List α) (k : κ) : List α := rows.filter fun a => key a ≠ k

section Keyed

variable {key : α → κ} {rows : List α} {k : κ} {a : α} {f : α → α}

theorem lookup_eq_none_iff : lookup key rows k = none ↔ k ∉ rows.map key := by
  rw [lookup, List.find?_eq_none, List.mem_map]
  constructor
  · rintro hnone ⟨a, ha, rfl⟩
    exact hnone a ha (decide_eq_true rfl)
  · intro habsent a ha hkey
    exact habsent ⟨a, ha, of_decide_eq_true hkey⟩

theorem key_of_lookup (h : lookup key rows k = some a) : key a = k :=
  of_decide_eq_true (List.find?_some h :)

theorem mem_of_lookup (h : lookup key rows k = some a) : a ∈ rows := List.mem_of_find?_eq_some h

/-- With a primary key, a row is found by its key exactly if it is there. -/
theorem lookup_eq_some_iff (hpk : (rows.map key).Nodup) :
    lookup key rows k = some a ↔ a ∈ rows ∧ key a = k := by
  constructor
  · intro h
    exact ⟨mem_of_lookup h, key_of_lookup h⟩
  · rintro ⟨ha, rfl⟩
    cases hfind : lookup key rows (key a) with
    | none => exact absurd (List.mem_map_of_mem ha) (lookup_eq_none_iff.mp hfind)
    | some b =>
        rw [List.inj_on_of_nodup_map hpk (mem_of_lookup hfind) ha (key_of_lookup hfind)]

/-- At most one row has a key. -/
theorem filter_key (hpk : (rows.map key).Nodup) (k : κ) :
    (rows.filter fun a => key a = k) = (lookup key rows k).toList := by
  induction rows with
  | nil => rfl
  | cons a rows ih =>
      rw [List.map_cons, List.nodup_cons] at hpk
      rw [lookup, List.find?_cons, List.filter_cons]
      by_cases hkey : key a = k
      · subst hkey
        have hnone : lookup key rows (key a) = none := lookup_eq_none_iff.mpr hpk.1
        rw [ih hpk.2, hnone]
        simp
      · simp only [hkey, decide_false, Bool.false_eq_true, if_false]
        exact ih hpk.2

/-! ## Statements -/

/-- An insert of a new key is an update of the map from keys to rows.  Where the row stands does not
show in the map. -/
theorem lookup_insert (hnew : key a ∉ rows.map key) :
    lookup key (rows ++ [a]) = Function.update (lookup key rows) (key a) (some a) := by
  funext k
  rw [lookup, List.find?_append]
  by_cases hk : k = key a
  · subst hk
    have hnone : rows.find? (fun b => key b = key a) = none := lookup_eq_none_iff.mpr hnew
    rw [hnone, Function.update_self]
    simp
  · rw [Function.update_of_ne hk]
    have hlast : [a].find? (fun b => key b = k) = none := by simp [Ne.symm hk]
    rw [hlast, Option.or_none]
    rfl

omit [DecidableEq κ] in
theorem nodup_insert (hpk : (rows.map key).Nodup) (hnew : key a ∉ rows.map key) :
    ((rows ++ [a]).map key).Nodup := by
  rw [List.map_append, List.nodup_append]
  refine ⟨hpk, List.nodup_singleton _, ?_⟩
  rintro k hk _ hlast rfl
  exact hnew (List.mem_singleton.mp hlast ▸ hk)

/-- An assignment that keeps keys keeps the list of them. -/
theorem map_key_assign (hf : ∀ a, key (f a) = key a) (k : κ) :
    (assign key rows k f).map key = rows.map key := by
  rw [assign, List.map_map]
  refine List.map_congr_left fun a _ => ?_
  show key (if key a = k then f a else a) = key a
  split
  · exact hf a
  · rfl

/-- Its rows are old ones, or the assigned one of the key. -/
theorem mem_assign {b : α} (h : b ∈ assign key rows k f) :
    b ∈ rows ∨ ∃ a ∈ rows, key a = k ∧ b = f a := by
  obtain ⟨a, ha, rfl⟩ := List.mem_map.mp h
  by_cases hkey : key a = k
  · exact .inr ⟨a, ha, hkey, if_pos hkey⟩
  · rw [if_neg hkey]
    exact .inl ha

/-- It is an update of the map too, at the one key. -/
theorem lookup_assign (hf : ∀ a, key (f a) = key a) :
    lookup key (assign key rows k f) =
      Function.update (lookup key rows) k ((lookup key rows k).map f) := by
  funext l
  have hkeys : ∀ a, decide (key (if key a = k then f a else a) = l) = decide (key a = l) := by
    intro a
    split
    · rw [hf]
    · rfl
  have hfind : lookup key (assign key rows k f) l =
      (lookup key rows l).map fun a => if key a = k then f a else a := by
    rw [lookup, assign, List.find?_map]
    exact congrArg (Option.map _) (congrArg (List.find? · rows) (funext hkeys))
  rw [hfind]
  by_cases hl : l = k
  · subst hl
    rw [Function.update_self]
    refine Option.map_congr fun a ha => ?_
    exact if_pos (key_of_lookup ha)
  · rw [Function.update_of_ne hl]
    cases hrow : lookup key rows l with
    | none => rfl
    | some a =>
        have hne : key a ≠ k := fun hkey => hl ((key_of_lookup hrow).symm.trans hkey)
        rw [Option.map_some, if_neg hne]

theorem nodup_erase (hpk : (rows.map key).Nodup) (k : κ) : ((erase key rows k).map key).Nodup :=
  (List.filter_sublist.map key).nodup hpk

theorem mem_erase_iff : a ∈ erase key rows k ↔ a ∈ rows ∧ key a ≠ k := by
  rw [erase, List.mem_filter, decide_eq_true_eq]

theorem lookup_erase : lookup key (erase key rows k) = Function.update (lookup key rows) k none := by
  funext l
  by_cases hl : l = k
  · subst hl
    rw [Function.update_self, lookup_eq_none_iff]
    intro hmem
    obtain ⟨a, ha, hkey⟩ := List.mem_map.mp hmem
    exact (mem_erase_iff.mp ha).2 hkey
  · rw [Function.update_of_ne hl, lookup, lookup, erase, List.find?_filter]
    congr 1
    funext a
    by_cases hkey : key a = l
    · simp [hkey, hl]
    · simp [hkey]

/-! ## Queries -/

/-- **A query of keyed rows**: each row of the map that it asks for, once and in order.  So a query
does not depend on how the rows are arranged. -/
theorem isSelection_iff {p : α → Bool} {order : SortKey α} {result : List α}
    (hpk : (rows.map key).Nodup) : IsSelection rows p order result ↔
      result.Nodup ∧ (∀ a, a ∈ result ↔ lookup key rows (key a) = some a ∧ p a = true) ∧
        result.Pairwise fun a b => order.le a b = true := by
  have hmem : ∀ a, a ∈ rows.filter p ↔ lookup key rows (key a) = some a ∧ p a = true := by
    intro a
    rw [List.mem_filter, lookup_eq_some_iff hpk]
    simp
  have hnodup : (rows.filter p).Nodup := (List.Nodup.of_map key hpk).filter p
  constructor
  · rintro ⟨hperm, hsorted⟩
    exact ⟨hperm.nodup_iff.mpr hnodup, fun a => hperm.mem_iff.trans (hmem a), hsorted⟩
  · rintro ⟨hdistinct, hlists, hsorted⟩
    refine ⟨(List.perm_ext_iff_of_nodup hdistinct hnodup).mpr fun a => ?_, hsorted⟩
    rw [hlists, hmem]

/-- A query of rows that are made from others, each from one. -/
theorem isSelection_map {β : Type} {g : α → β} {back : β → α} (hback : Function.LeftInverse back g)
    {p : β → Bool} {order : SortKey α} {result : List β} :
    IsSelection (rows.map g) p (.comap back order) result ↔
      ∃ rows', IsSelection rows (fun a => p (g a)) order rows' ∧ result = rows'.map g := by
  have hfilter : (rows.map g).filter p = (rows.filter fun a => p (g a)).map g := List.filter_map
  constructor
  · rintro ⟨hperm, hsorted⟩
    rw [hfilter] at hperm
    refine ⟨result.map back, ⟨?_, List.pairwise_map.mpr hsorted⟩, ?_⟩
    · have hperm' := hperm.map back
      rwa [List.map_map, hback.comp_eq_id, List.map_id] at hperm'
    · rw [List.map_map]
      refine (List.map_id' result).symm.trans (List.map_congr_left fun b hb => ?_)
      obtain ⟨a, -, rfl⟩ := List.mem_map.mp (hperm.mem_iff.mp hb)
      exact congrArg g (hback a).symm
  · rintro ⟨rows', ⟨hperm, hsorted⟩, rfl⟩
    refine ⟨hfilter ▸ hperm.map g, List.pairwise_map.mpr (hsorted.imp fun {a b} hle => ?_)⟩
    show order.le (back (g a)) (back (g b)) = true
    rwa [hback, hback]

end Keyed

end Relational
