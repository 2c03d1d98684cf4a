import ChickenOrder.Relational.Query

/-!
# Pages of a query

`SELECT … WHERE p ORDER BY k LIMIT limit OFFSET offset` cuts a window out of a result.  Each
request for a page is a query of its own, and so each page may be cut out of another result.
`rankBelow` and `rankUpto` bound where a row can stand; its equals take the positions between
them, in any order.

A row is on exactly one page, whichever results the pages come from, if and only if its equals
are not on both sides of a page boundary: `existsUnique_page_iff`.
-/

namespace Relational

variable {α : Type}

/-- A result of `SELECT … FROM rows WHERE p ORDER BY k LIMIT limit OFFSET offset`: a window of some
result of the query. -/
def IsWindow (rows : List α) (p : α → Bool) (k : SortKey α) (offset limit : ℕ) (window : List α) :
    Prop :=
  ∃ result, IsSelection rows p k result ∧ window = (result.drop offset).take limit

/-- Pages of `limit` rows, each read by itself, so that each may be a window of another result. -/
def IsPaging (rows : List α) (p : α → Bool) (k : SortKey α) (limit : ℕ) (pages : ℕ → List α) : Prop :=
  ∀ n, IsWindow rows p k (n * limit) limit (pages n)

/-- How many of the selected rows come before `a` in every result.  It cannot stand in front of that
position. -/
def rankBelow (rows : List α) (p : α → Bool) (k : SortKey α) (a : α) : ℕ :=
  (rows.filter p).countP fun b => k.Precedes b a

/-- How many of the selected rows are not behind `a` in every result; `a` is one of them. -/
def rankUpto (rows : List α) (p : α → Bool) (k : SortKey α) (a : α) : ℕ :=
  (rows.filter p).countP fun b => k.le b a

/-- The rows that `k` does not tell from `a` can stand on both sides of the boundary.  These are the
rows that paging can lose or repeat. -/
def Straddles (rows : List α) (p : α → Bool) (k : SortKey α) (boundary : ℕ) (a : α) : Prop :=
  rankBelow rows p k a < boundary ∧ boundary < rankUpto rows p k a

instance (rows : List α) (p : α → Bool) (k : SortKey α) (boundary : ℕ) (a : α) :
    Decidable (Straddles rows p k boundary a) :=
  inferInstanceAs (Decidable (_ ∧ _))

/-! ## Windows -/

/-- What a window shows stands at one of its positions. -/
theorem mem_window_iff {result : List α} {offset limit : ℕ} {a : α} :
    a ∈ (result.drop offset).take limit ↔ ∃ before after, result = before ++ a :: after ∧
      offset ≤ before.length ∧ before.length < offset + limit := by
  constructor
  · intro h
    obtain ⟨i, hi, rfl⟩ := List.getElem_of_mem h
    rw [List.length_take, List.length_drop] at hi
    rw [List.getElem_take, List.getElem_drop]
    refine ⟨result.take (offset + i), result.drop (offset + i + 1), ?_, ?_, ?_⟩
    · rw [List.getElem_cons_drop, List.take_append_drop]
    · rw [List.length_take]
      omega
    · rw [List.length_take]
      omega
  · rintro ⟨before, after, rfl, hoffset, hlimit⟩
    rw [List.drop_append_of_le_length hoffset, List.take_append, List.length_drop]
    refine List.mem_append_right _ ?_
    obtain ⟨m, hm⟩ : ∃ m, limit - (before.length - offset) = m + 1 :=
      ⟨limit - (before.length - offset) - 1, by omega⟩
    rw [hm, List.take_succ_cons]
    exact List.mem_cons_self

section IsWindow

variable {rows window : List α} {p : α → Bool} {k : SortKey α} {offset limit : ℕ} {a b : α}

/-- Every query has a result, and so a window. -/
theorem exists_isWindow (rows : List α) (p : α → Bool) (k : SortKey α) (offset limit : ℕ) :
    ∃ window, IsWindow rows p k offset limit window :=
  ⟨_, _, isSelection_mergeSort rows p k, rfl⟩

/-- A window shows selected rows. -/
theorem IsWindow.mem (h : IsWindow rows p k offset limit window) (ha : a ∈ window) :
    a ∈ rows ∧ p a = true := by
  obtain ⟨result, hresult, rfl⟩ := h
  exact hresult.mem_iff.mp (List.mem_of_mem_drop (List.mem_of_mem_take ha))

/-- A window is full, or reaches the end. -/
theorem IsWindow.length_eq (h : IsWindow rows p k offset limit window) :
    window.length = min limit ((rows.filter p).length - offset) := by
  obtain ⟨result, hresult, rfl⟩ := h
  rw [List.length_take, List.length_drop, hresult.perm.length_eq]

theorem IsWindow.sorted (h : IsWindow rows p k offset limit window) :
    window.Pairwise fun a b => k.le a b = true := by
  obtain ⟨result, hresult, rfl⟩ := h
  exact hresult.sorted.sublist ((List.take_sublist _ _).trans (List.drop_sublist _ _))

/-- If a key tells the rows apart, it tells those of a window apart. -/
theorem IsWindow.nodup_map {β : Type} {f : α → β} (h : IsWindow rows p k offset limit window)
    (hrows : (rows.map f).Nodup) : (window.map f).Nodup := by
  obtain ⟨result, hresult, rfl⟩ := h
  have hnodup : (result.map f).Nodup :=
    (hresult.perm.map f).nodup_iff.mpr ((List.filter_sublist.map f).nodup hrows)
  exact hnodup.sublist (((List.take_sublist _ _).trans (List.drop_sublist _ _)).map f)

/-- A window shows no row twice that the table has once. -/
theorem IsWindow.nodup (h : IsWindow rows p k offset limit window) (hrows : rows.Nodup) :
    window.Nodup := by
  have hid : (rows.map id).Nodup := by rwa [List.map_id]
  have hwindow := h.nodup_map hid
  rwa [List.map_id] at hwindow

/-- A first window that is not full is all of a result. -/
theorem IsWindow.isSelection (h : IsWindow rows p k 0 limit window) (hlt : window.length < limit) :
    IsSelection rows p k window := by
  have hlength := h.length_eq
  obtain ⟨result, hresult, rfl⟩ := h
  have hall : result.length ≤ limit := by
    rw [hresult.perm.length_eq]
    omega
  rwa [List.drop_zero, List.take_of_length_le hall]

/-- **What the first window leaves out** comes after all it shows, and it is full then. -/
theorem IsWindow.le_of_not_mem (h : IsWindow rows p k 0 limit window) (ha : a ∈ rows)
    (hp : p a = true) (hout : a ∉ window) :
    window.length = limit ∧ ∀ b ∈ window, k.le b a = true := by
  have hlength := h.length_eq
  obtain ⟨result, hresult, rfl⟩ := h
  rw [List.drop_zero] at hout hlength ⊢
  have hmem : a ∈ result.take limit ++ result.drop limit := by
    rw [List.take_append_drop]
    exact hresult.mem_iff.mpr ⟨ha, hp⟩
  have hrest : a ∈ result.drop limit := (List.mem_append.mp hmem).resolve_left hout
  have hsplit := hresult.sorted
  rw [← List.take_append_drop limit result, List.pairwise_append] at hsplit
  refine ⟨?_, fun b hb => hsplit.2.2 b hb a hrest⟩
  have hpos := List.length_pos_of_mem hrest
  rw [List.length_drop, hresult.perm.length_eq] at hpos
  omega

end IsWindow

/-! ## Positions -/

section Positions

variable {rows before after : List α} {p : α → Bool} {k : SortKey α} {a : α}

/-- No result puts a row before its rank. -/
theorem IsSelection.rankBelow_le (h : IsSelection rows p k (before ++ a :: after)) :
    rankBelow rows p k a ≤ before.length := by
  have hlater : ∀ b ∈ a :: after, ¬ k.Precedes b a := by
    intro b hb hprecedes
    have hle : k.le a b = true := by
      obtain rfl | hb := List.mem_cons.mp hb
      · exact (k.total b b).elim id id
      · exact (List.pairwise_cons.mp (List.pairwise_append.mp h.sorted).2.1).1 b hb
    rw [hprecedes] at hle
    cases hle
  have hnone : (a :: after).countP (fun b => k.Precedes b a) = 0 :=
    List.countP_eq_zero.mpr fun b hb => by simpa using hlater b hb
  unfold rankBelow
  rw [← h.perm.countP_eq, List.countP_append, hnone, Nat.add_zero]
  exact List.countP_le_length

/-- No result puts it behind all that are not behind it. -/
theorem IsSelection.lt_rankUpto (h : IsSelection rows p k (before ++ a :: after)) :
    before.length < rankUpto rows p k a := by
  have hbefore : before.countP (fun b => k.le b a) = before.length :=
    List.countP_eq_length.mpr fun b hb =>
      (List.pairwise_append.mp h.sorted).2.2 b hb a List.mem_cons_self
  have hself : k.le a a = true := (k.total a a).elim id id
  unfold rankUpto
  rw [← h.perm.countP_eq, List.countP_append, hbefore, List.countP_cons, hself]
  simp

variable (ha : a ∈ rows) (hp : p a = true) (hnodup : rows.Nodup)

include ha hp hnodup

/-- Some result puts it right at its rank. -/
theorem exists_isSelection_first (k : SortKey α) : ∃ before after,
    IsSelection rows p k (before ++ a :: after) ∧ before.length = rankBelow rows p k a := by
  classical
  let first : SortKey α := k.thenBy (.ofLinearOrder fun b => decide (b ≠ a))
  have hsorted := isSelection_mergeSort rows p first
  obtain ⟨before, after, hsplit⟩ := List.append_of_mem (hsorted.mem_iff.mpr ⟨ha, hp⟩)
  rw [hsplit] at hsorted
  have hresult : IsSelection rows p k (before ++ a :: after) :=
    ⟨hsorted.perm, hsorted.sorted.imp fun h => (SortKey.thenBy_le_iff.mp h).1⟩
  refine ⟨before, after, hresult, le_antisymm ?_ hresult.rankBelow_le⟩
  -- whatever stands before it is no equal of it
  have hall : before.countP (fun b => k.Precedes b a) = before.length := by
    refine List.countP_eq_length.mpr fun b hb => decide_eq_true ?_
    obtain ⟨-, htie⟩ := SortKey.thenBy_le_iff.mp
      ((List.pairwise_append.mp hsorted.sorted).2.2 b hb a List.mem_cons_self)
    refine (Bool.not_eq_true _).mp fun hback => ?_
    have hfirst : decide (b ≠ a) ≤ decide (a ≠ a) := of_decide_eq_true (htie hback)
    have hne : b ≠ a := by
      rintro rfl
      have hdisjoint := (List.nodup_append.mp (hresult.perm.nodup_iff.mpr (hnodup.filter p))).2.2
      exact hdisjoint b hb b List.mem_cons_self rfl
    simp [hne, Bool.le_iff_imp] at hfirst
  unfold rankBelow
  rw [← hresult.perm.countP_eq, List.countP_append, hall]
  exact Nat.le_add_right _ _

/-- Some result puts all its equals before it. -/
theorem exists_isSelection_last (k : SortKey α) : ∃ before after,
    IsSelection rows p k (before ++ a :: after) ∧ before.length + 1 = rankUpto rows p k a := by
  classical
  let last : SortKey α := k.thenBy (.ofLinearOrder fun b => decide (b = a))
  have hsorted := isSelection_mergeSort rows p last
  obtain ⟨before, after, hsplit⟩ := List.append_of_mem (hsorted.mem_iff.mpr ⟨ha, hp⟩)
  rw [hsplit] at hsorted
  have hresult : IsSelection rows p k (before ++ a :: after) :=
    ⟨hsorted.perm, hsorted.sorted.imp fun h => (SortKey.thenBy_le_iff.mp h).1⟩
  refine ⟨before, after, hresult, le_antisymm hresult.lt_rankUpto ?_⟩
  have hnone : after.countP (fun b => k.le b a) = 0 := by
    refine List.countP_eq_zero.mpr fun b hb hle => ?_
    obtain ⟨hafter, hsplit⟩ := List.nodup_cons.mp
      (List.nodup_append.mp (hresult.perm.nodup_iff.mpr (hnodup.filter p))).2.1
    obtain ⟨-, htie⟩ := SortKey.thenBy_le_iff.mp
      ((List.pairwise_cons.mp (List.pairwise_append.mp hsorted.sorted).2.1).1 b hb)
    have hlast : decide (a = a) ≤ decide (b = a) := of_decide_eq_true (htie hle)
    have hne : b ≠ a := fun heq => hafter (heq ▸ hb)
    simp [hne, Bool.le_iff_imp] at hlast
  unfold rankUpto
  rw [← hresult.perm.countP_eq, List.countP_append, List.countP_cons, hnone, Nat.zero_add]
  refine Nat.add_le_add List.countP_le_length ?_
  split <;> omega

end Positions

/-! ## Pages -/

section Paging

variable {rows : List α} {pages : ℕ → List α} {p : α → Bool} {k : SortKey α} {limit n : ℕ} {a : α}

/-- A page shows only what can stand on it. -/
theorem IsPaging.rank_of_mem (h : IsPaging rows p k limit pages) (ha : a ∈ pages n) :
    rankBelow rows p k a < n * limit + limit ∧ n * limit < rankUpto rows p k a := by
  obtain ⟨result, hresult, hpage⟩ := h n
  rw [hpage, mem_window_iff] at ha
  obtain ⟨before, after, rfl, hoffset, hlimit⟩ := ha
  exact ⟨hresult.rankBelow_le.trans_lt hlimit, hoffset.trans_lt hresult.lt_rankUpto⟩

/-- A page shows all that can stand nowhere else. -/
theorem IsPaging.mem_of_rank (h : IsPaging rows p k limit pages) (ha : a ∈ rows) (hp : p a = true)
    (hbelow : n * limit ≤ rankBelow rows p k a) (hupto : rankUpto rows p k a ≤ n * limit + limit) :
    a ∈ pages n := by
  obtain ⟨result, hresult, hpage⟩ := h n
  rw [hpage, mem_window_iff]
  obtain ⟨before, after, rfl⟩ := List.append_of_mem (hresult.mem_iff.mpr ⟨ha, hp⟩)
  exact ⟨before, after, rfl, hbelow.trans hresult.rankBelow_le, hresult.lt_rankUpto.trans_le hupto⟩

/-- The page of a row whose equals are all on it. -/
theorem IsPaging.mem_iff (h : IsPaging rows p k limit pages) (ha : a ∈ rows) (hp : p a = true)
    (hlimit : 0 < limit) (hwhole : ∀ n, ¬ Straddles rows p k (n * limit) a) :
    a ∈ pages n ↔ n = rankBelow rows p k a / limit := by
  have hstraddle : ∀ n, rankBelow rows p k a < n * limit → rankUpto rows p k a ≤ n * limit :=
    fun n hbelow => not_lt.mp fun hupto => hwhole n ⟨hbelow, hupto⟩
  constructor
  · intro hmem
    obtain ⟨hbelow, hupto⟩ := h.rank_of_mem hmem
    have hstart : n * limit ≤ rankBelow rows p k a :=
      not_lt.mp fun hbelow => absurd (hstraddle n hbelow) (not_le.mpr hupto)
    exact (Nat.div_eq_of_lt_le hstart (by rw [Nat.succ_mul]; exact hbelow)).symm
  · rintro rfl
    have hnext : rankBelow rows p k a < (rankBelow rows p k a / limit + 1) * limit :=
      Nat.lt_mul_of_div_lt (Nat.lt_succ_self _) hlimit
    refine h.mem_of_rank ha hp (Nat.div_mul_le_self _ _) ?_
    rw [← Nat.succ_mul]
    exact hstraddle _ hnext

/-- **Exactly one page.**  Whichever results the pages are cut out of, a row is on exactly one of
them if and only if no boundary runs between its equals. -/
theorem existsUnique_page_iff (hnodup : rows.Nodup) (ha : a ∈ rows) (hp : p a = true)
    (hlimit : 0 < limit) :
    (∀ pages, IsPaging rows p k limit pages → ∃! n, a ∈ pages n) ↔
      ∀ n, ¬ Straddles rows p k (n * limit) a := by
  constructor
  · rintro hunique n ⟨hbelow, hupto⟩
    -- pages before the boundary come from one result, the others from another
    obtain ⟨before, after, hfirst, hbefore⟩ := exists_isSelection_first ha hp hnodup k
    obtain ⟨before', after', hlast, hbefore'⟩ := exists_isSelection_last ha hp hnodup k
    let pages : ℕ → List α := fun m =>
      (((if m < n then before ++ a :: after else before' ++ a :: after').drop (m * limit)).take limit)
    have hpages : IsPaging rows p k limit pages := by
      intro m
      refine ⟨_, ?_, rfl⟩
      split
      · exact hfirst
      · exact hlast
    have hshown : ∀ {before after : List α}, a ∈ ((before ++ a :: after).drop
        (before.length / limit * limit)).take limit := by
      intro before after
      refine mem_window_iff.mpr ⟨before, after, rfl, Nat.div_mul_le_self _ _, ?_⟩
      rw [← Nat.succ_mul]
      exact Nat.lt_mul_of_div_lt (Nat.lt_succ_self _) hlimit
    have hearly : before.length / limit < n := Nat.div_lt_of_lt_mul (by rw [mul_comm]; omega)
    have hlate : ¬ before'.length / limit < n :=
      not_lt.mpr ((Nat.le_div_iff_mul_le hlimit).mpr (by omega))
    have hmem : a ∈ pages (before.length / limit) := by
      show a ∈ ((if _ then _ else _ : List α).drop _).take limit
      rw [if_pos hearly]
      exact hshown
    have hmem' : a ∈ pages (before'.length / limit) := by
      show a ∈ ((if _ then _ else _ : List α).drop _).take limit
      rw [if_neg hlate]
      exact hshown
    obtain ⟨m, -, hm⟩ := hunique pages hpages
    exact hlate ((hm _ hmem').trans (hm _ hmem).symm ▸ hearly)
  · intro hwhole pages hpages
    refine ⟨rankBelow rows p k a / limit, ?_, fun n hn => ?_⟩
    · exact (hpages.mem_iff ha hp hlimit hwhole).mpr rfl
    · exact (hpages.mem_iff ha hp hlimit hwhole).mp hn

end Paging

end Relational
