import ChickenOrder.Database.Schema
import ChickenOrder.Values.Numerals

/-!
# What the columns store

Each column as a characterisation of the values it accepts.  A price or a total of whole
hundredths is stored as it is.

The statements read their parameters into the types of the columns, and a parameter that a type
does not read fails the statement whatever the table has in it.  So the conditions here are
about values alone: which texts fit `VARCHAR(255)`, which numbers fit `NUMERIC(10,2)` and its
`CHECK`, which quantities fit `INTEGER`.  What fits is then found again, but for the digits that
the type rounds away.

Whole hundredths, `Decimal.Cents`, lose none.  All amounts of accepted orders are such, as
prices are.
-/

namespace ChickenOrder

open Decimal

/-- What the column holds it takes again. -/
theorem fitsVarchar_of_eq_ok {s t : String} (h : varcharColumn s = .ok t) : FitsVarchar t := by
  obtain ⟨hfits, rfl⟩ := varcharColumn_eq_ok_iff.mp h
  unfold FitsVarchar varcharText
  rw [String.toList_ofList, List.drop_eq_nil_of_le (List.length_take_le ..)]
  exact ⟨fun hmem => hfits.1 (List.mem_of_mem_take hmem), nofun⟩

/-- The amount that the column has is the number rounded to hundredths, if that is not negative and
fits. -/
theorem amountColumn_eq_ok_iff {q r : ℚ} :
    amountColumn q = .ok r ↔ FitsNumeric q ∧ 0 ≤ round2 q ∧ r = round2 q := by
  unfold amountColumn
  split
  · rename_i hfits
    simp [hfits]
  · rename_i hfits
    split
    · rename_i hneg
      simp [not_le.mpr hneg]
    · rename_i hnonneg
      simp only [Except.ok.injEq]
      exact ⟨fun h => ⟨not_not.mp hfits, not_lt.mp hnonneg, h.symm⟩, fun h => h.2.2.symm⟩

/-- An amount that is sent as a text is read first. -/
theorem amountTextColumn_eq_ok_iff {s : String} {r : ℚ} :
    amountTextColumn s = .ok r ↔ ∃ q, ofText? s = some q ∧ amountColumn q = .ok r := by
  unfold amountTextColumn
  cases ofText? s with
  | none => simp
  | some q => simp

/-- An amount that `NUMERIC(10,2)` and its check take, once it is rounded.  Half a hundredth below
zero is rounded to zero, and fits. -/
def FitsAmount (q : ℚ) : Prop := 0 ≤ round2 q ∧ round2 q < 10 ^ 8

/-- An amount that fits is far below what `decimal.js` rounds, which is where its twenty digits end.
-/
theorem FitsAmount.lt {q : ℚ} (h : FitsAmount q) : q < 10 ^ 18 := by
  rcases lt_or_ge q 0 with hneg | hnonneg
  · exact hneg.trans (by norm_num)
  · have hround := lt_round2_add hnonneg
    linarith [h.2]

/-- The range of the type, by the value it has then. -/
theorem fitsNumeric_iff {q : ℚ} (h : 0 ≤ round2 q) : FitsNumeric q ↔ round2 q < 10 ^ 8 := by
  have hcents := cents_round2 h
  unfold FitsNumeric
  rw [hcents, div_lt_iff₀ (by norm_num)]
  norm_cast

/-- The column takes exactly the amounts that fit it. -/
theorem amountColumn_ok_iff {q : ℚ} : (∃ r, amountColumn q = .ok r) ↔ FitsAmount q := by
  simp only [amountColumn_eq_ok_iff]
  constructor
  · rintro ⟨r, hfits, hnonneg, -⟩
    exact ⟨hnonneg, (fitsNumeric_iff hnonneg).mp hfits⟩
  · rintro ⟨hnonneg, hlt⟩
    exact ⟨_, (fitsNumeric_iff hnonneg).mpr hlt, hnonneg, rfl⟩

/-- It takes exactly the texts of such amounts. -/
theorem amountTextColumn_ok_iff {s : String} :
    (∃ r, amountTextColumn s = .ok r) ↔ ∃ q, ofText? s = some q ∧ FitsAmount q := by
  simp only [amountTextColumn_eq_ok_iff, ← amountColumn_ok_iff]
  exact exists_comm.trans (exists_congr fun q => exists_and_left)

/-- An amount is stored if it is stored as printed. -/
theorem amountTextColumn_toFixed2_ok {q : ℚ} (h : FitsAmount q) :
    ∃ r, amountTextColumn (toFixed2 q) = .ok r := by
  refine amountTextColumn_ok_iff.mpr ⟨_, ofText?_toFixed2 _, ?_⟩
  unfold FitsAmount
  rwa [(cents_round2 h.1).round2]

/-- The column takes positive integers that fit, and stores them as they are. -/
theorem quantityColumn_eq_ok_iff {n : JsNumber} {z : ℤ} :
    quantityColumn n = .ok z ↔ n = .finite z ∧ 0 < z ∧ z ≤ int4Max := by
  constructor
  · intro h
    cases n with
    | infinite negative => cases h
    | nan => cases h
    | finite q =>
        rw [quantityColumn] at h
        split at h
        · cases h
        · rename_i hden
          split at h
          · cases h
          · rename_i hrange
            split at h
            · cases h
            · rename_i hpos
              cases h
              have hwhole := (Rat.den_eq_one_iff q).mp (not_not.mp hden)
              exact ⟨congrArg JsNumber.finite hwhole.symm, by omega, by omega⟩
  · rintro ⟨rfl, hpos, hmax⟩
    have hnum : ((z : ℚ)).num = z := Rat.num_intCast z
    have hden : ((z : ℚ)).den = 1 := Rat.den_intCast z
    rw [quantityColumn, hnum, if_neg (by simp), if_neg (by omega), if_neg (by omega)]

section Cents

variable {q r : ℚ} {n : ℕ}

theorem Decimal.Cents.fitsNumeric_iff (h : Cents q n) : FitsNumeric q ↔ n < 10 ^ 10 := by
  unfold FitsNumeric
  rw [h.hundredths, Int.natAbs_natCast]

/-- A column stores whole hundredths as they are, so that an amount is read back as it was
validated. -/
theorem Decimal.Cents.amountColumn_eq (h : Cents q n) (hstored : amountColumn q = .ok r) :
    r = q := by
  rw [(amountColumn_eq_ok_iff.mp hstored).2.2, h.round2]

/-- A column stores a printed total as that total. -/
theorem Decimal.Cents.amountTextColumn_eq (h : Cents q n)
    (hstored : amountTextColumn (toFixed2 q) = .ok r) : r = q := by
  obtain ⟨q', hread, hcolumn⟩ := amountTextColumn_eq_ok_iff.mp hstored
  rw [h.ofText?_toFixed2, Option.some.injEq] at hread
  rw [← hread] at hcolumn
  exact h.amountColumn_eq hcolumn

end Cents

/-- Going through a list fails where one of its elements does. -/
theorem mapM_eq_ok_iff {α β ε : Type} {f : α → Except ε β} {as : List α} {bs : List β} :
    as.mapM f = .ok bs ↔ List.Forall₂ (fun a b => f a = .ok b) as bs := by
  induction as generalizing bs with
  | nil => cases bs <;> simp [pure, Except.pure]
  | cons a rest ih =>
      rw [List.mapM_cons]
      cases ha : f a with
      | error e => cases bs <;> simp [bind, Except.bind, ha]
      | ok b =>
          cases hrest : rest.mapM f with
          | error e => cases bs <;> simp [bind, Except.bind, ← ih, ha, hrest]
          | ok bs' => cases bs <;> simp [bind, Except.bind, pure, Except.pure, ← ih, ha, hrest]

/-- A column of type `uuid` stores what it reads. -/
theorem uuidColumn_eq_ok_iff {s : String} {u : Uuid} :
    uuidColumn s = .ok u ↔ Uuid.ofText? s = some u := by
  unfold uuidColumn
  cases Uuid.ofText? s with
  | none => simp
  | some v => simp

theorem uuidColumn_toText (u : Uuid) : uuidColumn u.toText = .ok u := by
  unfold uuidColumn
  rw [Uuid.ofText?_toText]

end ChickenOrder
