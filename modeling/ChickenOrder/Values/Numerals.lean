import Mathlib.Algebra.Order.Ring.Rat
import Mathlib.Data.Rat.Floor
import Mathlib.Data.Rat.Lemmas
import Mathlib.Tactic.IntervalCases
import Mathlib.Tactic.Linarith
import Mathlib.Tactic.NormNum
import Mathlib.Tactic.Positivity
import Mathlib.Tactic.Ring
import ChickenOrder.Values.Text

/-!
# Numerals that are read back

What one side prints the other reads: `toFixed(2)` is read by `NUMERIC(10,2)` and by
`parseFloat`, and the `uuid` type reads its own output.  `Cents q` says that `q` is an amount
of whole hundredths, as every column of type `NUMERIC(10,2)` holds; on these nothing is
rounded.

Each of the readers stops at the first character that it does not know, so that the lemmas come
in pairs: what is read of the digits, and that it ends where they end.
-/

namespace ChickenOrder

namespace Decimal

/-- `q` is `n` hundredths.  Amounts of the tables are such, and many roundings leave them alone. -/
def Cents (q : ℚ) (n : ℕ) : Prop := q = (n : ℚ) / 100

section Cents

variable {q r : ℚ} {n m : ℕ}

/-- A number of hundredths, by numerator and denominator. -/
theorem Cents.num (h : Cents q n) : q.num * 100 = n * q.den := by
  have hq : (q.num : ℚ) / q.den = n / 100 := (Rat.num_div_den q).trans h
  have hden : (q.den : ℚ) ≠ 0 := Nat.cast_ne_zero.mpr q.den_nz
  rw [div_eq_div_iff hden (by norm_num)] at hq
  exact_mod_cast hq

theorem Cents.nonneg (h : Cents q n) : 0 ≤ q := by
  rw [h]
  positivity

theorem Cents.hundredths (h : Cents q n) : hundredths q = n := by
  have hnum : 0 ≤ q.num := Rat.num_nonneg.mpr h.nonneg
  have habs : q.num.natAbs * 100 = n * q.den := by
    have hmul := h.num
    rw [← Int.natAbs_of_nonneg hnum] at hmul
    exact_mod_cast hmul
  have hdiv : (q.num.natAbs * 200 + q.den) / (2 * q.den) = n := by
    have hsum : q.num.natAbs * 200 + q.den = q.den * (2 * n + 1) := by
      calc q.num.natAbs * 200 + q.den = 2 * (q.num.natAbs * 100) + q.den := by ring
        _ = q.den * (2 * n + 1) := by rw [habs]; ring
    rw [hsum, Nat.mul_comm 2 q.den, Nat.mul_div_mul_left _ _ q.den_pos]
    omega
  unfold Decimal.hundredths
  rw [if_neg (by omega), hdiv]

/-- Whole hundredths are not rounded. -/
theorem Cents.round2 (h : Cents q n) : round2 q = q := by
  rw [Decimal.round2, h.hundredths, h]
  simp

theorem Cents.zero : Cents 0 0 := by simp [Cents]

theorem Cents.add (h : Cents q n) (h' : Cents r m) : Cents (q + r) (n + m) := by
  rw [Cents, h, h']
  push_cast
  ring

/-- A whole number of pieces. -/
theorem Cents.mul (h : Cents q n) (k : ℕ) : Cents (q * k) (n * k) := by
  rw [Cents, h]
  push_cast
  ring

/-! Twenty digits hold whole hundredths below 10^18, and keep above it what is above it.  So a sum
of hundredths that ends below has been rounded nowhere: a partial sum is never above a later one. -/

/-- Below a certain size they have few enough digits for `decimal.js` to keep them all. -/
theorem Cents.hasDigits (h : Cents q n) (hlt : q < 10 ^ 18) : Numeric.HasDigits 10 20 q := by
  refine ⟨n, -2, ?_, ?_⟩
  · rw [h, div_lt_iff₀ (by norm_num)] at hlt
    have hn : (n : ℚ) < (10 : ℚ) ^ 20 := hlt.trans_eq (by norm_num)
    rw [abs_of_nonneg (Int.natCast_nonneg n)]
    exact_mod_cast hn
  · rw [h, div_eq_mul_inv]
    norm_num

theorem round20_nonneg (h : 0 ≤ q) : 0 ≤ round20 q :=
  Numeric.le_roundDigits Numeric.isRounding_halfAway (by norm_num) (by norm_num)
    ⟨0, 0, by norm_num, by norm_num⟩ le_rfl h

/-- It does not bring a large number below the bound, which is a number of one digit. -/
theorem le_round20 (h : 10 ^ 18 ≤ q) : 10 ^ 18 ≤ round20 q :=
  Numeric.le_roundDigits Numeric.isRounding_halfAway (by norm_num) (by norm_num)
    ⟨1, 18, by norm_num, by norm_num⟩ (by norm_num) h

/-- Whole hundredths are not rounded, or they are large before and after. -/
theorem Cents.round20_eq_or (h : Cents q n) : round20 q = q ∨ 10 ^ 18 ≤ round20 q ∧ 10 ^ 18 ≤ q := by
  rcases lt_or_ge q (10 ^ 18) with hlt | hge
  · exact .inl (Numeric.roundDigits_of_hasDigits Numeric.isRounding_halfAway (by norm_num)
      (h.hasDigits hlt))
  · exact .inr ⟨le_round20 hge, hge⟩

variable {total : ℚ} {lines : List ℚ}

theorem sum_cents (h : ∀ line ∈ lines, ∃ n, Cents line n) : ∃ n, Cents lines.sum n := by
  induction lines with
  | nil => exact ⟨0, Cents.zero⟩
  | cons line rest ih =>
      obtain ⟨n, hn⟩ := h line List.mem_cons_self
      obtain ⟨m, hm⟩ := ih fun line' hline' => h line' (List.mem_cons_of_mem _ hline')
      exact ⟨n + m, by simpa using hn.add hm⟩

/-- A partial sum of 10^18 or more stays so. -/
theorem le_plusAll (h : ∀ line ∈ lines, ∃ n, Cents line n) (htotal : 10 ^ 18 ≤ total) :
    10 ^ 18 ≤ plusAll total lines := by
  induction lines generalizing total with
  | nil => exact htotal
  | cons line rest ih =>
      obtain ⟨n, hn⟩ := h line List.mem_cons_self
      have hline := round20_nonneg hn.nonneg
      exact ih (fun line' hline' => h line' (List.mem_cons_of_mem _ hline'))
        (le_round20 (by linarith))

/-- The sum is kept from every partial sum on, or it is large. -/
theorem plusAll_eq_or (h : ∀ line ∈ lines, ∃ n, Cents line n) (htotal : Cents total n) :
    plusAll total lines = total + lines.sum ∨
      10 ^ 18 ≤ plusAll total lines ∧ 10 ^ 18 ≤ total + lines.sum := by
  induction lines generalizing total n with
  | nil => exact .inl (by simp [plusAll])
  | cons line rest ih =>
      have hrest : ∀ line' ∈ rest, ∃ n, Cents line' n := fun line' hline' =>
        h line' (List.mem_cons_of_mem _ hline')
      obtain ⟨m, hline⟩ := h line List.mem_cons_self
      obtain ⟨k, hsum⟩ := sum_cents hrest
      have hnonneg := htotal.nonneg
      have hsumNonneg := hsum.nonneg
      have hstep : plusAll total (line :: rest) = plusAll (round20 (total + round20 line)) rest := rfl
      rw [List.sum_cons, hstep, ← add_assoc]
      obtain hkept | ⟨hlarge, hlarge'⟩ := hline.round20_eq_or
      · rw [hkept]
        obtain hkept' | ⟨hlarge, hlarge'⟩ := (htotal.add hline).round20_eq_or
        · rw [hkept']
          exact ih hrest (htotal.add hline)
        · exact .inr ⟨le_plusAll hrest hlarge, by linarith⟩
      · exact .inr ⟨le_plusAll hrest (le_round20 (by linarith)), by linarith⟩

/-- **A sum of hundredths is not rounded**, but for one of 10^18 or more.  The first test is on the
sum as it was computed, the second on the exact one. -/
theorem plusAll_eq (h : ∀ line ∈ lines, ∃ n, Cents line n)
    (hlt : plusAll 0 lines < 10 ^ 18 ∨ lines.sum < 10 ^ 18) : plusAll 0 lines = lines.sum := by
  have hfrom := plusAll_eq_or h Cents.zero
  rw [zero_add] at hfrom
  obtain hsame | ⟨hlarge, hlarge'⟩ := hfrom
  · exact hsame
  · exact absurd hlt (not_or.mpr ⟨hlarge.not_gt, hlarge'.not_gt⟩)

end Cents

/-! ## `toFixed(2)` -/

theorem digit_toNat {d : ℕ} (h : d < 10) :
    '0' ≤ d.digitChar ∧ d.digitChar ≤ '9' ∧ d.digitChar.toNat - 48 = d := by
  interval_cases d <;> decide

/-- Reading back the digits of `n`. -/
theorem readDigits_toDigits (n : ℕ) (rest : List Char) (acc k : ℕ) :
    readDigits (Nat.toDigits 10 n ++ rest) acc k =
      readDigits rest (acc * 10 ^ (Nat.toDigits 10 n).length + n)
        (k + (Nat.toDigits 10 n).length) := by
  induction n using Nat.strong_induction_on generalizing rest acc k with
  | _ n ih =>
      by_cases hn : n < 10
      · obtain ⟨hlow, hhigh, hval⟩ := digit_toNat hn
        rw [Nat.toDigits_of_lt_base hn]
        simp [readDigits, hlow, hhigh, hval]
      · have hle : 10 ≤ n := Nat.le_of_not_lt hn
        obtain ⟨hlow, hhigh, hval⟩ := digit_toNat (Nat.mod_lt n (by omega : 0 < 10))
        rw [Nat.toDigits_of_base_le (by omega) hle, List.append_assoc,
          ih (n / 10) (Nat.div_lt_self (by omega) (by omega))]
        simp only [List.singleton_append, readDigits, hlow, hhigh, hval, and_self, if_true,
          List.length_append, List.length_singleton]
        congr 1
        have hn := Nat.div_add_mod n 10
        calc (acc * 10 ^ (Nat.toDigits 10 (n / 10)).length + n / 10) * 10 + n % 10
            = acc * 10 ^ ((Nat.toDigits 10 (n / 10)).length + 1) + (10 * (n / 10) + n % 10) := by ring
          _ = _ := by rw [hn]

/-- The digits of a number start with one. -/
theorem toDigits_eq_cons (n : ℕ) : ∃ c cs, Nat.toDigits 10 n = c :: cs ∧ c.isDigit := by
  obtain ⟨c, cs, hcs⟩ := List.exists_cons_of_ne_nil (Nat.toDigits_ne_nil (n := n) (b := 10))
  exact ⟨c, cs, hcs, Nat.isDigit_of_mem_toDigits (by omega) (by omega)
    (hcs ▸ List.mem_cons_self : c ∈ Nat.toDigits 10 n)⟩

/-- A text that starts with a digit has no sign. -/
theorem ofText?_of_isDigit {c : Char} {cs : List Char} {s : String} (h : s.toList = c :: cs)
    (hc : c.isDigit) : ofText? s = readUnsigned s.toList := by
  unfold ofText?
  rw [h]
  split
  · rename_i heq
    cases heq
    cases hc
  · rename_i heq
    cases heq
    cases hc
  · rfl

/-- A text that starts with digits has no sign. -/
theorem ofText?_digits {n : ℕ} {rest : List Char} {s : String}
    (h : s.toList = Nat.toDigits 10 n ++ rest) : ofText? s = readUnsigned s.toList := by
  obtain ⟨c, cs, hcs, hdigit⟩ := toDigits_eq_cons n
  rw [hcs] at h
  exact ofText?_of_isDigit h hdigit

section ToFixed

variable {q : ℚ} {n : ℕ}

/-- The printed form of whole hundredths: the digits of the whole part, the point, two
digits. -/
theorem Cents.toFixed2_toList (h : Cents q n) :
    ∃ ds, (toFixed2 q).toList = Nat.toDigits 10 (n / 100) ++ '.' :: ds ∧
      readDigits ds 0 0 = (n % 100, 2, []) := by
  have hpos : ¬ q.num < 0 := not_lt.mpr (Rat.num_nonneg.mpr h.nonneg)
  refine ⟨(if n % 100 < 10 then "0" else "").toList ++ Nat.toDigits 10 (n % 100), ?_, ?_⟩
  · unfold toFixed2
    rw [h.hundredths, if_neg hpos]
    simp only [Int.natAbs_natCast, String.toList_append, Nat.toString_eq_repr, Nat.toList_repr]
    simp
  · have hlt : n % 100 < 100 := Nat.mod_lt n (by omega)
    generalize n % 100 = c at hlt
    interval_cases c <;> rfl

/-- Reading the whole part stops at the point. -/
theorem readDigits_whole (k : ℕ) (ds : List Char) :
    readDigits (Nat.toDigits 10 k ++ '.' :: ds) 0 0 =
      (k, (Nat.toDigits 10 k).length, '.' :: ds) := by
  rw [readDigits_toDigits]
  simp [readDigits]

/-- The two parts add up. -/
theorem Cents.whole_add (h : Cents q n) :
    ((n / 100 : ℕ) : ℚ) + ((n % 100 : ℕ) : ℚ) / 10 ^ 2 = q := by
  have hdiv : ((100 * (n / 100) + n % 100 : ℕ) : ℚ) = n := by rw [Nat.div_add_mod]
  rw [h, ← hdiv]
  push_cast
  ring

/-- What `toFixed(2)` prints of hundredths is read back as them. -/
theorem Cents.readUnsigned_toFixed2 (h : Cents q n) : readUnsigned (toFixed2 q).toList = some q := by
  obtain ⟨ds, htext, hread⟩ := h.toFixed2_toList
  rw [htext, readUnsigned, readDigits_whole]
  simp only [hread, readExponent, Option.map_some, h.whole_add]
  simp

/-- **`toFixed(2)` of whole hundredths is read back.** -/
theorem Cents.ofText?_toFixed2 (h : Cents q n) : ofText? (toFixed2 q) = some q := by
  obtain ⟨ds, htext, -⟩ := h.toFixed2_toList
  rw [ofText?_digits htext, h.readUnsigned_toFixed2]

/-- What is rounded to a positive amount has not been negative by half a hundredth. -/
theorem hundredths_nonneg (h : 0 ≤ round2 q) : 0 ≤ hundredths q := by
  have hscaled := mul_nonneg h (by norm_num : (0 : ℚ) ≤ 100)
  rw [round2, div_mul_cancel₀ _ (by norm_num)] at hscaled
  exact_mod_cast hscaled

/-- What is not negative in hundredths is whole hundredths. -/
theorem cents_round2 (h : 0 ≤ round2 q) : Cents (round2 q) (hundredths q).natAbs := by
  have habs : ((hundredths q).natAbs : ℚ) = ((hundredths q : ℤ) : ℚ) := by
    rw [← Int.cast_natCast, Int.natAbs_of_nonneg (hundredths_nonneg h)]
  rw [Cents, habs, round2]

/-- Rounding takes less than a hundredth. -/
theorem lt_round2_add (h : 0 ≤ q) : q < round2 q + 1 / 100 := by
  have hden : (0 : ℚ) < q.den := Nat.cast_pos.mpr q.den_pos
  have hnum : ((q.num.natAbs : ℕ) : ℚ) = q * q.den := by
    rw [Rat.mul_den_eq_num, Nat.cast_natAbs, abs_of_nonneg (Rat.num_nonneg.mpr h)]
  have hdiv := Nat.lt_div_mul_add (a := q.num.natAbs * 200 + q.den) (b := 2 * q.den)
    (Nat.mul_pos two_pos q.den_pos)
  generalize hn : (q.num.natAbs * 200 + q.den) / (2 * q.den) = n at hdiv
  have hhundredths : hundredths q = n := by
    unfold hundredths
    rw [if_neg (not_lt.mpr (Rat.num_nonneg.mpr h)), hn]
  have hlt : q * q.den * 200 + q.den < n * (2 * q.den) + 2 * q.den := by
    rw [← hnum]
    exact_mod_cast hdiv
  rw [round2, hhundredths, Int.cast_natCast]
  have hscaled : (q * 200 + 1) * q.den < (n * 2 + 2) * q.den := by linarith
  linarith [lt_of_mul_lt_mul_right hscaled hden.le]

/-- Halves are rounded away from zero on both sides, and so the sign does not matter. -/
theorem hundredths_neg (q : ℚ) : hundredths (-q) = -hundredths q := by
  unfold hundredths
  rw [Rat.neg_num, Rat.neg_den, Int.natAbs_neg]
  rcases lt_trichotomy q.num 0 with hneg | hzero | hpos
  · rw [if_neg (by omega), if_pos hneg, neg_neg]
  · have hnone : (q.num.natAbs * 200 + q.den) / (2 * q.den) = 0 := by
      rw [hzero, Int.natAbs_zero]
      exact Nat.div_eq_of_lt (by have := q.den_pos; omega)
    rw [hnone]
    simp
  · rw [if_pos (by omega), if_neg (by omega)]

/-- What is not rounded. -/
theorem round2_eq_self_iff : round2 q = q ↔ ∃ z : ℤ, q = z / 100 := by
  constructor
  · exact fun h => ⟨hundredths q, h.symm⟩
  · rintro ⟨z, rfl⟩
    rcases Int.natAbs_eq z with hz | hz
    · have hcents : Cents ((z : ℚ) / 100) z.natAbs := by
        rw [Cents, ← Int.cast_natCast, ← hz]
      exact hcents.round2
    · have hcents : Cents (-((z : ℚ) / 100)) z.natAbs := by
        rw [Cents, ← neg_div, ← Int.cast_natCast, ← Int.cast_neg, neg_eq_iff_eq_neg.mpr hz]
      have hround := hcents.round2
      rw [round2, hundredths_neg, Int.cast_neg, neg_div, neg_inj] at hround
      exact hround

/-- **`toFixed(2)` is read as the rounded amount.**  The sign stands before the digits; a small
negative amount is printed as `-0.00`. -/
theorem ofText?_toFixed2 (q : ℚ) : ofText? (toFixed2 q) = some (round2 q) := by
  -- the digits are those of the amount without its sign
  have hcents : Cents (((hundredths q).natAbs : ℚ) / 100) (hundredths q).natAbs := rfl
  have hpos : ¬ (((hundredths q).natAbs : ℚ) / 100).num < 0 :=
    not_lt.mpr (Rat.num_nonneg.mpr hcents.nonneg)
  have hdigits : toFixed2 q =
      (if q.num < 0 then "-" else "") ++ toFixed2 (((hundredths q).natAbs : ℚ) / 100) := by
    unfold toFixed2
    rw [hcents.hundredths, if_neg hpos, Int.natAbs_natCast]
    simp [String.append_assoc]
  by_cases hneg : q.num < 0
  · have hsign : hundredths q = -((hundredths q).natAbs : ℤ) := by
      unfold hundredths
      rw [if_pos hneg, Int.natAbs_neg, Int.natAbs_natCast]
    have htext : (toFixed2 q).toList =
        '-' :: (toFixed2 (((hundredths q).natAbs : ℚ) / 100)).toList := by
      rw [hdigits, if_pos hneg]
      simp
    have hround : round2 q = -(((hundredths q).natAbs : ℚ) / 100) :=
      calc (hundredths q : ℚ) / 100 = ((-((hundredths q).natAbs : ℤ) : ℤ) : ℚ) / 100 := by rw [← hsign]
        _ = _ := by rw [Int.cast_neg, Int.cast_natCast, neg_div]
    unfold ofText?
    rw [htext, hround]
    simp only [hcents.readUnsigned_toFixed2, Option.map_some]
  · have hsign : hundredths q = ((hundredths q).natAbs : ℤ) := by
      unfold hundredths
      rw [if_neg hneg, Int.natAbs_natCast]
    have hround : round2 q = ((hundredths q).natAbs : ℚ) / 100 := by
      rw [round2, ← Int.cast_natCast, ← hsign]
    rw [hdigits, if_neg hneg, String.empty_append, hcents.ofText?_toFixed2, hround]

/-! ## `parseFloat` and `Math.round` -/

/-- The white space and line terminators of JavaScript. -/
def isJsSpace (c : Char) : Bool :=
  [0x09, 0x0A, 0x0B, 0x0C, 0x0D, 0x20, 0xA0, 0x1680, 0x2000, 0x2001, 0x2002, 0x2003, 0x2004,
    0x2005, 0x2006, 0x2007, 0x2008, 0x2009, 0x200A, 0x2028, 0x2029, 0x202F, 0x205F, 0x3000,
    0xFEFF].contains c.toNat

/-- The exponent a text starts with; what is no exponent counts as none. -/
def exponentPrefix : List Char → ℤ
  | [] => 0
  | c :: cs =>
      if c = 'e' ∨ c = 'E' then
        let (neg, ds) := match cs with
          | '-' :: ds => (true, ds)
          | '+' :: ds => (false, ds)
          | ds => (false, ds)
        match readDigits ds 0 0 with
        | (_, 0, _) => 0
        | (v, _ + 1, _) => if neg then -(v : ℤ) else v
      else 0

/-- The longest unsigned decimal numeral a text starts with. -/
def unsignedPrefix (cs : List Char) : Option ℚ :=
  let (whole, n, rest) := readDigits cs 0 0
  let (frac, m, rest) := match rest with
    | '.' :: rest => readDigits rest 0 0
    | rest => (0, 0, rest)
  if n + m = 0 then none
  else some (((whole : ℚ) + (frac : ℚ) / 10 ^ m) * (10 : ℚ) ^ exponentPrefix rest)

/-- `parseFloat(s)`; `none` where it is not a finite number. -/
def parseFloat? (s : String) : Option ℚ :=
  match s.toList.dropWhile isJsSpace with
  | '-' :: cs => (unsignedPrefix cs).map Neg.neg
  | '+' :: cs => unsignedPrefix cs
  | cs => unsignedPrefix cs

/-- The longest run of digits a text starts with. -/
def digitsPrefix (cs : List Char) : Option ℤ :=
  match readDigits cs 0 0 with
  | (_, 0, _) => none
  | (v, _ + 1, _) => some v

/-- `parseInt(s, 10)`; `none` where it is not a number. -/
def parseInt? (s : String) : Option ℤ :=
  match s.toList.dropWhile isJsSpace with
  | '-' :: cs => (digitsPrefix cs).map Neg.neg
  | '+' :: cs => digitsPrefix cs
  | cs => digitsPrefix cs

/-- `Math.round(q)`: halves go up, also below zero. -/
def mathRound (q : ℚ) : ℤ := ⌊q + 1 / 2⌋

theorem mathRound_intCast (z : ℤ) : mathRound z = z := by
  unfold mathRound
  rw [Int.floor_eq_iff]
  constructor
  · linarith
  · linarith

/-- A number of hundredths, times a hundred, is what `Math.round` makes of it. -/
theorem Cents.mathRound (h : Cents q n) : mathRound (q * 100) = n := by
  have hn : q * 100 = ((n : ℤ) : ℚ) := by
    rw [h, Int.cast_natCast]
    ring
  rw [hn, mathRound_intCast]

theorem isJsSpace_of_isDigit {c : Char} (h : c.isDigit) : isJsSpace c = false := by
  have hlow : 48 ≤ c.toNat := by
    simp only [Char.isDigit, Bool.and_eq_true, decide_eq_true_eq] at h
    exact h.1
  have hhigh : c.toNat ≤ 57 := by
    simp only [Char.isDigit, Bool.and_eq_true, decide_eq_true_eq] at h
    exact h.2
  generalize hn : c.toNat = n at hlow hhigh
  unfold isJsSpace
  rw [hn]
  interval_cases n <;> rfl

/-- A text that starts with digits has nothing to trim and no sign. -/
theorem parseFloat?_digits {k : ℕ} {rest : List Char} {s : String}
    (h : s.toList = Nat.toDigits 10 k ++ rest) : parseFloat? s = unsignedPrefix s.toList := by
  obtain ⟨c, cs, hcs, hdigit⟩ := toDigits_eq_cons k
  rw [hcs, List.cons_append] at h
  unfold parseFloat?
  rw [h, List.dropWhile_cons_of_neg (by simp [isJsSpace_of_isDigit hdigit])]
  split
  · rename_i heq
    cases heq
    cases hdigit
  · rename_i heq
    cases heq
    cases hdigit
  · rfl

/-- `parseInt` reads a natural number as it is printed. -/
theorem parseInt?_toString (k : ℕ) : parseInt? (toString k) = some (k : ℤ) := by
  have htext : (toString k).toList = Nat.toDigits 10 k := by
    rw [Nat.toString_eq_repr, Nat.toList_repr]
  have hread := readDigits_toDigits k [] 0 0
  rw [List.append_nil, readDigits, Nat.zero_mul, Nat.zero_add, Nat.zero_add] at hread
  have hdigits : digitsPrefix (Nat.toDigits 10 k) = some (k : ℤ) := by
    obtain ⟨m, hm⟩ : ∃ m, (Nat.toDigits 10 k).length = m + 1 :=
      Nat.exists_eq_add_one.mpr Nat.length_toDigits_pos
    unfold digitsPrefix
    rw [hread, hm]
  obtain ⟨c, cs, hcs, hdigit⟩ := toDigits_eq_cons k
  unfold parseInt?
  rw [htext, ← hdigits, hcs, List.dropWhile_cons_of_neg (by simp [isJsSpace_of_isDigit hdigit])]
  split
  · rename_i heq
    cases heq
    cases hdigit
  · rename_i heq
    cases heq
    cases hdigit
  · rfl

/-- **`parseFloat` reads `toFixed(2)` of whole hundredths.** The legacy adapter does this to the
total. -/
theorem Cents.parseFloat?_toFixed2 (h : Cents q n) : parseFloat? (toFixed2 q) = some q := by
  obtain ⟨ds, htext, hread⟩ := h.toFixed2_toList
  rw [parseFloat?_digits htext, htext, unsignedPrefix, readDigits_whole]
  simp only [hread, exponentPrefix, h.whole_add]
  simp

end ToFixed

end Decimal

/-! ## UUIDs -/

namespace Uuid

/-- A hexadecimal digit is read as itself, and is neither a hyphen nor a brace. -/
theorem hexDigit?_digitChar {d : ℕ} (h : d < 16) :
    hexDigit? (Nat.digitChar d) = some d ∧ Nat.digitChar d ≠ '-' ∧ Nat.digitChar d ≠ '{' := by
  interval_cases d <;> decide

/-- The digits of a number, cut in two. -/
theorem hexDigits_add (a b n : ℕ) :
    hexDigits (a + b) n = hexDigits a (n / 16 ^ b) ++ hexDigits b n := by
  induction b generalizing n with
  | zero => simp [hexDigits]
  | succ b ih =>
      rw [← Nat.add_assoc, hexDigits, hexDigits, ih, Nat.div_div_eq_div_mul, ← Nat.pow_succ',
        List.append_assoc]

theorem hexDigits_length (width n : ℕ) : (hexDigits width n).length = width := by
  induction width generalizing n with
  | zero => rfl
  | succ width ih => simp [hexDigits, ih]

/-- What follows a byte is read on from, without a hyphen that may stand there. -/
def afterByte (n : ℕ) (cs : List Char) : List Char :=
  match cs with
  | '-' :: cs' => if n % 2 = 0 ∧ 0 < n then cs' else cs
  | _ => cs

theorem afterByte_hyphen {n : ℕ} (h : n % 2 = 0 ∧ 0 < n) (cs : List Char) :
    afterByte n ('-' :: cs) = cs := if_pos h

theorem readBytes_succ {hi lo : Char} {x y : ℕ} (hx : hexDigit? hi = some x)
    (hy : hexDigit? lo = some y) (n acc : ℕ) (cs : List Char) :
    readBytes (n + 1) acc (hi :: lo :: cs) = readBytes n (acc * 256 + x * 16 + y) (afterByte n cs) := by
  cases cs with
  | nil => simp [readBytes, afterByte, hx, hy]
  | cons c cs =>
      by_cases hc : c = '-'
      · subst hc
        by_cases hhyphen : n % 2 = 0 ∧ 0 < n
        · simp [readBytes, afterByte, hx, hy, hhyphen]
        · simp [readBytes, afterByte, hx, hy, hhyphen]
      · simp [readBytes, afterByte, hx, hy, hc]

/-- A character that no byte contains is in what follows the bytes, if it is anywhere. -/
theorem not_mem_of_readBytes {c : Char} (hhex : hexDigit? c = none) (hhyphen : c ≠ '-') {n acc m : ℕ}
    {cs rest : List Char} (h : readBytes n acc cs = some (m, rest)) (hrest : c ∉ rest) : c ∉ cs := by
  induction n generalizing acc cs with
  | zero =>
      cases h
      exact hrest
  | succ n ih =>
      match cs, h with
      | hi :: lo :: cs, h =>
          cases hx : hexDigit? hi with
          | none => simp [readBytes, hx] at h
          | some x =>
              cases hy : hexDigit? lo with
              | none => simp [readBytes, hx, hy] at h
              | some y =>
                  rw [readBytes_succ hx hy] at h
                  have hafter := ih h
                  have htail : c ∉ cs := by
                    unfold afterByte at hafter
                    split at hafter
                    · split at hafter
                      · exact List.not_mem_cons_of_ne_of_not_mem hhyphen hafter
                      · exact hafter
                    · exact hafter
                  have hne : ∀ d z, hexDigit? d = some z → c ≠ d := by
                    rintro d z hd rfl
                    rw [hhex] at hd
                    cases hd
                  exact List.not_mem_cons_of_ne_of_not_mem (hne hi x hx)
                    (List.not_mem_cons_of_ne_of_not_mem (hne lo y hy) htail)

/-- What the `uuid` type reads has no other characters. -/
theorem not_mem_of_ofText? {c : Char} (hhex : hexDigit? c = none) (hhyphen : c ≠ '-')
    (hopen : c ≠ '{') (hclose : c ≠ '}') {s : String} {u : Uuid} (h : ofText? s = some u) :
    c ∉ s.toList := by
  unfold ofText? at h
  split at h
  · rename_i cs hcs
    rw [hcs]
    split at h
    · rename_i hread
      exact List.not_mem_cons_of_ne_of_not_mem hopen
        (not_mem_of_readBytes hhex hhyphen hread (by simpa using hclose))
    · cases h
  · split at h
    · rename_i hread
      exact not_mem_of_readBytes hhex hhyphen hread List.not_mem_nil
    · cases h

/-- **Reading back `k` bytes.** -/
theorem readBytes_hexDigits {k : ℕ} (hk : 0 < k) (n acc x : ℕ) (rest : List Char) :
    readBytes (n + k) acc (hexDigits (2 * k) x ++ rest) =
      readBytes n (acc * 256 ^ k + x % 256 ^ k) (afterByte n rest) := by
  induction k generalizing n x rest with
  | zero => omega
  | succ k ih =>
      -- the last byte
      have hlast : hexDigits (2 * (k + 1)) x =
          hexDigits (2 * k) (x / 256) ++ [Nat.digitChar (x / 16 % 16), Nat.digitChar (x % 16)] := by
        rw [Nat.mul_succ, hexDigits_add]
        simp [hexDigits]
      have hhigh := hexDigit?_digitChar (Nat.mod_lt (x / 16) (by omega : 0 < 16))
      have hlow := hexDigit?_digitChar (Nat.mod_lt x (by omega : 0 < 16))
      have hone : ∀ acc, readBytes (n + 1) acc
          (Nat.digitChar (x / 16 % 16) :: Nat.digitChar (x % 16) :: rest) =
            readBytes n (acc * 256 + x % 256) (afterByte n rest) := by
        intro acc
        rw [readBytes_succ hhigh.1 hlow.1,
          show acc * 256 + x / 16 % 16 * 16 + x % 16 = acc * 256 + x % 256 by omega]
      rw [hlast, List.append_assoc, List.cons_append, List.singleton_append]
      by_cases hk : k = 0
      · subst hk
        simpa [hexDigits] using hone acc
      · rw [show n + (k + 1) = (n + 1) + k by omega, ih (by omega)]
        have hsame : afterByte (n + 1) (Nat.digitChar (x / 16 % 16) :: Nat.digitChar (x % 16) ::
            rest) = Nat.digitChar (x / 16 % 16) :: Nat.digitChar (x % 16) :: rest := by
          simp [afterByte, hhigh.2.1]
        have hsum : (acc * 256 ^ k + x / 256 % 256 ^ k) * 256 + x % 256 =
            acc * 256 ^ (k + 1) + x % 256 ^ (k + 1) := by
          rw [Nat.pow_succ', Nat.mod_mul]
          ring
        rw [hsame, hone, hsum]

/-- The five groups of the output. -/
theorem toText_toList (u : Uuid) : u.toText.toList =
    hexDigits 8 (u.bits.toNat / 16 ^ 24) ++ '-' :: (hexDigits 4 (u.bits.toNat / 16 ^ 20) ++
      '-' :: (hexDigits 4 (u.bits.toNat / 16 ^ 16) ++ '-' :: (hexDigits 4 (u.bits.toNat / 16 ^ 12) ++
        '-' :: hexDigits 12 u.bits.toNat))) := by
  have hdigits : hexDigits 32 u.bits.toNat =
      hexDigits 8 (u.bits.toNat / 16 ^ 24) ++ (hexDigits 4 (u.bits.toNat / 16 ^ 20) ++
        (hexDigits 4 (u.bits.toNat / 16 ^ 16) ++ (hexDigits 4 (u.bits.toNat / 16 ^ 12) ++
          hexDigits 12 u.bits.toNat))) := by
    rw [← hexDigits_add 4 12, ← hexDigits_add 4 16, ← hexDigits_add 4 20, ← hexDigits_add 8 24]
  have hnil : ∀ {width k : ℕ} (n : ℕ), width ≤ k → (hexDigits width n).drop k = [] :=
    fun n hle => List.drop_eq_nil_of_le ((hexDigits_length ..).trans_le hle)
  unfold toText
  rw [hdigits]
  simp [List.drop_append, hexDigits_length, hnil]

/-- A UUID is read back from how it is printed. -/
theorem readBytes_toText (u : Uuid) : readBytes 16 0 u.toText.toList = some (u.bits.toNat, []) := by
  rw [toText_toList]
  generalize hn : u.bits.toNat = n
  have hlt : n < 2 ^ 128 := hn ▸ u.bits.isLt
  refine (readBytes_hexDigits (k := 4) (by omega) 12 0 _ _).trans ?_
  rw [afterByte_hyphen (by omega)]
  refine (readBytes_hexDigits (k := 2) (by omega) 10 _ _ _).trans ?_
  rw [afterByte_hyphen (by omega)]
  refine (readBytes_hexDigits (k := 2) (by omega) 8 _ _ _).trans ?_
  rw [afterByte_hyphen (by omega)]
  refine (readBytes_hexDigits (k := 2) (by omega) 6 _ _ _).trans ?_
  rw [afterByte_hyphen (by omega), ← List.append_nil (hexDigits 12 n)]
  refine (readBytes_hexDigits (k := 6) (by omega) 0 _ _ _).trans ?_
  show some (_, []) = _
  rw [Option.some.injEq, Prod.mk.injEq]
  refine ⟨?_, rfl⟩
  norm_num
  omega

/-- **The `uuid` type reads its own output.** So ids that come from the database are found again. -/
theorem ofText?_toText (u : Uuid) : ofText? u.toText = some u := by
  have hread := readBytes_toText u
  have hbrace : ∀ cs, u.toText.toList ≠ '{' :: cs := by
    intro cs hcs
    have hdigit : hexDigit? '{' = none := by decide
    rw [hcs] at hread
    cases cs with
    | nil => simp [readBytes] at hread
    | cons c cs => simp [readBytes, hdigit] at hread
  unfold ofText?
  split
  · rename_i cs hcs
    exact absurd hcs (hbrace cs)
  · rw [hread]
    simp

theorem toText_injective : Function.Injective toText := by
  intro u v h
  have hu := ofText?_toText u
  rw [h, ofText?_toText v, Option.some.injEq] at hu
  exact hu.symm

end Uuid

end ChickenOrder
