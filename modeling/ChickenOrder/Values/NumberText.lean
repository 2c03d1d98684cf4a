import Mathlib.Data.List.DropRight
import Mathlib.Data.Nat.Prime.Basic
import ChickenOrder.Values.Numerals

/-!
# `String(x)` of a number

`Number::toString` to base 10, in exact arithmetic: all the digits of a number are the ones that
it takes to tell it from others.  Up to 21 digits stand before the point and up to six zeros
behind it; beyond there is an exponent.  `ofText?` reads all of it (`ofText?_toJsText`).

The proof goes through the digits.  `showDigits` puts a point or an exponent to a row of digits
at a given place, and `readUnsigned` takes it apart again; that the digits are those of the
number is a fact about division by ten.
-/

namespace ChickenOrder

namespace Decimal

/-- The decimal places of a number, which are at most as many as its denominator has bits. -/
def places (q : ℚ) : ℕ :=
  ((List.range (q.den.log2 + 1)).find? fun e => (q * 10 ^ e).den = 1).getD 0

/-- The number `0.s` times ten to the `n`, for significant digits `s`. -/
def showDigits (s : List Char) (n : ℤ) : List Char :=
  if s.length ≤ n ∧ n ≤ 21 then s ++ List.replicate (n - s.length).toNat '0'
  else if 0 < n ∧ n ≤ 21 then s.take n.toNat ++ '.' :: s.drop n.toNat
  else if -6 < n ∧ n ≤ 0 then '0' :: '.' :: (List.replicate (-n).toNat '0' ++ s)
  else
    let exponent := 'e' :: (if n < 1 then '-' else '+') :: Nat.toDigits 10 (n - 1).natAbs
    match s with
    | [] => exponent
    | [d] => d :: exponent
    | d :: ds => d :: '.' :: (ds ++ exponent)

/-- `String(q)` of a positive number. -/
def showPositive (q : ℚ) : List Char :=
  let digits := Nat.toDigits 10 (q * 10 ^ places q).num.natAbs
  showDigits (digits.rdropWhile (· = '0')) (digits.length - places q)

/-- `String(q)`. -/
def toJsText (q : ℚ) : String :=
  String.ofList (if q = 0 then ['0'] else if q < 0 then '-' :: showPositive (-q) else showPositive q)

example : [18000, 1 / 2, 25 / 2, 1 / 1000000, 1 / 10000000, 10 ^ 21, 1234 * 10 ^ 20, -3].map toJsText =
    ["18000", "0.5", "12.5", "0.000001", "1e-7", "1e+21", "1.234e+23", "-3"] := by decide +kernel

/-! ## Decimals -/

/-- A number with finitely many decimal places. -/
def IsDecimal (q : ℚ) : Prop := ∃ (e : ℕ) (z : ℤ), q = z / 10 ^ e

section IsDecimal

variable {q r : ℚ}

theorem isDecimal_natCast (n : ℕ) : IsDecimal n := ⟨0, n, by simp⟩

theorem Cents.isDecimal {n : ℕ} (h : Cents q n) : IsDecimal q :=
  ⟨2, n, by rw [h]; norm_num⟩

theorem IsDecimal.neg (h : IsDecimal q) : IsDecimal (-q) := by
  obtain ⟨e, z, rfl⟩ := h
  exact ⟨e, -z, by push_cast; ring⟩

theorem IsDecimal.add (h : IsDecimal q) (h' : IsDecimal r) : IsDecimal (q + r) := by
  obtain ⟨e, z, rfl⟩ := h
  obtain ⟨f, w, rfl⟩ := h'
  refine ⟨e + f, z * 10 ^ f + w * 10 ^ e, ?_⟩
  push_cast
  rw [pow_add]
  field_simp

theorem IsDecimal.mul (h : IsDecimal q) (h' : IsDecimal r) : IsDecimal (q * r) := by
  obtain ⟨e, z, rfl⟩ := h
  obtain ⟨f, w, rfl⟩ := h'
  refine ⟨e + f, z * w, ?_⟩
  push_cast
  rw [pow_add]
  field_simp

/-- A divisor of a power of ten divides one with as many places as it has bits. -/
theorem dvd_ten_pow_log2 {d e : ℕ} (h : d ∣ 10 ^ e) : d ∣ 10 ^ d.log2 := by
  have hd : d ≠ 0 := ne_zero_of_dvd_ne_zero (by positivity) h
  rw [show (10 : ℕ) = 2 * 5 from rfl, mul_pow] at h
  obtain ⟨d₂, d₅, h₂, h₅, rfl⟩ := Nat.dvd_mul.mp h
  obtain ⟨a, -, rfl⟩ := (Nat.dvd_prime_pow Nat.prime_two).mp h₂
  obtain ⟨b, -, rfl⟩ := (Nat.dvd_prime_pow Nat.prime_five).mp h₅
  -- neither exponent exceeds the number of bits
  have ha : a ≤ (2 ^ a * 5 ^ b).log2 :=
    (Nat.le_log2 hd).mpr (Nat.le_mul_of_pos_right _ (by positivity))
  have hb : b ≤ (2 ^ a * 5 ^ b).log2 :=
    (Nat.le_log2 hd).mpr ((Nat.pow_le_pow_left (by omega) b).trans
      (Nat.le_mul_of_pos_left _ (by positivity)))
  generalize (2 ^ a * 5 ^ b).log2 = k at ha hb
  have hten : (10 : ℕ) ^ k = 2 ^ k * 5 ^ k := (mul_pow 2 5 k :)
  rw [hten]
  exact mul_dvd_mul (pow_dvd_pow 2 ha) (pow_dvd_pow 5 hb)

/-- The places of a decimal make it whole. -/
theorem IsDecimal.places_spec (h : IsDecimal q) : (q * 10 ^ places q).den = 1 := by
  obtain ⟨e, z, hq⟩ := h
  have hden : q.den ∣ 10 ^ e := by
    have hdvd := Rat.den_dvd z (10 ^ e)
    rw [Rat.divInt_eq_div] at hdvd
    push_cast at hdvd
    rw [← hq] at hdvd
    exact_mod_cast hdvd
  obtain ⟨m, hm⟩ := dvd_ten_pow_log2 hden
  have hwhole : (q * 10 ^ q.den.log2).den = 1 := by
    have hcast : (10 : ℚ) ^ q.den.log2 = q.den * m := by exact_mod_cast congrArg (Nat.cast (R := ℚ)) hm
    have hvalue : q * 10 ^ q.den.log2 = ((q.num * m : ℤ) : ℚ) := by
      rw [hcast, ← mul_assoc, Rat.mul_den_eq_num]
      push_cast
      rfl
    rw [hvalue]
    exact Rat.den_intCast _
  obtain ⟨k, hk⟩ : ∃ k, (List.range (q.den.log2 + 1)).find? (fun e => (q * 10 ^ e).den = 1) = some k :=
    Option.isSome_iff_exists.mp (List.find?_isSome.mpr
      ⟨q.den.log2, List.mem_range.mpr (Nat.lt_succ_self _), by simpa using hwhole⟩)
  unfold places
  rw [hk, Option.getD_some]
  simpa using List.find?_some hk

end IsDecimal

/-! ## What is printed is read back -/

section Reading

/-- A digit is a character between `0` and `9`. -/
theorem isDigit_iff {c : Char} : c.isDigit = true ↔ '0' ≤ c ∧ c ≤ '9' := by
  simp only [Char.isDigit, Bool.and_eq_true, decide_eq_true_eq]
  rfl

/-- A stretch of digits is read to its end. -/
theorem readDigits_append {ds : List Char} (hds : ∀ c ∈ ds, c.isDigit) (rest : List Char)
    (acc k : ℕ) : readDigits (ds ++ rest) acc k =
      readDigits rest (Nat.ofDigitChars 10 ds acc) (k + ds.length) := by
  induction ds generalizing acc k with
  | nil => rfl
  | cons c ds ih =>
      have hc := isDigit_iff.mp (hds c List.mem_cons_self)
      rw [List.cons_append, readDigits, if_pos hc, ih fun c' hc' => hds c' (List.mem_cons_of_mem _ hc'),
        Nat.ofDigitChars_cons, List.length_cons, Nat.mul_comm, Nat.add_right_comm, Nat.add_assoc k]
      rfl

/-- No digit and no point comes next. -/
def StopsNumber (cs : List Char) : Prop := ∀ c ∈ cs.head?, ¬ c.isDigit ∧ c ≠ '.'

/-- Reading digits stops at a character that is none. -/
theorem readDigits_stop {c : Char} {cs : List Char} (hc : ¬ c.isDigit) (acc k : ℕ) :
    readDigits (c :: cs) acc k = (acc, k, c :: cs) := by
  rw [readDigits, if_neg (mt isDigit_iff.mpr hc)]

/-- It reads nothing of a text that does not start with one. -/
theorem StopsNumber.readDigits {cs : List Char} (h : StopsNumber cs) (acc k : ℕ) :
    readDigits cs acc k = (acc, k, cs) := by
  cases cs with
  | nil => rfl
  | cons c cs => exact readDigits_stop (h c rfl).1 acc k

/-- The value of digits that are followed by others. -/
theorem ofDigitChars_append (ws fs : List Char) : Nat.ofDigitChars 10 (ws ++ fs) 0 =
    Nat.ofDigitChars 10 ws 0 * 10 ^ fs.length + Nat.ofDigitChars 10 fs 0 := by
  rw [Nat.ofDigitChars_append, Nat.ofDigitChars_eq_ofDigitChars_zero, Nat.mul_comm]

/-- A numeral is read part by part: digits, a point and more digits if there are any, and an
exponent.  The point counts like an exponent. -/
theorem readUnsigned_parts {ws fs tail : List Char} {e : ℤ} (hne : ws ++ fs ≠ [])
    (hws : ∀ c ∈ ws, c.isDigit) (hfs : ∀ c ∈ fs, c.isDigit) (hstop : StopsNumber tail)
    (he : readExponent tail = some e) :
    readUnsigned (ws ++ ((if fs = [] then [] else '.' :: fs) ++ tail)) =
      some (((Nat.ofDigitChars 10 (ws ++ fs) 0 : ℕ) : ℚ) * (10 : ℚ) ^ (e - fs.length)) := by
  have hlength : ws.length + fs.length ≠ 0 := by
    rw [← List.length_append]
    exact fun hnil => hne (List.length_eq_zero_iff.mp hnil)
  have hvalue : ((Nat.ofDigitChars 10 (ws ++ fs) 0 : ℕ) : ℚ) * (10 : ℚ) ^ (e - fs.length) =
      (((Nat.ofDigitChars 10 ws 0 : ℕ) : ℚ) +
        ((Nat.ofDigitChars 10 fs 0 : ℕ) : ℚ) / 10 ^ fs.length) * (10 : ℚ) ^ e := by
    rw [ofDigitChars_append, zpow_sub₀ (by norm_num), zpow_natCast]
    push_cast
    field_simp
  rw [hvalue]
  unfold readUnsigned
  rw [readDigits_append hws]
  by_cases hnil : fs = []
  · subst hnil
    have hws : ws.length ≠ 0 := hlength
    rw [if_pos rfl, List.nil_append, hstop.readDigits]
    cases tail with
    | nil => simp [hws, he]
    | cons c rest => simp [hws, he, (hstop c rfl).2]
  · rw [if_neg hnil, List.cons_append, readDigits_stop (by decide)]
    simp only [readDigits_append hfs, hstop.readDigits, he]
    simp only [Nat.zero_add, if_neg hlength, Option.map_some]

/-- The digits of a number are read as that number. -/
theorem readDigits_toDigits_nil (k : ℕ) :
    readDigits (Nat.toDigits 10 k) 0 0 = (k, (Nat.toDigits 10 k).length, []) := by
  have hread := readDigits_toDigits k [] 0 0
  rw [List.append_nil] at hread
  simpa [readDigits] using hread

theorem readExponent_toDigits (k : ℕ) :
    readExponent ('e' :: '+' :: Nat.toDigits 10 k) = some (k : ℤ) ∧
      readExponent ('e' :: '-' :: Nat.toDigits 10 k) = some (-k : ℤ) := by
  have hread := readDigits_toDigits_nil k
  obtain ⟨m, hm⟩ := Nat.exists_eq_succ_of_ne_zero
    (List.length_pos_iff.mpr (Nat.toDigits_ne_nil (n := k) (b := 10))).ne'
  rw [hm] at hread
  simp [readExponent, hread]

/-- The exponent that is printed for `10 ^ k`. -/
theorem readExponent_signed (k : ℤ) : readExponent
    ('e' :: (if k < 0 then '-' else '+') :: Nat.toDigits 10 k.natAbs) = some k := by
  by_cases hneg : k < 0
  · rw [if_pos hneg, (readExponent_toDigits _).2, Option.some.injEq]
    omega
  · rw [if_neg hneg, (readExponent_toDigits _).1, Option.some.injEq]
    omega

theorem stopsNumber_nil : StopsNumber [] := nofun

theorem stopsNumber_exponent (cs : List Char) : StopsNumber ('e' :: cs) := by
  intro c hc
  cases hc
  decide

theorem isDigit_of_mem_zeros {k : ℕ} {c : Char} (h : c ∈ List.replicate k '0') : c.isDigit := by
  rw [List.eq_of_mem_replicate h]
  rfl

/-- **Printed digits are read back**, wherever the point is put. -/
theorem readUnsigned_showDigits {s : List Char} (hne : s ≠ []) (hs : ∀ c ∈ s, c.isDigit) (n : ℤ) :
    readUnsigned (showDigits s n) =
      some (((Nat.ofDigitChars 10 s 0 : ℕ) : ℚ) * (10 : ℚ) ^ (n - s.length)) := by
  unfold showDigits
  split
  · -- a whole number, with zeros at its end
    obtain ⟨k, hk⟩ := Int.eq_ofNat_of_zero_le (by omega : 0 ≤ n - s.length)
    have hread := @readUnsigned_parts (s ++ List.replicate k '0') [] [] 0 (by simp [hne])
      (fun c hc => (List.mem_append.mp hc).elim (hs c) isDigit_of_mem_zeros) nofun stopsNumber_nil rfl
    rw [hk, Int.toNat_natCast]
    simpa [ofDigitChars_append, Nat.ofDigitChars_replicate_zero] using hread
  · split
    · -- the point is between the digits
      obtain ⟨k, rfl⟩ := Int.eq_ofNat_of_zero_le (by omega : 0 ≤ n)
      have hread := @readUnsigned_parts (s.take k) (s.drop k) [] 0 (by simp [hne])
        (fun c hc => hs c (List.mem_of_mem_take hc)) (fun c hc => hs c (List.mem_of_mem_drop hc))
        stopsNumber_nil rfl
      have hexponent : (0 : ℤ) - (s.drop k).length = k - s.length := by
        rw [List.length_drop]
        omega
      rw [if_neg (by simp; omega), List.append_nil, List.take_append_drop, hexponent] at hread
      exact hread
    · split
      · -- there are zeros between the point and the digits
        obtain ⟨k, hk⟩ := Int.eq_ofNat_of_zero_le (by omega : 0 ≤ -n)
        have hread := @readUnsigned_parts ['0'] (List.replicate k '0' ++ s) [] 0 (by simp)
          (fun c hc => isDigit_of_mem_zeros (k := 1) hc)
          (fun c hc => (List.mem_append.mp hc).elim isDigit_of_mem_zeros (hs c)) stopsNumber_nil rfl
        have hexponent : (0 : ℤ) - (List.replicate k '0' ++ s).length = n - s.length := by
          rw [List.length_append, List.length_replicate]
          push_cast
          omega
        have hzeros : Nat.ofDigitChars 10 (['0'] ++ (List.replicate k '0' ++ s)) 0 =
            Nat.ofDigitChars 10 s 0 := by
          rw [← List.append_assoc, Nat.ofDigitChars_append, List.singleton_append,
            ← List.replicate_succ, Nat.ofDigitChars_replicate_zero, Nat.mul_zero]
        rw [if_neg (by simp [hne]), List.append_nil, hexponent, hzeros] at hread
        rw [hk, Int.toNat_natCast]
        exact hread
      · -- the point is behind the first digit, and there is an exponent
        obtain ⟨d, ds, rfl⟩ := List.exists_cons_of_ne_nil hne
        have hsign : (n < 1) = (n - 1 < 0) := by
          rw [eq_iff_iff]
          omega
        have hread := @readUnsigned_parts [d] ds _ _ (by simp)
          (fun c hc => hs c (List.mem_cons.mpr (.inl (List.mem_singleton.mp hc))))
          (fun c hc => hs c (List.mem_cons_of_mem _ hc)) (stopsNumber_exponent _)
          (readExponent_signed (n - 1))
        have hexponent : n - 1 - ds.length = n - (d :: ds).length := by
          rw [List.length_cons]
          push_cast
          omega
        rw [hexponent] at hread
        simp only [hsign]
        cases ds with
        | nil => exact hread
        | cons d' ds => simpa using hread

/-- The significant digits of a whole number and the zeros behind them. -/
theorem toDigits_split (n : ℕ) : ∃ z,
    Nat.toDigits 10 n = (Nat.toDigits 10 n).rdropWhile (· = '0') ++ List.replicate z '0' := by
  refine ⟨((Nat.toDigits 10 n).rtakeWhile (· = '0')).length, ?_⟩
  have hzeros : (Nat.toDigits 10 n).rtakeWhile (· = '0') =
      List.replicate ((Nat.toDigits 10 n).rtakeWhile (· = '0')).length '0' := by
    refine List.eq_replicate_of_mem fun c hc => ?_
    simpa using List.mem_rtakeWhile_imp hc
  rw [← hzeros, List.rdropWhile_append_rtakeWhile]

/-- The significant digits of a positive whole number: there are some, and with the zeros they
are the number. -/
theorem significant_spec {n : ℕ} (hn : n ≠ 0) :
    (Nat.toDigits 10 n).rdropWhile (· = '0') ≠ [] ∧
      (∀ c ∈ (Nat.toDigits 10 n).rdropWhile (· = '0'), c.isDigit) ∧
      ∃ z, (Nat.toDigits 10 n).length = ((Nat.toDigits 10 n).rdropWhile (· = '0')).length + z ∧
        n = 10 ^ z * Nat.ofDigitChars 10 ((Nat.toDigits 10 n).rdropWhile (· = '0')) 0 := by
  obtain ⟨z, hsplit⟩ := toDigits_split n
  have hvalue : Nat.ofDigitChars 10 (Nat.toDigits 10 n) 0 = n := Nat.ofDigitChars_ten_toDigits
  generalize (Nat.toDigits 10 n).rdropWhile (· = '0') = s at hsplit
  rw [hsplit, Nat.ofDigitChars_append, Nat.ofDigitChars_replicate_zero] at hvalue
  refine ⟨?_, fun c hc => ?_, z, ?_, hvalue.symm⟩
  · rintro rfl
    exact hn hvalue.symm
  · exact Nat.isDigit_of_mem_toDigits (n := n) (b := 10) (by omega) (by omega)
      (hsplit ▸ List.mem_append_left _ hc)
  · rw [hsplit, List.length_append, List.length_replicate]

/-- What is printed starts with a digit. -/
theorem exists_cons_showDigits {s : List Char} (hne : s ≠ []) (hs : ∀ c ∈ s, c.isDigit) (n : ℤ) :
    ∃ c cs, showDigits s n = c :: cs ∧ c.isDigit := by
  obtain ⟨d, ds, rfl⟩ := List.exists_cons_of_ne_nil hne
  have hd := hs d List.mem_cons_self
  unfold showDigits
  split
  · exact ⟨d, _, rfl, hd⟩
  · split
    · rename_i hn
      obtain ⟨k, hk⟩ := Nat.exists_eq_succ_of_ne_zero (by omega : n.toNat ≠ 0)
      rw [hk, List.take_succ_cons]
      exact ⟨d, _, rfl, hd⟩
    · split
      · exact ⟨'0', _, rfl, rfl⟩
      · cases ds with
        | nil => exact ⟨d, _, rfl, hd⟩
        | cons d' ds => exact ⟨d, _, rfl, hd⟩

/-- A positive decimal is printed with a digit first, and read back. -/
theorem showPositive_spec {q : ℚ} (hpos : 0 < q) (h : IsDecimal q) :
    (∃ c cs, showPositive q = c :: cs ∧ c.isDigit) ∧ readUnsigned (showPositive q) = some q := by
  -- the number without its point
  obtain ⟨n, hn⟩ : ∃ n : ℕ, q * 10 ^ places q = n := by
    have hwhole := (Rat.den_eq_one_iff _).mp h.places_spec
    have hnum : 0 < (q * 10 ^ places q).num := Rat.num_pos.mpr (by positivity)
    refine ⟨(q * 10 ^ places q).num.natAbs, ?_⟩
    rw [← Int.cast_natCast, Int.natAbs_of_nonneg hnum.le, hwhole]
  have hzero : n ≠ 0 := by
    rintro rfl
    exact absurd hn (by positivity)
  have hdigits : (q * 10 ^ places q).num.natAbs = n := by
    rw [hn, Rat.num_natCast, Int.natAbs_natCast]
  obtain ⟨hne, hs, z, hlength, hvalue⟩ := significant_spec hzero
  unfold showPositive
  simp only [hdigits]
  refine ⟨exists_cons_showDigits hne hs _, ?_⟩
  rw [readUnsigned_showDigits hne hs, hlength, Option.some.injEq]
  generalize (Nat.toDigits 10 n).rdropWhile (· = '0') = s at hvalue
  have hexponent : ((s.length + z : ℕ) : ℤ) - places q - s.length = z - places q := by
    push_cast
    ring
  rw [hexponent, zpow_sub₀ (by norm_num), zpow_natCast, zpow_natCast]
  rw [hvalue] at hn
  push_cast at hn
  field_simp
  linarith

/-- **A printed decimal is read back.** -/
theorem ofText?_toJsText {q : ℚ} (h : IsDecimal q) : ofText? (toJsText q) = some q := by
  rcases lt_trichotomy q 0 with hneg | rfl | hpos
  · have htext : (toJsText q).toList = '-' :: showPositive (-q) := by
      rw [toJsText, if_neg hneg.ne, if_pos hneg, String.toList_ofList]
    unfold ofText?
    rw [htext]
    simp only [(showPositive_spec (neg_pos.mpr hneg) h.neg).2, Option.map_some, neg_neg]
  · decide +kernel
  · have htext : (toJsText q).toList = showPositive q := by
      rw [toJsText, if_neg hpos.ne', if_neg hpos.not_gt, String.toList_ofList]
    obtain ⟨⟨c, cs, hcs, hdigit⟩, hread⟩ := showPositive_spec hpos h
    rw [ofText?_of_isDigit (htext.trans hcs) hdigit, htext, hread]

end Reading

/-! ## Whole numbers -/

section Whole

variable {n : ℕ}

theorem places_natCast (n : ℕ) : places n = 0 := by
  unfold places
  rw [Rat.den_natCast, show List.range (Nat.log2 1 + 1) = [0] from rfl, List.find?_cons_of_pos]
  · rfl
  · simp

/-- How `String(n)` prints a whole number: by the digits that are left without its last zeros, and
by their place. -/
theorem toJsText_natCast (hn : n ≠ 0) : (toJsText n).toList =
    showDigits ((Nat.toDigits 10 n).rdropWhile (· = '0')) (Nat.toDigits 10 n).length := by
  have hpos : ¬ ((n : ℚ) < 0) := not_lt.mpr (Nat.cast_nonneg n)
  have hzero : (n : ℚ) ≠ 0 := Nat.cast_ne_zero.mpr hn
  unfold toJsText showPositive
  rw [if_neg hzero, if_neg hpos, String.toList_ofList, places_natCast]
  simp

/-- The characters of a printed whole number: its point, if there is one, is behind a digit, and
its exponent is positive. -/
theorem mem_toJsText {c : Char} (h : c ∈ (toJsText n).toList) :
    c.isDigit ∨ c = '.' ∨ c = 'e' ∨ c = '+' := by
  have hdigit : ∀ {k : ℕ} {c}, c ∈ Nat.toDigits 10 k → c.isDigit := fun hc =>
    Nat.isDigit_of_mem_toDigits (by omega) (by omega) hc
  by_cases hn : n = 0
  · subst hn
    rw [show (toJsText (0 : ℕ)).toList = ['0'] from rfl, List.mem_singleton] at h
    exact .inl (h ▸ rfl)
  · obtain ⟨hne, hs, z, hlength, -⟩ := significant_spec hn
    rw [toJsText_natCast hn, hlength] at h
    generalize (Nat.toDigits 10 n).rdropWhile (· = '0') = s at h hne hs
    obtain ⟨d, ds, rfl⟩ := List.exists_cons_of_ne_nil hne
    have hmantissa : ∀ c ∈ ds, c.isDigit := fun c hc => hs c (List.mem_cons_of_mem _ hc)
    have hpos : 0 < (d :: ds).length := Nat.succ_pos _
    unfold showDigits at h
    split at h
    · exact .inl ((List.mem_append.mp h).elim (hs c) isDigit_of_mem_zeros)
    · rw [if_neg (by omega), if_neg (by omega)] at h
      simp only [if_neg (by omega : ¬ (((d :: ds).length + z : ℕ) : ℤ) < 1)] at h
      have hsplit : c = d ∨ c = '.' ∨ c ∈ ds ∨ c = 'e' ∨ c = '+' ∨
          c ∈ Nat.toDigits 10 ((((d :: ds).length + z : ℕ) : ℤ) - 1).natAbs := by
        cases ds with
        | nil =>
            -- one digit has no decimal point behind it
            simp only [List.mem_cons, List.not_mem_nil, false_or] at h ⊢
            exact h.imp_right .inr
        | cons d' ds => simpa only [List.mem_cons, List.mem_append] using h
      rcases hsplit with rfl | rfl | h | rfl | rfl | h
      · exact .inl (hs c List.mem_cons_self)
      · exact .inr (.inl rfl)
      · exact .inl (hmantissa c h)
      · exact .inr (.inr (.inl rfl))
      · exact .inr (.inr (.inr rfl))
      · exact .inl (hdigit h)

end Whole

end Decimal

end ChickenOrder
