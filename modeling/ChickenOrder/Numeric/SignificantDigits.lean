import Mathlib.Algebra.Order.Round
import Mathlib.Data.Int.Log
import Mathlib.Tactic.FieldSimp
import Mathlib.Tactic.Linarith
import Mathlib.Tactic.Positivity
import Mathlib.Tactic.Push
import Mathlib.Tactic.Ring

/-!
# Rounding to significant digits

A number format keeps `p` digits to a base `b`, wherever the point is.  `roundDigits` scales a
number so that its last kept digit is the one before the point, rounds it to an integer and
scales it back; how it is rounded to an integer is a parameter.

Two facts carry every use of it.  What has no more than `p` digits is not rounded
(`roundDigits_of_hasDigits`), and a number of `p` digits that is not negative stays below what is
rounded above it (`le_roundDigits`).
-/

namespace Numeric

section Rounding

variable {K : Type} [Field K] [LinearOrder K] [IsStrictOrderedRing K] [FloorRing K]

/-- A way to round to integers: integers stay, and the order is kept.  Nothing else is needed of it
here, not even that it is to a nearest one. -/
structure IsRounding (rnd : K → ℤ) : Prop where
  intCast : ∀ z : ℤ, rnd z = z
  mono : ∀ ⦃x y : K⦄, x ≤ y → rnd x ≤ rnd y

/-- The nearest integer, and of two the one farther from zero. -/
def halfAway (x : K) : ℤ := if 0 ≤ x then ⌊x + 1 / 2⌋ else -⌊-x + 1 / 2⌋

/-- The nearest integer, and of two the even one. -/
def halfEven (x : K) : ℤ := if Int.fract x = 1 / 2 then ⌊x⌋ + ⌊x⌋ % 2 else ⌊x + 1 / 2⌋

theorem floor_intCast_add_half (z : ℤ) : ⌊(z : K) + 1 / 2⌋ = z := by
  rw [Int.floor_intCast_add, Int.floor_eq_zero_iff.mpr ⟨by positivity, by linarith⟩, add_zero]

/-- Rounding halves away from zero takes every number to an integer nearest to it. -/
theorem isRounding_halfAway : IsRounding (halfAway (K := K)) where
  intCast := by
    intro z
    unfold halfAway
    split
    · exact floor_intCast_add_half z
    · rw [← Int.cast_neg, floor_intCast_add_half, neg_neg]
  mono := by
    intro x y hxy
    have hhalf : (0 : K) < 1 / 2 := by positivity
    unfold halfAway
    split
    · rw [if_pos (by linarith)]
      exact Int.floor_le_floor (by linarith)
    · split
      · -- from below zero to above it
        have hx : 0 ≤ ⌊-x + 1 / 2⌋ := Int.floor_nonneg.mpr (by linarith)
        have hy : 0 ≤ ⌊y + 1 / 2⌋ := Int.floor_nonneg.mpr (by linarith)
        omega
      · exact neg_le_neg (Int.floor_le_floor (by linarith))

/-- The weight of the last one of `p` digits of `x` to base `b`.  It goes by the place of the first
digit. -/
def lastPlace (b p : ℕ) (x : K) : K := (b : K) ^ (Int.log b |x| + 1 - p)

/-- Round to a multiple of `w`. -/
def roundTo (rnd : K → ℤ) (w x : K) : K := rnd (x / w) * w

/-- Round to `p` significant digits to base `b`. -/
def roundDigits (rnd : K → ℤ) (b p : ℕ) (x : K) : K := roundTo rnd (lastPlace b p x) x

/-- The number has at most `p` significant digits to base `b`, wherever its point is. -/
def HasDigits (b p : ℕ) (x : K) : Prop := ∃ z e : ℤ, |z| < (b : ℤ) ^ p ∧ x = z * (b : K) ^ e

variable {rnd : K → ℤ} {b p : ℕ} {x y : K}

/-- The last place of a number has a positive value, also for zero. -/
theorem lastPlace_pos (hb : 1 < b) (p : ℕ) (x : K) : 0 < lastPlace b p x :=
  zpow_pos (Nat.cast_pos.mpr (by omega)) _

omit [IsStrictOrderedRing K] in
/-- The weight of the first digit. -/
theorem pow_mul_lastPlace (hb : 1 < b) (hp : 0 < p) (x : K) :
    (b : K) ^ (p - 1) * lastPlace b p x = (b : K) ^ Int.log b |x| := by
  rw [lastPlace, ← zpow_natCast, ← zpow_add₀ (Nat.cast_ne_zero.mpr (by omega)), Nat.cast_sub hp]
  congr 1
  push_cast
  ring

omit [IsStrictOrderedRing K] in
/-- A number whose digits end at the last place of `x`, or before it, is a multiple of that
place. -/
theorem exists_mul_lastPlace (hb : 1 < b) {e : ℤ} (he : Int.log b |x| + 1 - p ≤ e) (z : ℤ) :
    ∃ m : ℤ, (z : K) * (b : K) ^ e = m * lastPlace b p x := by
  obtain ⟨k, hk⟩ : ∃ k : ℕ, e = Int.log b |x| + 1 - p + k :=
    ⟨(e - (Int.log b |x| + 1 - p)).toNat, by omega⟩
  refine ⟨z * (b : ℤ) ^ k, ?_⟩
  rw [lastPlace, hk, zpow_add₀ (Nat.cast_ne_zero.mpr (by omega)), zpow_natCast]
  push_cast
  ring

omit [IsStrictOrderedRing K] [FloorRing K] in
/-- Multiples of the weight are not rounded. -/
theorem roundTo_intCast_mul (hrnd : IsRounding rnd) {w : K} (hw : w ≠ 0) (z : ℤ) :
    roundTo rnd w (z * w) = z * w := by
  rw [roundTo, mul_div_cancel_right₀ _ hw, hrnd.intCast]

/-- **What has no more digits is not rounded.** A format keeps the numbers that it has. -/
theorem roundDigits_of_hasDigits (hrnd : IsRounding rnd) (hb : 1 < b) (h : HasDigits b p x) :
    roundDigits rnd b p x = x := by
  have hb' : (b : K) ≠ 0 := Nat.cast_ne_zero.mpr (by omega)
  have hpos : (0 : K) < b := Nat.cast_pos.mpr (by omega)
  obtain ⟨z, e, hz, rfl⟩ := h
  -- the digits do not end behind the last place
  obtain ⟨m, hm⟩ : ∃ m : ℤ, (z : K) * (b : K) ^ e = m * lastPlace b p ((z : K) * (b : K) ^ e) := by
    by_cases hzero : z = 0
    · exact ⟨0, by simp [hzero]⟩
    · have hne : (z : K) * (b : K) ^ e ≠ 0 :=
        mul_ne_zero (Int.cast_ne_zero.mpr hzero) (zpow_pos hpos e).ne'
      have hlog : Int.log b |(z : K) * (b : K) ^ e| < p + e := by
        refine (Int.lt_zpow_iff_log_lt hb (abs_pos.mpr hne)).mp ?_
        rw [abs_mul, abs_of_pos (zpow_pos hpos e), zpow_add₀ hb', zpow_natCast]
        refine mul_lt_mul_of_pos_right ?_ (zpow_pos hpos e)
        exact_mod_cast hz
      exact exists_mul_lastPlace hb (by omega) z
  unfold roundDigits
  generalize hw : lastPlace b p ((z : K) * (b : K) ^ e) = w at hm
  rw [hm, roundTo_intCast_mul hrnd (hw ▸ lastPlace_pos hb p _).ne']

/-- **Rounding keeps the order** to what has no more digits and is not negative.  So a bound that is
such a number is not crossed. -/
theorem le_roundDigits (hrnd : IsRounding rnd) (hb : 1 < b) (hp : 0 < p) (hy : HasDigits b p y)
    (hnonneg : 0 ≤ y) (hyx : y ≤ x) : y ≤ roundDigits rnd b p x := by
  have hpos : (0 : K) < b := Nat.cast_pos.mpr (by omega)
  have hw := lastPlace_pos hb p x
  -- an integer times the weight, up to `x`, is up to what `x` is rounded to
  have hmultiple : ∀ m : ℤ, (m : K) * lastPlace b p x ≤ x →
      (m : K) * lastPlace b p x ≤ roundDigits rnd b p x := by
    intro m hm
    have hmono := hrnd.mono ((le_div_iff₀ hw).mpr hm)
    rw [hrnd.intCast] at hmono
    exact mul_le_mul_of_nonneg_right (by exact_mod_cast hmono) hw.le
  obtain ⟨z, e, hz, rfl⟩ := hy
  by_cases he : Int.log b |x| + 1 - p ≤ e
  · obtain ⟨m, hm⟩ := exists_mul_lastPlace hb he z
    rw [hm] at hyx ⊢
    exact hmultiple m hyx
  · -- all its digits are behind the first one of `x`
    rcases (hnonneg.trans hyx).lt_or_eq with hx | rfl
    · have hfirst : (((b : ℤ) ^ (p - 1) : ℤ) : K) * lastPlace b p x = (b : K) ^ Int.log b |x| := by
        rw [← pow_mul_lastPlace hb hp x]
        push_cast
        rfl
      have hround := hmultiple ((b : ℤ) ^ (p - 1)) (by
        rw [hfirst]
        exact (Int.zpow_log_le_self hb (abs_pos.mpr hx.ne')).trans_eq (abs_of_pos hx))
      rw [hfirst] at hround
      refine le_trans ?_ hround
      have hbelow : (z : K) * (b : K) ^ e ≤ (b : K) ^ ((p : ℤ) + e) := by
        rw [zpow_add₀ hpos.ne', zpow_natCast]
        refine mul_le_mul_of_nonneg_right ?_ (zpow_pos hpos e).le
        exact_mod_cast (le_abs_self z).trans hz.le
      exact hbelow.trans (zpow_le_zpow_right₀ (by exact_mod_cast hb.le) (by omega))
    · exact le_of_le_of_eq hyx (roundDigits_of_hasDigits hrnd hb
        ⟨0, 0, by simpa using pow_pos (by omega : (0 : ℤ) < b) p, by simp⟩).symm

end Rounding

end Numeric
