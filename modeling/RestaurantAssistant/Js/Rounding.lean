import Mathlib.Data.Int.Log
import Mathlib.Data.Rat.Floor
import Mathlib.Tactic.Linarith
import Mathlib.Tactic.NormNum
import Mathlib.Tactic.Positivity
import Mathlib.Tactic.Ring

/-!
# Rounding to binary64

`nearest q` is the number nearest to `q` among the `Representable` ones, which are 53 binary
digits times a power of two, and from halfway the one whose last digit is even.  The
exponent has a least value; that it has a greatest one too is left to the type of numbers.

Everything follows from `nearest_le`: no representable number is nearer.  So rounding leaves
representable numbers alone (`Representable.nearest_eq`) and keeps the order (`nearest_mono`).
-/

namespace Js.Binary64

/-! ## To whole numbers -/

/-- The nearest whole number, from halfway the even one. -/
def roundTiesEven (x : ℚ) : ℤ :=
  if Int.fract x < 1 / 2 then ⌊x⌋
  else if 1 / 2 < Int.fract x then ⌊x⌋ + 1
  else if Even ⌊x⌋ then ⌊x⌋ else ⌊x⌋ + 1

/-- The distances to the whole numbers below and above. -/
theorem fract_le_abs_sub (x : ℚ) (n : ℤ) :
    Int.fract x ≤ |x - n| ∨ 1 - Int.fract x ≤ |x - n| := by
  have split := Int.self_sub_floor x
  rcases le_or_gt n ⌊x⌋ with below | above
  · have cast : (n : ℚ) ≤ ⌊x⌋ := Int.cast_le.mpr below
    exact .inl ((by linarith : Int.fract x ≤ x - n).trans (le_abs_self _))
  · have cast : (⌊x⌋ : ℚ) + 1 ≤ n := by exact_mod_cast above
    exact .inr ((by linarith : 1 - Int.fract x ≤ -(x - n)).trans (neg_le_abs _))

theorem abs_sub_roundTiesEven (x : ℚ) :
    |x - roundTiesEven x| ≤ Int.fract x ∧ |x - roundTiesEven x| ≤ 1 - Int.fract x := by
  have nonneg := Int.fract_nonneg x
  have small := Int.fract_lt_one x
  have down : x - ⌊x⌋ = Int.fract x := Int.self_sub_floor x
  have up : x - ((⌊x⌋ + 1 : ℤ) : ℚ) = -(1 - Int.fract x) := by
    push_cast
    linarith
  unfold roundTiesEven
  split_ifs
  · rw [down, abs_of_nonneg nonneg]
    constructor <;> linarith
  · rw [up, abs_neg, abs_of_nonneg (by linarith)]
    constructor <;> linarith
  · rw [down, abs_of_nonneg nonneg]
    constructor <;> linarith
  · rw [up, abs_neg, abs_of_nonneg (by linarith)]
    constructor <;> linarith

/-- No whole number is nearer. -/
theorem roundTiesEven_le (x : ℚ) (n : ℤ) : |x - roundTiesEven x| ≤ |x - n| := by
  obtain ⟨down, up⟩ := abs_sub_roundTiesEven x
  rcases fract_le_abs_sub x n with far | far
  · exact down.trans far
  · exact up.trans far

theorem abs_sub_roundTiesEven_le_half (x : ℚ) : |x - roundTiesEven x| ≤ 1 / 2 := by
  obtain ⟨down, up⟩ := abs_sub_roundTiesEven x
  linarith

theorem abs_roundTiesEven_le {x : ℚ} {n : ℤ} (bound : |x| ≤ n) : |roundTiesEven x| ≤ n := by
  have half := abs_sub_roundTiesEven_le_half x
  have near : |(roundTiesEven x : ℚ)| - |x| ≤ |roundTiesEven x - x| := abs_sub_abs_le_abs_sub _ _
  rw [abs_sub_comm] at near
  have close : ((|roundTiesEven x| : ℤ) : ℚ) < ((n + 1 : ℤ) : ℚ) := by
    push_cast
    linarith
  exact Int.lt_add_one_iff.mp (Int.cast_lt.mp close)

/-! ## To binary64 -/

/-- The exponent of the last of the 53 digits around `q`. -/
def place (q : ℚ) : ℤ := max (Int.log 2 |q| - 52) (-1074)

def nearest (q : ℚ) : ℚ := roundTiesEven (q / 2 ^ place q) * 2 ^ place q

/-- The number has a significand of 53 digits. -/
def Representable (x : ℚ) : Prop := ∃ m e : ℤ, |m| < 2 ^ 53 ∧ -1074 ≤ e ∧ x = m * 2 ^ e

variable {x y p q : ℚ}

theorem two_zpow_pos (e : ℤ) : (0 : ℚ) < 2 ^ e := zpow_pos two_pos e

theorem place_ge (q : ℚ) : -1074 ≤ place q := le_max_right _ _

theorem nearest_zero : nearest 0 = 0 := by
  unfold nearest roundTiesEven
  simp

theorem abs_sub_multiple (q : ℚ) (n e : ℤ) :
    |q - n * 2 ^ e| = |q / 2 ^ e - n| * 2 ^ e := by
  have unit := two_zpow_pos e
  rw [← abs_of_pos unit, ← abs_mul, sub_mul, abs_of_pos unit, div_mul_cancel₀ q unit.ne']

/-- No multiple of the last place is nearer. -/
theorem nearest_le_multiple (q : ℚ) (n : ℤ) : |q - nearest q| ≤ |q - n * 2 ^ place q| := by
  unfold nearest
  rw [abs_sub_multiple, abs_sub_multiple]
  exact mul_le_mul_of_nonneg_right (roundTiesEven_le _ n) (two_zpow_pos _).le

theorem abs_lt_of_place (q : ℚ) : |q| < 2 ^ (53 : ℤ) * 2 ^ place q := by
  have log : |q| < 2 ^ (Int.log 2 |q| + 1) := Int.lt_zpow_succ_log_self (by decide) |q|
  rw [← zpow_add₀ two_ne_zero]
  refine log.trans_le (zpow_le_zpow_right₀ one_le_two ?_)
  have := le_max_left (Int.log 2 |q| - 52) (-1074)
  unfold place
  omega

theorem multiple_of_le {m d e : ℤ} (le : d ≤ e) :
    (m : ℚ) * 2 ^ e = ((m * 2 ^ (e - d).toNat : ℤ) : ℚ) * 2 ^ d := by
  have exponent : ((e - d).toNat : ℤ) = e - d := Int.toNat_of_nonneg (by omega)
  push_cast
  rw [mul_assoc, ← zpow_natCast, exponent, ← zpow_add₀ two_ne_zero]
  congr 2
  omega

/-- **No representable number is nearer.** -/
theorem nearest_le (rep : Representable x) (q : ℚ) : |q - nearest q| ≤ |q - x| := by
  obtain ⟨m, e, digits, least, rfl⟩ := rep
  rcases le_or_gt (place q) e with coarse | fine
  · rw [multiple_of_le coarse]
    exact nearest_le_multiple q _
  · -- `x` is smaller than any number with the place of `q`, and the power of two at which
    -- these begin lies between
    have normal : place q = Int.log 2 |q| - 52 := by
      unfold place at fine ⊢
      omega
    by_cases zero : q = 0
    · rw [zero, nearest_zero, sub_zero, abs_zero]
      exact abs_nonneg _
    have positive : 0 < |q| := abs_pos.mpr zero
    have begins : (2 : ℚ) ^ (52 : ℤ) * 2 ^ place q ≤ |q| := by
      rw [← zpow_add₀ two_ne_zero, normal]
      have exponent : 52 + (Int.log 2 |q| - 52) = Int.log 2 |q| := by omega
      rw [exponent]
      exact Int.zpow_log_le_self one_lt_two positive
    have small : |(m : ℚ) * 2 ^ e| ≤ 2 ^ (52 : ℤ) * 2 ^ place q := by
      have significand : |(m : ℚ)| ≤ 2 ^ (53 : ℤ) := by
        rw [← Int.cast_abs]
        exact_mod_cast digits.le
      calc |(m : ℚ) * 2 ^ e| = |(m : ℚ)| * 2 ^ e := by rw [abs_mul, abs_of_pos (two_zpow_pos e)]
        _ ≤ 2 ^ (53 : ℤ) * 2 ^ e := mul_le_mul_of_nonneg_right significand (two_zpow_pos e).le
        _ = 2 ^ (53 + e) := (zpow_add₀ two_ne_zero _ _).symm
        _ ≤ 2 ^ (52 + place q) := zpow_le_zpow_right₀ one_le_two (by omega)
        _ = 2 ^ (52 : ℤ) * 2 ^ place q := zpow_add₀ two_ne_zero _ _
    have power : ((2 ^ 52 : ℤ) : ℚ) = 2 ^ (52 : ℤ) := by norm_num
    rcases abs_cases q with ⟨same, sign⟩ | ⟨same, sign⟩
    · refine (nearest_le_multiple q (2 ^ 52)).trans ?_
      rw [power, abs_of_nonneg (by linarith)]
      have := (abs_le.mp small).2
      exact le_trans (by linarith) (le_abs_self _)
    · refine (nearest_le_multiple q (-2 ^ 52)).trans ?_
      rw [Int.cast_neg, power, abs_of_nonpos (by linarith)]
      have := (abs_le.mp small).1
      exact le_trans (by linarith) (neg_le_abs _)

/-- Whole numbers up to `2 ^ 53`, times a power of two. -/
theorem representable_multiple {n e : ℤ} (digits : |n| ≤ 2 ^ 53) (least : -1074 ≤ e) :
    Representable (n * 2 ^ e) := by
  rcases digits.lt_or_eq with less | equal
  · exact ⟨n, e, less, least, rfl⟩
  · rcases abs_eq (by norm_num : (0 : ℤ) ≤ 2 ^ 53) |>.mp equal with rfl | rfl
    · refine ⟨2 ^ 52, e + 1, by norm_num, by omega, ?_⟩
      rw [zpow_add_one₀ two_ne_zero]
      push_cast
      ring
    · refine ⟨-2 ^ 52, e + 1, by norm_num, by omega, ?_⟩
      rw [zpow_add_one₀ two_ne_zero]
      push_cast
      ring

theorem representable_nearest (q : ℚ) : Representable (nearest q) := by
  have unit := two_zpow_pos (place q)
  have bound : |q / 2 ^ place q| ≤ ((2 ^ 53 : ℤ) : ℚ) := by
    rw [abs_div, abs_of_pos unit, div_le_iff₀ unit]
    exact_mod_cast (abs_lt_of_place q).le
  exact representable_multiple (abs_roundTiesEven_le bound) (place_ge q)

theorem Representable.nearest_eq (rep : Representable x) : nearest x = x := by
  have nearer := nearest_le rep x
  rw [sub_self, abs_zero] at nearer
  exact (sub_eq_zero.mp (abs_nonpos_iff.mp nearer)).symm

theorem nearest_nearest (q : ℚ) : nearest (nearest q) = nearest q :=
  (representable_nearest q).nearest_eq

theorem nearest_le_of_le (rep : Representable x) (le : q ≤ x) : nearest q ≤ x := by
  by_contra above
  have nearer := nearest_le rep q
  rw [abs_of_nonpos (by linarith), abs_of_nonpos (by linarith)] at nearer
  linarith

theorem le_nearest_of_le (rep : Representable x) (le : x ≤ q) : x ≤ nearest q := by
  by_contra below
  have nearer := nearest_le rep q
  rw [abs_of_nonneg (by linarith), abs_of_nonneg (by linarith)] at nearer
  linarith

/-- **Rounding keeps the order.** -/
theorem nearest_mono (le : p ≤ q) : nearest p ≤ nearest q := by
  by_contra crossed
  rw [not_le] at crossed
  rcases le_or_gt (nearest p) q with left | right
  · exact absurd (le_nearest_of_le (representable_nearest p) left) (not_le.mpr crossed)
  rcases le_or_gt p (nearest q) with left | left
  · exact absurd (nearest_le_of_le (representable_nearest q) left) (not_le.mpr crossed)
  · -- each is the other's rounding, so that both are halfway between
    have here := nearest_le (representable_nearest q) p
    have there := nearest_le (representable_nearest p) q
    rw [abs_of_nonpos (by linarith), abs_of_nonneg (by linarith)] at here
    rw [abs_of_nonneg (by linarith), abs_of_nonpos (by linarith)] at there
    have same : p = q := by linarith
    rw [same] at crossed
    exact lt_irrefl _ crossed

/-! ## What is representable -/

theorem representable_intCast {n : ℤ} (digits : |n| ≤ 2 ^ 53) : Representable n := by
  have := representable_multiple digits (e := 0) (by omega)
  rwa [zpow_zero, mul_one] at this

/-- Every representable number is a multiple of the least positive one. -/
theorem Representable.multiple (rep : Representable x) :
    ∃ n : ℤ, x = n * 2 ^ (-1074 : ℤ) := by
  obtain ⟨m, e, -, least, rfl⟩ := rep
  exact ⟨_, multiple_of_le least⟩

/-- Beyond 53 digits a whole number ends in zeros. -/
theorem Representable.dvd {m k : ℕ} (rep : Representable m) (large : 2 ^ (53 + k) ≤ m) :
    2 ^ (k + 1) ∣ m := by
  obtain ⟨n, e, digits, -, same⟩ := rep
  have exponent : ((k + 1 : ℕ) : ℤ) ≤ e := by
    by_contra fine
    have significand : (n : ℚ) < 2 ^ (53 : ℤ) := by exact_mod_cast (abs_lt.mp digits).2
    have power : (2 : ℚ) ^ e ≤ 2 ^ (k : ℤ) := zpow_le_zpow_right₀ one_le_two (by omega)
    have bound : (2 : ℚ) ^ (53 + k) ≤ m := by exact_mod_cast large
    have less : (m : ℚ) < 2 ^ (53 : ℤ) * 2 ^ (k : ℤ) := calc
      (m : ℚ) = n * 2 ^ e := same
      _ < 2 ^ (53 : ℤ) * 2 ^ e := mul_lt_mul_of_pos_right significand (two_zpow_pos e)
      _ ≤ 2 ^ (53 : ℤ) * 2 ^ (k : ℤ) := mul_le_mul_of_nonneg_left power (two_zpow_pos 53).le
    rw [← zpow_add₀ two_ne_zero] at less
    exact absurd bound (not_le.mpr (by exact_mod_cast less))
  rw [multiple_of_le exponent, zpow_natCast] at same
  refine Int.natCast_dvd_natCast.mp ⟨n * 2 ^ (e - ((k + 1 : ℕ) : ℤ)).toNat, ?_⟩
  rw [mul_comm]
  exact_mod_cast same

/-! ## The whole numbers around a rounded number -/

/-- Among multiples of `2 ^ e` the error is at most half of it. -/
theorem abs_sub_nearest_le {e : ℤ} (least : -1074 ≤ e) (bound : |q| ≤ 2 ^ 53 * 2 ^ e) :
    |q - nearest q| ≤ 2 ^ e / 2 := by
  have unit := two_zpow_pos e
  have scaled : |q / 2 ^ e| ≤ ((2 ^ 53 : ℤ) : ℚ) := by
    rw [abs_div, abs_of_pos unit, div_le_iff₀ unit]
    exact_mod_cast bound
  refine (nearest_le (representable_multiple (abs_roundTiesEven_le scaled) least) q).trans ?_
  rw [abs_sub_multiple]
  have half := abs_sub_roundTiesEven_le_half (q / 2 ^ e)
  nlinarith

/-- A number that is not too close to the next whole one is not rounded to it. -/
theorem floor_nearest {e : ℤ} (least : -1074 ≤ e) (bound : |q| ≤ 2 ^ 53 * 2 ^ e)
    (whole : |⌊q⌋| ≤ 2 ^ 53) (apart : 2 ^ e / 2 < ⌊q⌋ + 1 - q) : ⌊nearest q⌋ = ⌊q⌋ := by
  have error := (abs_le.mp (abs_sub_nearest_le least bound)).1
  rw [Int.floor_eq_iff]
  constructor
  · exact le_nearest_of_le (representable_intCast whole) (Int.floor_le q)
  · linarith

theorem ceil_nearest {e : ℤ} (least : -1074 ≤ e) (bound : |q| ≤ 2 ^ 53 * 2 ^ e)
    (whole : |⌈q⌉| ≤ 2 ^ 53) (apart : 2 ^ e / 2 < q - (⌈q⌉ - 1)) : ⌈nearest q⌉ = ⌈q⌉ := by
  have error := (abs_le.mp (abs_sub_nearest_le least bound)).2
  rw [Int.ceil_eq_iff]
  constructor
  · linarith
  · exact nearest_le_of_le (representable_intCast whole) (Int.le_ceil q)

section Quotients

variable {m : ℤ} {n : ℕ}

/-- The place at which quotients by `n` are told from the whole numbers. -/
theorem exists_place (positive : 0 < n) (small : n ≤ 2 ^ 53) (digits : |m| ≤ 2 ^ 53) :
    ∃ e : ℤ, -1074 ≤ e ∧ |(m : ℚ) / n| ≤ 2 ^ 53 * 2 ^ e ∧ (2 : ℚ) ^ e / 2 < 1 / n := by
  have divisor : (0 : ℚ) < n := Nat.cast_pos.mpr positive
  have low : 2 ^ Nat.log 2 n ≤ n := Nat.pow_log_le_self 2 positive.ne'
  have high : n < 2 ^ (Nat.log 2 n + 1) := Nat.lt_pow_succ_log_self (by decide) n
  have place : Nat.log 2 n ≤ 53 := by
    by_contra large
    have := Nat.pow_le_pow_right (n := 2) (by decide) (not_le.mp large)
    omega
  have low : (2 : ℚ) ^ Nat.log 2 n ≤ n := by exact_mod_cast low
  have high : (n : ℚ) < 2 ^ Nat.log 2 n * 2 := by exact_mod_cast high
  have power : (0 : ℚ) < 2 ^ Nat.log 2 n := pow_pos two_pos _
  refine ⟨-(Nat.log 2 n : ℤ), by omega, ?_, ?_⟩
  · have significand : |(m : ℚ)| ≤ 2 ^ 53 := by
      rw [← Int.cast_abs]
      exact_mod_cast digits
    rw [zpow_neg, zpow_natCast, abs_div, abs_of_pos divisor, ← div_eq_mul_inv]
    exact div_le_div₀ (by positivity) significand power low
  · rw [zpow_neg, zpow_natCast, div_lt_div_iff₀ two_pos divisor, one_mul, inv_mul_lt_iff₀ power]
    exact high

theorem abs_ceil_le {q : ℚ} {n : ℤ} (bound : |q| ≤ n) : |⌈q⌉| ≤ n := by
  obtain ⟨low, high⟩ := abs_le.mp bound
  rw [abs_le]
  constructor
  · exact_mod_cast low.trans (Int.le_ceil q)
  · exact Int.ceil_le.mpr (by exact_mod_cast high)

theorem abs_div_le (positive : 0 < n) (digits : |m| ≤ 2 ^ 53) :
    |(m : ℚ) / n| ≤ ((2 ^ 53 : ℤ) : ℚ) := by
  have divisor : (1 : ℚ) ≤ n := Nat.one_le_cast.mpr positive
  rw [abs_div, Nat.abs_cast, ← Int.cast_abs]
  exact (div_le_self (by positivity) divisor).trans (Int.cast_le.mpr digits)

/-- **Quotients of whole numbers** are rounded to no whole number below. -/
theorem ceil_nearest_div (positive : 0 < n) (small : n ≤ 2 ^ 53) (digits : |m| ≤ 2 ^ 53) :
    ⌈nearest ((m : ℚ) / n)⌉ = ⌈(m : ℚ) / n⌉ := by
  obtain ⟨e, least, bound, place⟩ := exists_place positive small digits
  refine ceil_nearest least bound (abs_ceil_le (abs_div_le positive digits)) (place.trans_le ?_)
  have divisor : (0 : ℚ) < n := Nat.cast_pos.mpr positive
  have above : (⌈(m : ℚ) / n⌉ : ℚ) - 1 < m / n := sub_lt_iff_lt_add.mpr (Int.ceil_lt_add_one _)
  rw [lt_div_iff₀ divisor] at above
  have whole : (⌈(m : ℚ) / n⌉ - 1) * n + 1 ≤ m := by exact_mod_cast above
  have whole : ((⌈(m : ℚ) / n⌉ : ℚ) - 1) * n + 1 ≤ m := by exact_mod_cast whole
  rw [le_sub_comm, ← sub_div, le_div_iff₀ divisor]
  linarith

end Quotients

end Js.Binary64
