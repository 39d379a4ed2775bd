import RestaurantAssistant.Js.For
import RestaurantAssistant.Js.Number
import RestaurantAssistant.Js.Rounding

/-!
# Binary64 numbers

A `Double` is a `JsNumber` that binary64 represents.  The operations are those of `JsNumber`
with their results rounded to the nearest `Double`, from halfway to even; what is too large
is infinite.  The two zeros are one value.

* `Double.parse` is the conversion `Number(text)`, `Double.text` the conversion
  `n.toString()`: the shortest decimal that is read back as the number.
* Whole numbers up to `2 ^ 53` compute exactly (`ofInt_add` and its like).
* `Double.rank` numbers the values that can be compared in their order, and there are only
  so many of them (`rank_le_top`).
-/

namespace Js

open Binary64

/-- From here on there are no finite numbers. -/
def overflow : ℚ := 2 ^ 1024

namespace JsNumber

/-- The nearest binary64 number. -/
def rounded : JsNumber → JsNumber
  | .finite q =>
    if |nearest q| < overflow then .finite (nearest q) else .infinity (decide (q < 0))
  | n => n

theorem rounded_finite (q : ℚ) : (finite q).rounded =
    if |nearest q| < overflow then .finite (nearest q) else .infinity (decide (q < 0)) := rfl

theorem rounded_rounded (n : JsNumber) : n.rounded.rounded = n.rounded := by
  cases n with
  | nan => rfl
  | infinity s => rfl
  | finite q =>
    rw [rounded_finite]
    split_ifs with small
    · rw [rounded_finite, nearest_nearest, if_pos small]
    · rfl

theorem finite_le_infinity {p : ℚ} {s : Bool} :
    (finite p).le (.infinity s) = true ↔ s = false := by
  cases s <;> simp [le]

theorem infinity_le_finite {q : ℚ} {s : Bool} :
    (infinity s).le (.finite q) = true ↔ s = true := by
  cases s <;> simp [le]

theorem infinity_le_infinity {s t : Bool} :
    (infinity s).le (.infinity t) = true ↔ s = true ∨ t = false := by
  cases s <;> cases t <;> simp [le]

/-- Rounding keeps the order. -/
theorem rounded_le {a b : JsNumber} (le : a.le b = true) : a.rounded.le b.rounded = true := by
  cases a with
  | nan =>
    rw [nan_le] at le
    cases le
  | infinity s =>
    cases b with
    | nan => cases le
    | infinity t => exact le
    | finite q =>
      obtain rfl := infinity_le_finite.mp le
      rw [rounded_finite]
      split
      · rfl
      · rfl
  | finite p =>
    cases b with
    | nan => cases le
    | infinity t =>
      obtain rfl := finite_le_infinity.mp le
      rw [rounded_finite]
      split
      · rfl
      · exact Bool.or_true _
    | finite q =>
      rw [le_finite, decide_eq_true_eq] at le
      have mono := nearest_mono le
      rw [rounded_finite, rounded_finite]
      split_ifs with small small' small'
      · rwa [le_finite, decide_eq_true_eq]
      · -- `q` is too large
        rw [finite_le_infinity, decide_eq_false_iff_not]
        intro negative
        have nonpos := nearest_mono negative.le
        rw [nearest_zero] at nonpos
        rw [abs_lt] at small
        rw [abs_of_nonpos nonpos] at small'
        linarith
      · -- `p` is too small
        rw [infinity_le_finite, decide_eq_true_eq]
        by_contra nonneg
        have nonneg := nearest_mono (not_lt.mp nonneg)
        rw [nearest_zero] at nonneg
        rw [abs_lt] at small'
        rw [abs_of_nonneg nonneg] at small
        linarith
      · rw [infinity_le_infinity, decide_eq_true_eq, decide_eq_false_iff_not, not_lt]
        rcases lt_or_ge p 0 with negative | nonneg
        · exact .inl negative
        · exact .inr (nonneg.trans le)

end JsNumber

@[ext] structure Double where
  number : JsNumber
  rounded : number.rounded = number
  deriving DecidableEq

def JsNumber.toDouble (n : JsNumber) : Double := ⟨n.rounded, n.rounded_rounded⟩

namespace Double

/-! ## Arithmetic -/

def nan : Double := ⟨.nan, rfl⟩

def infinity (negative : Bool) : Double := ⟨.infinity negative, rfl⟩

def ofInt (n : ℤ) : Double := (JsNumber.finite n).toDouble

instance : IntCast Double := ⟨ofInt⟩

instance (n : Nat) : OfNat Double n := ⟨ofInt n⟩

instance : Add Double := ⟨fun a b => (a.number + b.number).toDouble⟩

instance : Sub Double := ⟨fun a b => (a.number - b.number).toDouble⟩

instance : Mul Double := ⟨fun a b => (a.number * b.number).toDouble⟩

instance : Div Double := ⟨fun a b => (a.number / b.number).toDouble⟩

instance : Mod Double := ⟨fun a b => (a.number % b.number).toDouble⟩

def ceil (a : Double) : Double := a.number.ceil.toDouble

def floor (a : Double) : Double := a.number.floor.toDouble

def lt (a b : Double) : Bool := a.number.lt b.number

def le (a b : Double) : Bool := a.number.le b.number

/-! ## Texts -/

/-- `Number(text)`. -/
def parse (text : List Char) : Double := (JsNumber.parse text).toDouble

/-- The decimal of `k` digits nearest to `x` that is read as `x`, if there is one: the digits
and the exponent of the last one. -/
def decimal? (x : ℚ) (k : Nat) : Option (ℤ × ℤ) :=
  let exponent := Int.log 10 x + 1 - k
  let scaled := x / 10 ^ exponent
  let digits := roundTiesEven scaled
  let other := if digits = ⌊scaled⌋ then digits + 1 else ⌊scaled⌋
  ([digits, other].find? fun (digits : ℤ) => nearest (digits * 10 ^ exponent) = x).map
    fun digits => (digits, exponent)

/-- The text of a decimal. -/
def decimalText (digits : Nat) (exponent : ℤ) : List Char :=
  let all := Nat.toDigits 10 digits
  let significant := all.rdropWhile (· = '0')
  let k := significant.length
  let point := all.length + exponent
  if k ≤ point ∧ point ≤ 21 then significant ++ List.replicate (point.toNat - k) '0'
  else if 0 < point ∧ point ≤ 21 then
    significant.take point.toNat ++ '.' :: significant.drop point.toNat
  else if -6 < point ∧ point ≤ 0 then
    '0' :: '.' :: (List.replicate (-point).toNat '0' ++ significant)
  else
    significant.take 1 ++ (if k = 1 then [] else '.' :: significant.drop 1) ++
      'e' :: (if 0 < point then '+' else '-') :: Nat.toDigits 10 (point - 1).natAbs

/-- The text of a positive number.  A whole number that 53 digits hold is its own shortest
decimal; for the others there is one of at most seventeen digits. -/
def positiveText (x : ℚ) : List Char :=
  if x.isInt && x ≤ 2 ^ 53 then Nat.toDigits 10 x.num.natAbs
  else
    match (List.range 17).findSome? fun k => decimal? x (k + 1) with
    | some (digits, exponent) => decimalText digits.natAbs exponent
    | none => []

/-- `n.toString()`. -/
def text (a : Double) : List Char :=
  match a.number with
  | .nan => ['N', 'a', 'N']
  | .infinity s => (if s then ['-'] else []) ++ ['I', 'n', 'f', 'i', 'n', 'i', 't', 'y']
  | .finite q => (if q < 0 then ['-'] else []) ++ positiveText |q|

/-! ## Whole numbers -/

variable {a b c : Double} {m n : ℤ} {q : ℚ}

theorem intCast_eq (n : ℤ) : (n : Double) = ofInt n := rfl

theorem ofNat_eq (n : Nat) : (OfNat.ofNat n : Double) = ofInt n := rfl

theorem finite_valid (rep : Representable q) (small : |q| < overflow) :
    (JsNumber.finite q).rounded = .finite q := by
  rw [JsNumber.rounded_finite, rep.nearest_eq, if_pos small]

theorem of_finite_valid (valid : (JsNumber.finite q).rounded = .finite q) :
    Representable q ∧ |q| < overflow := by
  rw [JsNumber.rounded_finite] at valid
  split at valid
  · rename_i small
    have rep := representable_nearest q
    rw [JsNumber.finite.inj valid] at rep small
    exact ⟨rep, small⟩
  · cases valid

theorem lt_overflow (bound : |q| ≤ 2 ^ 60) : |q| < overflow :=
  bound.trans_lt (pow_lt_pow_right₀ one_lt_two (by decide))

theorem intCast_lt_overflow (digits : |n| ≤ 2 ^ 53) : |(n : ℚ)| < overflow := by
  apply lt_overflow
  rw [← Int.cast_abs]
  have small : |n| ≤ 2 ^ 60 := digits.trans (by norm_num)
  exact_mod_cast small

/-- Whole numbers up to `2 ^ 53` are themselves. -/
theorem ofInt_number (digits : |n| ≤ 2 ^ 53) : (ofInt n).number = .finite n := by
  exact finite_valid (representable_intCast digits) (intCast_lt_overflow digits)

theorem ofInt_add (left : |m| ≤ 2 ^ 53) (right : |n| ≤ 2 ^ 53) :
    ofInt m + ofInt n = ofInt (m + n) := by
  change ((ofInt m).number + (ofInt n).number).toDouble = _
  rw [ofInt_number left, ofInt_number right, JsNumber.finite_add, ← Int.cast_add]
  rfl

theorem ofInt_sub (left : |m| ≤ 2 ^ 53) (right : |n| ≤ 2 ^ 53) :
    ofInt m - ofInt n = ofInt (m - n) := by
  change ((ofInt m).number - (ofInt n).number).toDouble = _
  rw [ofInt_number left, ofInt_number right, JsNumber.finite_sub, ← Int.cast_sub]
  rfl

theorem ofInt_mul (left : |m| ≤ 2 ^ 53) (right : |n| ≤ 2 ^ 53) :
    ofInt m * ofInt n = ofInt (m * n) := by
  change ((ofInt m).number * (ofInt n).number).toDouble = _
  rw [ofInt_number left, ofInt_number right, JsNumber.finite_mul, ← Int.cast_mul]
  rfl

theorem ofInt_lt (left : |m| ≤ 2 ^ 53) (right : |n| ≤ 2 ^ 53) :
    (ofInt m).lt (ofInt n) = decide (m < n) := by
  unfold lt
  rw [ofInt_number left, ofInt_number right, JsNumber.lt_finite]
  exact decide_eq_decide.mpr Int.cast_lt

theorem ofInt_le (left : |m| ≤ 2 ^ 53) (right : |n| ≤ 2 ^ 53) :
    (ofInt m).le (ofInt n) = decide (m ≤ n) := by
  unfold le
  rw [ofInt_number left, ofInt_number right, JsNumber.le_finite]
  exact decide_eq_decide.mpr Int.cast_le

/-- The counter of `i++`. -/
theorem iterate_add_one {k : Nat} (low : |m| ≤ 2 ^ 53) (high : |m + k| ≤ 2 ^ 53) :
    (· + 1)^[k] (ofInt m) = ofInt (m + k) := by
  induction k with
  | zero => rw [Function.iterate_zero_apply, Nat.cast_zero, add_zero]
  | succ k ih =>
    rw [Nat.cast_succ] at high
    rw [abs_le] at low high
    have before : |m + k| ≤ 2 ^ 53 := by
      rw [abs_le]
      omega
    have one : (1 : Double) = ofInt 1 := rfl
    rw [Function.iterate_succ_apply', ih before, one, ofInt_add before (by norm_num), add_assoc,
      Nat.cast_succ]

/-! ## Quotients of whole numbers -/

theorem rounded_of_le (bound : |q| ≤ 2 ^ 53) :
    (JsNumber.finite q).rounded = .finite (nearest q) := by
  have whole : Representable ((2 ^ 53 : ℤ) : ℚ) := representable_intCast (by norm_num)
  have whole' : Representable ((-2 ^ 53 : ℤ) : ℚ) := representable_intCast (by norm_num)
  push_cast at whole whole'
  obtain ⟨low, high⟩ := abs_le.mp bound
  have within : |nearest q| ≤ ((2 ^ 53 : ℤ) : ℚ) := by
    rw [Int.cast_pow, Int.cast_two, abs_le]
    exact ⟨le_nearest_of_le whole' low, nearest_le_of_le whole high⟩
  have small : |((2 ^ 53 : ℤ) : ℚ)| < overflow := intCast_lt_overflow (by norm_num)
  rw [JsNumber.rounded_finite, if_pos (within.trans_lt ((le_abs_self _).trans_lt small))]

section Quotients

variable {d : ℕ}

theorem ofInt_div (digits : |m| ≤ 2 ^ 53) (positive : 0 < d) (small : d ≤ 2 ^ 53) :
    (ofInt m / ofInt d).number = .finite (nearest ((m : ℚ) / d)) := by
  have divisor : ((d : ℤ) : ℚ) ≠ 0 := by exact_mod_cast positive.ne'
  have exact : (ofInt m).number / (ofInt d).number = .finite ((m : ℚ) / d) := by
    rw [ofInt_number digits, ofInt_number (by rw [Nat.abs_cast]; exact_mod_cast small),
      JsNumber.finite_div divisor, Int.cast_natCast]
  change ((ofInt m).number / (ofInt d).number).rounded = _
  rw [exact]
  exact rounded_of_le (by exact_mod_cast abs_div_le positive digits)

theorem ofInt_div_ceil (digits : |m| ≤ 2 ^ 53) (positive : 0 < d) (small : d ≤ 2 ^ 53) :
    (ofInt m / ofInt d).ceil = ofInt ⌈(m : ℚ) / d⌉ := by
  unfold ceil
  rw [ofInt_div digits positive small, JsNumber.ceil_finite,
    ceil_nearest_div positive small digits]
  rfl

/-- No whole number is between a quotient and its rounding. -/
theorem ofInt_lt_div (left : |n| ≤ 2 ^ 53) (digits : |m| ≤ 2 ^ 53) (positive : 0 < d)
    (small : d ≤ 2 ^ 53) : (ofInt n).lt (ofInt m / ofInt d) = decide ((n : ℚ) < m / d) := by
  unfold lt
  rw [ofInt_number left, ofInt_div digits positive small, JsNumber.lt_finite]
  apply decide_eq_decide.mpr
  rw [← Int.lt_ceil, ← Int.lt_ceil, ceil_nearest_div positive small digits]

theorem ofInt_mul_div (digits : |n * d| ≤ 2 ^ 53) (left : |n| ≤ 2 ^ 53) (positive : 0 < d)
    (small : d ≤ 2 ^ 53) : ofInt (n * d) / ofInt d = ofInt n := by
  apply Double.ext
  have divisor : (d : ℚ) ≠ 0 := Nat.cast_ne_zero.mpr positive.ne'
  rw [ofInt_div digits positive small, ofInt_number left, Int.cast_mul, Int.cast_natCast,
    mul_div_cancel_right₀ _ divisor, (representable_intCast left).nearest_eq]

end Quotients

/-- Whole numbers are written with all their digits. -/
theorem text_ofInt {d : ℕ} (digits : d ≤ 2 ^ 53) : (ofInt d).text = JsNumber.naturalText d := by
  have number : (ofInt d).number = .finite d := by
    rw [ofInt_number (by rw [Nat.abs_cast]; exact_mod_cast digits), Int.cast_natCast]
  have nonneg : ¬ (d : ℚ) < 0 := not_lt.mpr d.cast_nonneg
  have whole : ((d : ℚ).isInt && decide ((d : ℚ) ≤ 2 ^ 53)) = true := by
    have bound : (d : ℚ) ≤ 2 ^ 53 := by exact_mod_cast digits
    simp [Rat.isInt, bound]
  have short : d < 10 ^ 21 := digits.trans_lt (by norm_num)
  unfold text positiveText JsNumber.naturalText
  rw [number]
  simp only [if_neg nonneg, Nat.abs_cast, if_pos whole, if_pos short, Rat.num_natCast,
    Int.natAbs_natCast, List.nil_append]

/-! ## Order -/

theorem le_trans (ab : a.le b = true) (bc : b.le c = true) : a.le c = true :=
  JsNumber.le_trans ab bc

theorem le_refl (number : a ≠ nan) : a.le a = true := by
  obtain ⟨value, valid⟩ := a
  cases value with
  | nan => exact absurd rfl number
  | infinity s => cases s <;> rfl
  | finite q => exact decide_eq_true le_rfl

theorem ne_nan_of_le (le : a.le b = true) : a ≠ nan := by
  rintro rfl
  exact absurd ((JsNumber.nan_le b.number).symm.trans le) (by decide)

theorem ne_nan_of_le_right (le : a.le b = true) : b ≠ nan := by
  rintro rfl
  exact absurd ((JsNumber.le_nan a.number).symm.trans le) (by decide)

/-- The steps of the least positive number from zero to infinity. -/
def top : ℤ := 2 ^ 2098

theorem top_pos : 0 < top := pow_pos two_pos 2098

theorem overflow_eq_top : overflow / 2 ^ (-1074 : ℤ) = top := by
  unfold overflow top
  rw [← zpow_natCast, ← zpow_sub₀ two_ne_zero, Int.cast_pow, ← zpow_natCast]
  rfl

/-- A finite number is so many steps from zero. -/
theorem steps_of_finite (valid : (JsNumber.finite q).rounded = .finite q) :
    ∃ n : ℤ, q = n * 2 ^ (-1074 : ℤ) ∧ |n| < top := by
  obtain ⟨rep, small⟩ := of_finite_valid valid
  obtain ⟨n, rfl⟩ := rep.multiple
  refine ⟨n, rfl, ?_⟩
  have unit := two_zpow_pos (-1074)
  rw [abs_mul, abs_of_pos unit, ← lt_div_iff₀ unit, overflow_eq_top, ← Int.cast_abs] at small
  exact Int.cast_lt.mp small

/-- The place of a number in the order of all numbers. -/
def rank (a : Double) : ℤ :=
  match a.number with
  | .nan => 0
  | .infinity s => if s then -top else top
  | .finite q => ⌊q * 2 ^ 1074⌋

theorem rank_of_steps (same : a.number = .finite (n * 2 ^ (-1074 : ℤ))) : a.rank = n := by
  unfold rank
  rw [same]
  have scaled : (n : ℚ) * 2 ^ (-1074 : ℤ) * 2 ^ 1074 = n := by
    rw [mul_assoc, ← zpow_natCast, ← zpow_add₀ two_ne_zero]
    exact mul_one _
  simp only [scaled, Int.floor_intCast]

theorem rank_le_top (a : Double) : |a.rank| ≤ top := by
  obtain ⟨value, valid⟩ := a
  cases value with
  | nan => exact abs_zero.trans_le top_pos.le
  | infinity s =>
    cases s
    · exact (abs_of_pos top_pos).le
    · exact ((abs_neg top).trans (abs_of_pos top_pos)).le
  | finite q =>
    obtain ⟨n, rfl, bound⟩ := steps_of_finite valid
    rw [rank_of_steps rfl]
    exact bound.le

/-- What is larger comes later. -/
theorem rank_lt (le : a.le b = true) (ne : a ≠ b) : a.rank < b.rank := by
  obtain ⟨value, valid⟩ := a
  obtain ⟨value', valid'⟩ := b
  have apart : value ≠ value' := fun same => ne (Double.ext same)
  cases value with
  | nan => exact absurd ((JsNumber.nan_le value').symm.trans le) (by decide)
  | infinity s =>
    cases value' with
    | nan => cases le
    | infinity t =>
      cases s <;> cases t
      · exact absurd rfl apart
      · cases le
      · exact (neg_lt_zero.mpr top_pos).trans top_pos
      · exact absurd rfl apart
    | finite q =>
      obtain rfl := JsNumber.infinity_le_finite.mp le
      obtain ⟨n, rfl, bound⟩ := steps_of_finite valid'
      rw [rank_of_steps (a := ⟨_, valid'⟩) rfl]
      exact (abs_lt.mp bound).1
  | finite p =>
    obtain ⟨m, rfl, bound⟩ := steps_of_finite valid
    rw [rank_of_steps (a := ⟨_, valid⟩) rfl]
    cases value' with
    | nan => cases le
    | infinity t =>
      obtain rfl := JsNumber.finite_le_infinity.mp le
      exact (abs_lt.mp bound).2
    | finite q =>
      obtain ⟨n, rfl, -⟩ := steps_of_finite valid'
      rw [rank_of_steps (a := ⟨_, valid'⟩) rfl]
      have less : ((m : ℚ) * 2 ^ (-1074 : ℤ)) ≤ n * 2 ^ (-1074 : ℤ) := of_decide_eq_true le
      have steps := Int.cast_le.mp (le_of_mul_le_mul_right less (two_zpow_pos _))
      refine lt_of_le_of_ne steps ?_
      rintro rfl
      exact apart rfl

/-! ## Counting -/

theorem one_number : (1 : Double).number = .finite 1 := by
  change (ofInt 1).number = _
  rw [ofInt_number (by norm_num), Int.cast_one]

theorem le_number_add {x : JsNumber} (number : x ≠ .nan) (nonneg : 0 ≤ q) :
    x.le (x + .finite q) = true := by
  cases x with
  | nan => exact absurd rfl number
  | infinity s => exact (JsNumber.infinity_le_infinity).mpr (by cases s <;> simp)
  | finite p =>
    rw [JsNumber.finite_add, JsNumber.le_finite, decide_eq_true_eq]
    exact le_add_of_nonneg_right nonneg

theorem number_add_le {x y : JsNumber} (le : x.le y = true) (q : ℚ) :
    (x + .finite q).le (y + .finite q) = true := by
  cases x with
  | nan =>
    rw [JsNumber.nan_le] at le
    cases le
  | infinity s =>
    cases y with
    | nan => cases le
    | infinity t => exact le
    | finite r => exact le
  | finite p =>
    cases y with
    | nan => cases le
    | infinity t => exact le
    | finite r =>
      rw [JsNumber.le_finite, decide_eq_true_eq] at le
      rw [JsNumber.finite_add, JsNumber.finite_add, JsNumber.le_finite, decide_eq_true_eq]
      exact add_le_add_left le q

theorem add_one_number (a : Double) : (a + 1).number = (a.number + .finite 1).rounded := by
  rw [← one_number]
  rfl

theorem sub_one_number (a : Double) : (a - 1).number = (a.number + .finite (-1)).rounded := by
  have minus : JsNumber.finite (-1) = (1 : Double).number.neg := by
    rw [one_number]
    rfl
  rw [minus]
  rfl

theorem number_ne_nan (number : a ≠ nan) : a.number ≠ .nan :=
  fun same => number (Double.ext same)

theorem add_one_le_add_one (le : a.le b = true) : (a + 1).le (b + 1) = true := by
  unfold Double.le
  rw [add_one_number, add_one_number]
  exact JsNumber.rounded_le (number_add_le le 1)

theorem sub_one_le_sub_one (le : a.le b = true) : (a - 1).le (b - 1) = true := by
  unfold Double.le
  rw [sub_one_number, sub_one_number]
  exact JsNumber.rounded_le (number_add_le le (-1))

theorem le_add_one (number : a ≠ nan) : a.le (a + 1) = true := by
  have up := JsNumber.rounded_le (le_number_add (number_ne_nan number) zero_le_one)
  rwa [a.rounded, ← add_one_number] at up

theorem sub_one_le (number : a ≠ nan) : (a - 1).le a = true := by
  have nonneg := le_number_add (q := 1) (number_ne_nan number) zero_le_one
  have down : (a.number + .finite (-1)).le a.number = true := by
    obtain ⟨value, valid⟩ := a
    cases value with
    | nan => exact absurd rfl number
    | infinity s => exact nonneg
    | finite p =>
      rw [JsNumber.finite_add, JsNumber.le_finite, decide_eq_true_eq]
      linarith
  have down := JsNumber.rounded_le down
  rwa [a.rounded, ← sub_one_number] at down

theorem lt_of_le_of_lt (ab : a.le b = true) (bc : b.lt c = true) : a.lt c = true := by
  unfold Double.le at ab
  unfold Double.lt at bc ⊢
  generalize a.number = x at ab ⊢
  generalize b.number = y at ab bc
  generalize c.number = z at bc ⊢
  cases x with
  | nan =>
    rw [JsNumber.nan_le] at ab
    cases ab
  | infinity s =>
    cases y with
    | nan => cases ab
    | infinity t =>
      cases z with
      | nan => cases bc
      | infinity u => cases s <;> cases t <;> simp_all [JsNumber.le, JsNumber.lt]
      | finite r => cases s <;> cases t <;> simp_all [JsNumber.le, JsNumber.lt]
    | finite q =>
      obtain rfl := JsNumber.infinity_le_finite.mp ab
      cases z with
      | nan => cases bc
      | infinity u => exact bc
      | finite r => rfl
  | finite p =>
    cases y with
    | nan => cases ab
    | infinity t =>
      obtain rfl := JsNumber.finite_le_infinity.mp ab
      cases z with
      | nan => cases bc
      | infinity u => cases bc
      | finite r => cases bc
    | finite q =>
      cases z with
      | nan => cases bc
      | infinity u => exact bc
      | finite r =>
        rw [JsNumber.le_finite, decide_eq_true_eq] at ab
        rw [JsNumber.lt_finite, decide_eq_true_eq] at bc ⊢
        exact ab.trans_lt bc

/-- Below `2 ^ 53` a number has a successor. -/
theorem add_one_ne (value : a.number = .finite q) (low : -2 ^ 53 ≤ q) (high : q < 2 ^ 53) :
    a + 1 ≠ a := by
  intro stuck
  have above := Int.lt_floor_add_one q
  have within : |⌊q⌋ + 1| ≤ 2 ^ 53 := by
    have lower : -2 ^ 53 ≤ ⌊q⌋ := Int.le_floor.mpr (by exact_mod_cast low)
    have upper : ⌊q⌋ < 2 ^ 53 := Int.floor_lt.mpr (by exact_mod_cast high)
    rw [abs_le]
    constructor <;> linarith
  -- the next whole number is no more than one away
  have next : (ofInt (⌊q⌋ + 1)).le (a + 1) = true := by
    have near : (JsNumber.finite ((⌊q⌋ + 1 : ℤ) : ℚ)).le (a.number + .finite 1) = true := by
      rw [value, JsNumber.finite_add, JsNumber.le_finite, decide_eq_true_eq, Int.cast_add,
        Int.cast_one]
      exact add_le_add_left (Int.floor_le q) 1
    have rounded := JsNumber.rounded_le near
    rw [← add_one_number] at rounded
    exact rounded
  rw [stuck] at next
  unfold Double.le at next
  rw [ofInt_number within, value, JsNumber.le_finite, decide_eq_true_eq] at next
  push_cast at next
  linarith

/-- Up to `2 ^ 53` a number has a predecessor. -/
theorem sub_one_ne (value : a.number = .finite q) (low : -2 ^ 53 < q) (high : q ≤ 2 ^ 53) :
    a - 1 ≠ a := by
  intro stuck
  have below := Int.ceil_lt_add_one q
  have within : |⌈q⌉ - 1| ≤ 2 ^ 53 := by
    have lower : -2 ^ 53 < ⌈q⌉ := Int.lt_ceil.mpr (by exact_mod_cast low)
    have upper : ⌈q⌉ ≤ 2 ^ 53 := Int.ceil_le.mpr (by exact_mod_cast high)
    rw [abs_le]
    constructor <;> linarith
  have next : (a - 1).le (ofInt (⌈q⌉ - 1)) = true := by
    have near : (a.number + .finite (-1)).le (JsNumber.finite ((⌈q⌉ - 1 : ℤ) : ℚ)) = true := by
      rw [value, JsNumber.finite_add, JsNumber.le_finite, decide_eq_true_eq, Int.cast_sub,
        Int.cast_one, ← sub_eq_add_neg]
      exact sub_le_sub_right (Int.le_ceil q) 1
    have rounded := JsNumber.rounded_le near
    rw [← sub_one_number] at rounded
    exact rounded
  rw [stuck] at next
  unfold Double.le at next
  rw [ofInt_number within, value, JsNumber.le_finite, decide_eq_true_eq] at next
  push_cast at next
  linarith

/-- No number from `a` to before `b` is its own successor. -/
def PassesUp (a b : Double) : Prop := ∀ y : Double, a.le y = true → y.lt b = true → y + 1 ≠ y

/-- No number from `a` down to zero is its own predecessor. -/
def PassesDown (a : Double) : Prop :=
  ∀ y : Double, y.le a = true → (0 : Double).le y = true → y - 1 ≠ y

/-- A number between finite ones is finite. -/
theorem finite_of_between {p r : ℚ} (left : a.number = .finite p) (right : c.number = .finite r)
    (above : a.le b = true) (below : b.le c = true) :
    ∃ q, b.number = .finite q ∧ p ≤ q ∧ q ≤ r := by
  unfold Double.le at above below
  rw [left] at above
  rw [right] at below
  cases value : b.number with
  | nan =>
    rw [value] at above
    cases above
  | infinity s =>
    rw [value] at above below
    cases s
    · cases below
    · cases above
  | finite q =>
    rw [value, JsNumber.le_finite, decide_eq_true_eq] at above below
    exact ⟨q, rfl, above, below⟩

theorem le_of_lt (less : a.lt b = true) : a.le b = true := by
  unfold Double.lt at less
  unfold Double.le
  generalize a.number = x at less ⊢
  generalize b.number = y at less ⊢
  cases x with
  | nan =>
    rw [JsNumber.nan_lt] at less
    cases less
  | infinity s => cases y <;> cases s <;> simp_all [JsNumber.lt, JsNumber.le]
  | finite p =>
    cases y with
    | nan => cases less
    | infinity t => exact less
    | finite q =>
      rw [JsNumber.lt_finite, decide_eq_true_eq] at less
      rw [JsNumber.le_finite, decide_eq_true_eq]
      exact less.le

/-- Between `-2 ^ 53` and `2 ^ 53` counting up always gets on. -/
theorem passesUp_of_le (low : (ofInt (-2 ^ 53)).le a = true)
    (high : b.le (ofInt (2 ^ 53)) = true) : PassesUp a b := by
  intro y above below
  have least := ofInt_number (n := -2 ^ 53) (by norm_num)
  have greatest := ofInt_number (n := 2 ^ 53) (by norm_num)
  obtain ⟨q, value, lower, -⟩ := finite_of_between least greatest (le_trans low above)
    (le_trans (le_of_lt below) high)
  refine add_one_ne value (by exact_mod_cast lower) ?_
  by_contra large
  have beyond : (ofInt (2 ^ 53)).le y = true := by
    unfold Double.le
    rw [greatest, value, JsNumber.le_finite, decide_eq_true_eq]
    exact_mod_cast not_lt.mp large
  have past := lt_of_le_of_lt beyond below
  obtain ⟨r, bound, -, upper⟩ := finite_of_between least greatest
    (le_trans low (le_trans above (le_of_lt below))) high
  unfold Double.lt at past
  rw [greatest, bound, JsNumber.lt_finite, decide_eq_true_eq] at past
  exact not_lt.mpr upper past

/-- Up to `2 ^ 53` counting down always gets on. -/
theorem passesDown_of_le (high : a.le (ofInt (2 ^ 53)) = true) : PassesDown a := by
  intro y below above
  have zero : (0 : Double).number = .finite ((0 : ℤ) : ℚ) := ofInt_number (by norm_num)
  have greatest := ofInt_number (n := 2 ^ 53) (by norm_num)
  obtain ⟨q, value, lower, upper⟩ := finite_of_between zero greatest above (le_trans below high)
  refine sub_one_ne value ?_ (by exact_mod_cast upper)
  have nonneg : (0 : ℚ) ≤ q := by exact_mod_cast lower
  linarith

/-- **Counting up** gets to its bound unless it meets a number that is its own successor. -/
theorem counts_up_iff : (∃ k, ((· + 1)^[k] a).lt b = false) ↔ PassesUp a b := by
  constructor
  · rintro ⟨k, stopped⟩ y above below stuck
    have kept : ∀ x : Double, x.le y = true → (x + 1).le y = true := by
      intro x le
      have next := add_one_le_add_one le
      rwa [stuck] at next
    have runs := runs_iterate (fun x : Double => x.lt b) (· + 1) (fun x => x.le y = true) above kept
      (fun x le => lt_of_le_of_lt le below) k
    rw [stopped] at runs
    cases runs
  · intro passes
    by_cases below : a.lt b = true
    · have number : a ≠ nan := by
        rintro rfl
        exact absurd ((JsNumber.nan_lt b.number).symm.trans below) (by decide)
      refine exists_stopped (fun x => x.lt b) (· + 1) (fun x => a.le x = true) rank
        (le_refl number) ?_ fun x => (abs_le.mp (rank_le_top x)).2
      intro x above runs
      have up := le_add_one (ne_nan_of_le_right above)
      exact ⟨le_trans above up, rank_lt up (passes x above runs).symm⟩
    · exact ⟨0, Bool.eq_false_iff.mpr below⟩

/-- **Counting down** gets below zero unless it meets a number that is its own predecessor. -/
theorem counts_down_iff : (∃ k, (0 : Double).le ((· - 1)^[k] a) = false) ↔ PassesDown a := by
  constructor
  · rintro ⟨k, stopped⟩ y below above stuck
    have kept : ∀ x : Double, y.le x = true → y.le (x - 1) = true := by
      intro x le
      have next := sub_one_le_sub_one le
      rwa [stuck] at next
    have runs := runs_iterate (fun x : Double => (0 : Double).le x) (· - 1) (fun x => y.le x = true)
      below kept (fun x le => le_trans above le) k
    rw [stopped] at runs
    cases runs
  · intro passes
    by_cases above : (0 : Double).le a = true
    · refine exists_stopped (fun x => (0 : Double).le x) (· - 1) (fun x => x.le a = true)
        (fun x => -x.rank) (le_refl (ne_nan_of_le_right above)) ?_
        fun x => neg_le.mp (abs_le.mp (rank_le_top x)).1
      intro x below runs
      have down := sub_one_le (ne_nan_of_le below)
      exact ⟨le_trans down below, neg_lt_neg (rank_lt down (passes x below runs))⟩
    · exact ⟨0, Bool.eq_false_iff.mpr above⟩

end Double

end Js
