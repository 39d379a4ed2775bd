import Mathlib.Data.List.DropRight
import Mathlib.Data.List.TakeWhile
import Mathlib.Data.Rat.Floor
import Mathlib.Tactic.NormNum

/-!
# JavaScript numbers

`JsNumber` has the values of the language's `number` type with exact rational
arithmetic for the finite ones: `NaN`, the two infinities, and a rational.
Rounding to binary64 is left to `Js.Double`, and the two zeros are one value.

* arithmetic, comparison, `Math.ceil`, `Math.floor` and `Math.round`, with the rules
  for `NaN` and the infinities; comparisons are `Bool`, false as soon as one side
  is `NaN`;
* `JsNumber.parse`, the conversion `Number(text)`, over the whole grammar of
  numeric strings;
* `JsNumber.text`, the conversion `n.toString()`, and `padStart`.
-/

namespace Js

inductive JsNumber
  | nan
  | infinity (negative : Bool)
  | finite (q : ℚ)
  deriving DecidableEq

namespace JsNumber

instance : Coe ℚ JsNumber := ⟨.finite⟩

instance : NatCast JsNumber := ⟨fun n => .finite n⟩

instance : IntCast JsNumber := ⟨fun n => .finite n⟩

instance (n : Nat) : OfNat JsNumber n := ⟨.finite n⟩

/-! ## Arithmetic -/

def neg : JsNumber → JsNumber
  | .nan => .nan
  | .infinity s => .infinity !s
  | .finite q => .finite (-q)

def add : JsNumber → JsNumber → JsNumber
  | .finite a, .finite b => .finite (a + b)
  | .infinity s, .infinity t => if s = t then .infinity s else .nan
  | .infinity s, .finite _ => .infinity s
  | .finite _, .infinity s => .infinity s
  | _, _ => .nan

/-- An infinity times a finite number. -/
def scaleInfinity (s : Bool) (q : ℚ) : JsNumber :=
  if q = 0 then .nan else .infinity (s ^^ decide (q < 0))

def mul : JsNumber → JsNumber → JsNumber
  | .finite a, .finite b => .finite (a * b)
  | .infinity s, .infinity t => .infinity (s ^^ t)
  | .infinity s, .finite q => scaleInfinity s q
  | .finite q, .infinity s => scaleInfinity s q
  | _, _ => .nan

def div : JsNumber → JsNumber → JsNumber
  | .finite a, .finite b =>
    if b = 0 then
      if a = 0 then .nan else .infinity (decide (a < 0))
    else .finite (a / b)
  | .infinity s, .finite q => .infinity (s ^^ decide (q < 0))
  | .finite _, .infinity _ => .finite 0
  | _, _ => .nan

/-- `a % b`, with the sign of the dividend. -/
def rem : JsNumber → JsNumber → JsNumber
  | .finite a, .finite b =>
    if b = 0 then .nan
    else if 0 ≤ a / b then .finite (a - b * ⌊a / b⌋) else .finite (a - b * ⌈a / b⌉)
  | .finite a, .infinity _ => .finite a
  | _, _ => .nan

instance : Add JsNumber := ⟨add⟩

instance : Sub JsNumber := ⟨fun a b => add a (neg b)⟩

instance : Mul JsNumber := ⟨mul⟩

instance : Div JsNumber := ⟨div⟩

instance : Mod JsNumber := ⟨rem⟩

def ceil : JsNumber → JsNumber
  | .finite q => .finite ⌈q⌉
  | n => n

def floor : JsNumber → JsNumber
  | .finite q => .finite ⌊q⌋
  | n => n

/-- `Math.round`, upwards from halfway. -/
def round : JsNumber → JsNumber
  | .finite q => .finite ⌊q + 1 / 2⌋
  | n => n

def lt : JsNumber → JsNumber → Bool
  | .finite a, .finite b => decide (a < b)
  | .infinity s, .infinity t => s && !t
  | .infinity s, .finite _ => s
  | .finite _, .infinity t => !t
  | _, _ => false

def le : JsNumber → JsNumber → Bool
  | .finite a, .finite b => decide (a ≤ b)
  | .infinity s, .infinity t => s || !t
  | .infinity s, .finite _ => s
  | .finite _, .infinity t => !t
  | _, _ => false

/-! The finite numbers compute as rationals. -/

theorem ofNat_eq (n : Nat) : (OfNat.ofNat n : JsNumber) = .finite n := rfl

theorem natCast_eq (n : Nat) : (n : JsNumber) = .finite n := rfl

theorem intCast_eq (n : Int) : (n : JsNumber) = .finite n := rfl

theorem ofNat_eq_intCast (n : Nat) : (OfNat.ofNat n : JsNumber) = (n : Int) := by
  rw [ofNat_eq, intCast_eq, Int.cast_natCast]

@[simp] theorem finite_add (a b : ℚ) : JsNumber.finite a + .finite b = .finite (a + b) := rfl

theorem intCast_add (a b : Int) : (a : JsNumber) + b = (a + b : Int) := by
  rw [intCast_eq, intCast_eq, intCast_eq, finite_add, Int.cast_add]

@[simp] theorem finite_sub (a b : ℚ) : JsNumber.finite a - .finite b = .finite (a - b) := by
  rw [sub_eq_add_neg]
  rfl

@[simp] theorem finite_mul (a b : ℚ) : JsNumber.finite a * .finite b = .finite (a * b) := rfl

theorem finite_div {a b : ℚ} (nonzero : b ≠ 0) :
    JsNumber.finite a / .finite b = .finite (a / b) := if_neg nonzero

theorem natCast_mod {m n : Nat} (positive : 0 < n) :
    JsNumber.finite m % .finite n = .finite ((m % n : Nat) : ℚ) := by
  have divisor : ¬ (n : ℚ) = 0 := Nat.cast_ne_zero.mpr positive.ne'
  have nonneg : (0 : ℚ) ≤ (m : ℚ) / n := by positivity
  have floor : ⌊(m : ℚ) / n⌋ = ((m / n : Nat) : Int) := Rat.floor_natCast_div_natCast m n
  have split : (m : ℚ) = n * (m / n : Nat) + (m % n : Nat) := by
    exact_mod_cast (Nat.div_add_mod m n).symm
  change JsNumber.rem (.finite m) (.finite n) = _
  simp only [JsNumber.rem, nonneg, if_true, floor, Int.cast_natCast]
  rw [if_neg divisor, sub_eq_of_eq_add' split]

theorem infinity_add (s : Bool) (n : JsNumber) :
    JsNumber.infinity s + n = .infinity s ∨ JsNumber.infinity s + n = .nan := by
  cases n with
  | nan => exact .inr rfl
  | infinity t => cases s <;> cases t <;> first | exact .inl rfl | exact .inr rfl
  | finite q => exact .inl rfl

@[simp] theorem ceil_finite (q : ℚ) : ceil (.finite q) = .finite ⌈q⌉ := rfl

@[simp] theorem floor_finite (q : ℚ) : floor (.finite q) = .finite ⌊q⌋ := rfl

@[simp] theorem round_finite (q : ℚ) : round (.finite q) = .finite ⌊q + 1 / 2⌋ := rfl

@[simp] theorem lt_finite (a b : ℚ) : lt (.finite a) (.finite b) = decide (a < b) := rfl

@[simp] theorem le_finite (a b : ℚ) : le (.finite a) (.finite b) = decide (a ≤ b) := rfl

@[simp] theorem nan_lt (n : JsNumber) : lt .nan n = false := by cases n <;> rfl

@[simp] theorem lt_nan (n : JsNumber) : lt n .nan = false := by cases n <;> rfl

@[simp] theorem nan_le (n : JsNumber) : le .nan n = false := by cases n <;> rfl

@[simp] theorem le_nan (n : JsNumber) : le n .nan = false := by cases n <;> rfl

theorem le_trans {a b c : JsNumber} (ab : a.le b = true) (bc : b.le c = true) :
    a.le c = true := by
  cases a with
  | nan =>
    rw [nan_le] at ab
    cases ab
  | infinity s => cases s <;> cases b <;> cases c <;> simp_all [le]
  | finite p =>
    cases b with
    | nan => cases ab
    | infinity t => cases c <;> simp_all [le]
    | finite q =>
      cases c with
      | nan => cases bc
      | infinity u => exact bc
      | finite r =>
        rw [le_finite, decide_eq_true_eq] at ab bc ⊢
        exact ab.trans bc

/-- Adding whole numbers keeps the order. -/
theorem intCast_add_le {m n : Int} {a b : JsNumber} (le : m ≤ n) (ab : a.le b = true) :
    ((m : JsNumber) + a).le ((n : JsNumber) + b) = true := by
  cases a with
  | nan =>
    rw [nan_le] at ab
    cases ab
  | infinity s =>
    cases b with
    | nan => cases ab
    | infinity t => exact ab
    | finite q => exact ab
  | finite p =>
    cases b with
    | nan => cases ab
    | infinity t => exact ab
    | finite q =>
      rw [intCast_eq, intCast_eq, finite_add, finite_add, le_finite, decide_eq_true_eq]
      rw [le_finite, decide_eq_true_eq] at ab
      exact add_le_add (Int.cast_le.mpr le) ab

/-! ## Reading a number -/

/-- White space and line terminators, which `Number(text)` strips. -/
def isSpace (c : Char) : Bool :=
  [9, 10, 11, 12, 13, 32, 160, 5760, 8232, 8233, 8239, 8287, 12288, 65279].contains c.toNat ||
    (8192 ≤ c.toNat && c.toNat ≤ 8202)

def trim (text : List Char) : List Char :=
  ((text.dropWhile isSpace).reverse.dropWhile isSpace).reverse

/-- The value of a digit in bases up to sixteen. -/
def digitValue (c : Char) : Nat :=
  if c.isDigit then c.toNat - 48
  else if 'a' ≤ c ∧ c ≤ 'f' then c.toNat - 87
  else if 'A' ≤ c ∧ c ≤ 'F' then c.toNat - 55
  else 16

def radix : Char → Option Nat
  | 'x' | 'X' => some 16
  | 'o' | 'O' => some 8
  | 'b' | 'B' => some 2
  | _ => none

def parseRadix (base : Nat) (digits : List Char) : JsNumber :=
  if digits.isEmpty || digits.any (fun c => base ≤ digitValue c) then .nan
  else .finite (digits.foldl (fun n c => base * n + digitValue c) 0)

/-- The exponent part after a mantissa `m`. -/
def parseExponent (m : ℚ) : List Char → JsNumber
  | [] => .finite m
  | e :: rest =>
    if e = 'e' ∨ e = 'E' then
      let (negative, digits) := match rest with
        | '+' :: digits => (false, digits)
        | '-' :: digits => (true, digits)
        | digits => (false, digits)
      if digits.isEmpty || !digits.all Char.isDigit then .nan
      else
        let scale : ℚ := 10 ^ Nat.ofDigitChars 10 digits 0
        .finite (if negative then m / scale else m * scale)
    else .nan

def parseUnsigned (text : List Char) : JsNumber :=
  if text = ['I', 'n', 'f', 'i', 'n', 'i', 't', 'y'] then .infinity false
  else
    let whole := text.takeWhile Char.isDigit
    match text.dropWhile Char.isDigit with
    | '.' :: rest =>
      let fraction := rest.takeWhile Char.isDigit
      if whole.isEmpty && fraction.isEmpty then .nan
      else
        let m : ℚ := Nat.ofDigitChars 10 (whole ++ fraction) 0 / 10 ^ fraction.length
        parseExponent m (rest.dropWhile Char.isDigit)
    | rest => if whole.isEmpty then .nan else parseExponent (Nat.ofDigitChars 10 whole 0) rest

def parseDecimal : List Char → JsNumber
  | '+' :: text => parseUnsigned text
  | '-' :: text => neg (parseUnsigned text)
  | text => parseUnsigned text

/-- `Number(text)`. -/
def parse (text : List Char) : JsNumber :=
  match trim text with
  | [] => 0
  | '0' :: c :: digits =>
    match radix c with
    | some base => parseRadix base digits
    | none => parseDecimal ('0' :: c :: digits)
  | trimmed => parseDecimal trimmed

/-! ## Writing a number -/

/-- The digits of an integer, with its sign. -/
def integerText : Int → List Char
  | .ofNat n => Nat.toDigits 10 n
  | .negSucc n => '-' :: Nat.toDigits 10 (n + 1)

/-- Decimal places of a fraction below one, at most `fuel` of them. -/
def decimalPlaces : Nat → ℚ → List Char
  | 0, _ => []
  | fuel + 1, f =>
    if f = 0 then []
    else Nat.digitChar ⌊f * 10⌋.toNat :: decimalPlaces fuel (f * 10 - ⌊f * 10⌋)

/-- A digit with its fraction, if there is one, and an exponent, such as `1.2e+21`. -/
def scientificText (d : Char) (fraction exponent : List Char) : List Char :=
  d :: ((if fraction = [] then [] else '.' :: fraction) ++ 'e' :: '+' :: exponent)

/-- The significant digits of a large number with its exponent. -/
def exponentText (n : Nat) : List Char :=
  let digits := Nat.toDigits 10 n
  match digits.rdropWhile (· = '0') with
  | [] => digits
  | d :: fraction => scientificText d fraction (Nat.toDigits 10 (digits.length - 1))

/-- The text of a natural number: all its digits below `10^21`. -/
def naturalText (n : Nat) : List Char :=
  if n < 10 ^ 21 then Nat.toDigits 10 n else exponentText n

/-- `n.toString()`.  A fraction is written with at most seventeen places. -/
def text : JsNumber → List Char
  | .nan => ['N', 'a', 'N']
  | .infinity s => (if s then ['-'] else []) ++ ['I', 'n', 'f', 'i', 'n', 'i', 't', 'y']
  | .finite q =>
    if q.isInt then (if q < 0 then ['-'] else []) ++ naturalText q.num.natAbs
    else
      (if q < 0 then ['-'] else []) ++ integerText ⌊|q|⌋ ++
        '.' :: decimalPlaces 17 (|q| - ⌊|q|⌋)

/-- `text.padStart(width, c)`. -/
def padStart (width : Nat) (c : Char) (text : List Char) : List Char :=
  List.replicate (width - text.length) c ++ text

theorem text_natCast (n : Nat) : text (.finite n) = naturalText n := by
  have whole : (n : ℚ).isInt = true := by simp [Rat.isInt]
  have nonneg : ¬ (n : ℚ) < 0 := not_lt.mpr n.cast_nonneg
  simp only [text, whole, if_true, if_neg nonneg, Rat.num_natCast, Int.natAbs_natCast,
    List.nil_append]

theorem not_isSpace_of_isDigit {c : Char} (digit : c.isDigit = true) : isSpace c = false := by
  have bounds : 48 ≤ c.toNat ∧ c.toNat ≤ 57 := Char.isDigit_iff_toNat.mp digit
  simp only [isSpace, List.contains_eq_mem, List.mem_cons, List.not_mem_nil, or_false,
    Bool.or_eq_false_iff, decide_eq_false_iff_not, Bool.and_eq_false_imp, decide_eq_true_eq]
  omega

theorem trim_eq_self {text : List Char} (solid : ∀ c ∈ text, isSpace c = false) :
    trim text = text := by
  have front : ∀ {l : List Char}, (∀ c ∈ l, isSpace c = false) → l.dropWhile isSpace = l := by
    intro l all
    cases l with
    | nil => rfl
    | cons c cs => simp [all c (by simp)]
  rw [trim, front solid, front (by simpa using solid), List.reverse_reverse]

theorem radix_eq_none_of_isDigit {c : Char} (digit : c.isDigit = true) : radix c = none := by
  unfold radix
  split <;> first | rfl | (revert digit; decide)

/-- A text that begins with a digit is read as a decimal unless a radix follows. -/
theorem parse_of_digit {d : Char} {rest : List Char} (digit : d.isDigit = true)
    (solid : ∀ c ∈ d :: rest, isSpace c = false)
    (decimal : ∀ c ∈ rest.head?, radix c = none) :
    parse (d :: rest) = parseUnsigned (d :: rest) := by
  have unsigned : parseDecimal (d :: rest) = parseUnsigned (d :: rest) := by
    unfold parseDecimal
    split
    · rename_i same
      cases same
      exact absurd digit (by decide)
    · rename_i same
      cases same
      exact absurd digit (by decide)
    · rfl
  unfold parse
  rw [trim_eq_self solid]
  split
  · rename_i same
    cases same
  · rename_i c cs same
    cases same
    rw [decimal c rfl]
    exact unsigned
  · exact unsigned

/-- A text of digits only is read as the number it writes. -/
theorem parse_digits {text : List Char} (nonempty : text ≠ [])
    (digits : ∀ c ∈ text, c.isDigit = true) :
    parse text = .finite (Nat.ofDigitChars 10 text 0 : Nat) := by
  have unsigned : parseUnsigned text = .finite (Nat.ofDigitChars 10 text 0 : Nat) := by
    have notInfinity : text ≠ ['I', 'n', 'f', 'i', 'n', 'i', 't', 'y'] := by
      rintro rfl
      exact absurd (digits 'I' (by simp)) (by decide)
    have take : text.takeWhile Char.isDigit = text := List.takeWhile_eq_self_iff.mpr digits
    have drop : text.dropWhile Char.isDigit = [] := List.dropWhile_eq_nil_iff.mpr digits
    have filled : text.isEmpty = false := by simpa using nonempty
    simp only [parseUnsigned, if_neg notInfinity, take, drop, filled, parseExponent,
      Bool.false_eq_true, if_false]
  obtain ⟨d, rest, rfl⟩ := List.exists_cons_of_ne_nil nonempty
  rw [parse_of_digit (digits d (by simp)), unsigned]
  · intro c member
    exact not_isSpace_of_isDigit (digits c member)
  · intro c member
    exact radix_eq_none_of_isDigit (digits c
      (List.mem_cons_of_mem _ (List.mem_of_mem_head? member)))

theorem mem_scientificText {c d : Char} {fraction exponent : List Char}
    (member : c ∈ scientificText d fraction exponent) :
    c ∈ d :: fraction ∨ c ∈ exponent ∨ c ∈ ['.', 'e', '+'] := by
  simp only [scientificText, List.mem_cons, List.mem_append] at member ⊢
  rcases member with first | point | mark | mark | last
  · exact .inl (.inl first)
  · split at point
    · cases point
    · rcases List.mem_cons.mp point with mark | place
      · exact .inr (.inr (.inl mark))
      · exact .inl (.inr place)
  · exact .inr (.inr (.inr (.inl mark)))
  · exact .inr (.inr (.inr (.inr (.inl mark))))
  · exact .inr (.inl last)

/-- The digits before the first other character. -/
theorem span_digits {c : Char} (stop : c.isDigit = false) {digits : List Char}
    (all : ∀ c ∈ digits, c.isDigit = true) (rest : List Char) :
    (digits ++ c :: rest).takeWhile Char.isDigit = digits ∧
      (digits ++ c :: rest).dropWhile Char.isDigit = c :: rest := by
  simp [List.takeWhile_append_of_pos all, List.dropWhile_append_of_pos all, stop]

theorem parse_scientificText {d : Char} {fraction exponent : List Char}
    (digits : ∀ c ∈ d :: fraction, c.isDigit = true) (exponents : ∀ c ∈ exponent, c.isDigit = true)
    (nonempty : exponent ≠ []) :
    parse (scientificText d fraction exponent) =
      .finite ((Nat.ofDigitChars 10 (d :: fraction) 0 : Nat) / 10 ^ fraction.length *
        10 ^ Nat.ofDigitChars 10 exponent 0) := by
  have digit : d.isDigit = true := digits d (by simp)
  have one : ∀ c ∈ [d], c.isDigit = true := by simpa using digit
  have solid : ∀ c ∈ scientificText d fraction exponent, isSpace c = false := by
    intro c member
    rcases mem_scientificText member with member | member | member
    · exact not_isSpace_of_isDigit (digits c member)
    · exact not_isSpace_of_isDigit (exponents c member)
    · simp only [List.mem_cons, List.not_mem_nil, or_false] at member
      rcases member with rfl | rfl | rfl <;> decide
  have notInfinity : ∀ {rest : List Char},
      d :: rest ≠ ['I', 'n', 'f', 'i', 'n', 'i', 't', 'y'] := by
    intro rest same
    cases same
    exact absurd digit (by decide)
  have scaled : ∀ m : ℚ, parseExponent m ('e' :: '+' :: exponent) =
      .finite (m * 10 ^ Nat.ofDigitChars 10 exponent 0) := by
    intro m
    have filled : exponent.isEmpty = false := by simpa using nonempty
    simp [parseExponent, filled, List.all_eq_true.mpr exponents]
  unfold scientificText at solid ⊢
  rw [parse_of_digit digit solid]
  · by_cases empty : fraction = []
    · subst empty
      obtain ⟨whole, rest⟩ := span_digits (c := 'e') (by decide) one ('+' :: exponent)
      simp only [List.cons_append, List.nil_append] at whole rest
      simp [parseUnsigned, notInfinity, whole, rest, scaled]
    · obtain ⟨whole, rest⟩ := span_digits (c := '.') (by decide) one
        (fraction ++ 'e' :: '+' :: exponent)
      obtain ⟨places, tail⟩ := span_digits (c := 'e') (by decide)
        (fun c member => digits c (List.mem_cons_of_mem d member)) ('+' :: exponent)
      simp only [List.cons_append, List.nil_append] at whole rest
      simp [parseUnsigned, notInfinity, if_neg empty, whole, rest, places, tail, scaled]
  · intro c member
    split at member <;> (cases member; decide)

theorem isDigit_of_mem_toDigits {n : Nat} {c : Char} (member : c ∈ Nat.toDigits 10 n) :
    c.isDigit = true := Nat.isDigit_of_mem_toDigits (by decide) (by decide) member

/-- The significant digits are digits of the number. -/
theorem isDigit_of_significant {n : Nat} {d : Char} {fraction : List Char}
    (significant : (Nat.toDigits 10 n).rdropWhile (· = '0') = d :: fraction) :
    ∀ c ∈ d :: fraction, c.isDigit = true := by
  intro c member
  rw [← significant] at member
  exact isDigit_of_mem_toDigits ((List.rdropWhile_prefix _ _).subset member)

/-- The zeros behind the significant digits are what the exponent stands for. -/
theorem parse_exponentText {n : Nat} (positive : 0 < n) : parse (exponentText n) = .finite n := by
  have whole : (Nat.toDigits 10 n).rdropWhile (· = '0') ++
      (Nat.toDigits 10 n).rtakeWhile (· = '0') = Nat.toDigits 10 n :=
    List.rdropWhile_append_rtakeWhile
  have zeros : ∃ k, (Nat.toDigits 10 n).rtakeWhile (· = '0') = List.replicate k '0' := by
    refine ⟨_, List.eq_replicate_of_mem ?_⟩
    intro c member
    simpa using List.mem_rtakeWhile_imp member
  obtain ⟨k, zeros⟩ := zeros
  have value : Nat.ofDigitChars 10 (Nat.toDigits 10 n) 0 = n := Nat.ofDigitChars_ten_toDigits
  rw [← whole, zeros, Nat.ofDigitChars_append, Nat.ofDigitChars_replicate_zero] at value
  cases significant : (Nat.toDigits 10 n).rdropWhile (· = '0') with
  | nil =>
    rw [significant, Nat.ofDigitChars_nil] at value
    omega
  | cons d fraction =>
    rw [significant] at value
    have exponent : (Nat.toDigits 10 n).length - 1 = fraction.length + k := by
      rw [← whole, significant, zeros]
      simp only [List.length_append, List.length_cons, List.length_replicate]
      omega
    have nonzero : (10 : ℚ) ^ fraction.length ≠ 0 := by positivity
    simp only [exponentText, significant]
    rw [parse_scientificText (isDigit_of_significant significant) (fun c => isDigit_of_mem_toDigits)
      Nat.toDigits_ne_nil, Nat.ofDigitChars_ten_toDigits, exponent, pow_add, ← mul_assoc,
      div_mul_cancel₀ _ nonzero, mul_comm]
    exact congrArg _ (by exact_mod_cast value)

theorem three_le_length_exponentText {n : Nat} (long : 3 ≤ (Nat.toDigits 10 n).length) :
    3 ≤ (exponentText n).length := by
  simp only [exponentText]
  split
  · exact long
  · simp only [scientificText, List.length_cons, List.length_append]
    omega

/-- A padded number is read back as the number it writes. -/
theorem parse_padStart_naturalText (n : Nat) :
    parse (padStart 2 '0' (naturalText n)) = .finite n := by
  unfold naturalText
  split
  · rw [parse_digits, padStart, Nat.ofDigitChars_append, Nat.ofDigitChars_replicate_zero,
      Nat.mul_zero, Nat.ofDigitChars_ten_toDigits]
    · simp [padStart, Nat.toDigits_ne_nil]
    · intro c member
      rcases List.mem_append.mp member with member | member
      · rw [List.eq_of_mem_replicate member]
        decide
      · exact isDigit_of_mem_toDigits member
  · rename_i large
    have long : ¬ (Nat.toDigits 10 n).length ≤ 21 := by
      rw [Nat.length_toDigits_le_iff (by decide) (by decide)]
      exact large
    have filled : 3 ≤ (exponentText n).length := three_le_length_exponentText (by omega)
    have unpadded : 2 - (exponentText n).length = 0 := by omega
    rw [padStart, unpadded, List.replicate_zero, List.nil_append, parse_exponentText (by omega)]

theorem colon_not_mem_naturalText (n : Nat) : ':' ∉ naturalText n := by
  have noDigit : ¬ Char.isDigit ':' = true := by decide
  intro member
  unfold naturalText exponentText at member
  split at member
  · exact noDigit (isDigit_of_mem_toDigits member)
  · dsimp only at member
    split at member
    · exact noDigit (isDigit_of_mem_toDigits member)
    · rename_i significant
      rcases mem_scientificText member with member | member | member
      · exact noDigit (isDigit_of_significant significant _ member)
      · exact noDigit (isDigit_of_mem_toDigits member)
      · exact absurd member (by decide)

end JsNumber

end Js
