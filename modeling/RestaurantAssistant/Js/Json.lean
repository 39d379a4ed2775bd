import Mathlib.Tactic.IntervalCases
import RestaurantAssistant.Js.Number

/-!
# JSON texts

`JSON.stringify` for what GraphQL hands over as an input argument: nothing
(`undefined`), `null`, or a flat object of nulls, integers and strings in field
order.  A text of such an argument tells where it ends, whatever follows it:
`argText_prefixFree`.

Text is a sequence of Unicode scalar values; the escapes of lone surrogates do
not occur.
-/

namespace Js

/-- An argument or field a client may leave out or give as `null`. -/
inductive Arg (α : Type)
  | undefined
  | null
  | given (a : α)
  deriving DecidableEq

namespace Arg

variable {α β : Type}

def map (f : α → β) : Arg α → Arg β
  | .undefined => .undefined
  | .null => .null
  | .given a => .given (f a)

/-- The value, if there is one: what `??` tests for. -/
def toOption : Arg α → Option α
  | .given a => some a
  | _ => none

/-- A check that is skipped for `undefined` and `null`. -/
def optional (check : α → Bool) : Arg α → Bool
  | .given a => check a
  | _ => true

/-- The text, if it is given and not empty: what `if (text)` tests for. -/
def text : Arg String → Option String
  | .given s => if s = "" then none else some s
  | _ => none

theorem text_eq_some {arg : Arg String} {s : String} :
    arg.text = some s ↔ arg = .given s ∧ s ≠ "" := by
  cases arg with
  | undefined => simp [text]
  | null => simp [text]
  | given t =>
    simp only [text, Arg.given.injEq]
    split
    · rename_i empty
      refine iff_of_false nofun ?_
      intro same
      exact same.2 (same.1.symm.trans empty)
    · rename_i nonempty
      rw [Option.some.injEq]
      exact ⟨fun same => ⟨same, same ▸ nonempty⟩, And.left⟩

theorem text_given_eq_none {s : String} : (Arg.given s).text = none ↔ s = "" := by
  simp [text]

/-- The number, if it is given and not zero: what `if (n)` tests for. -/
def nonzero : Arg Int → Option Int
  | .given n => if n = 0 then none else some n
  | _ => none

/-- A property after `Object.assign`: a given value replaces it, also by `null`. -/
def assign (old : α) : Arg α → Option α
  | .undefined => some old
  | .null => none
  | .given new => some new

/-- A property that holds of the old value and of every value that passes the
check holds of the assigned one. -/
theorem of_assign {P : α → Prop} {check : α → Bool} {arg : Arg α} {old new : α}
    (assigned : arg.assign old = some new) (checked : arg.optional check = true) (before : P old)
    (valid : ∀ a, check a = true → P a) : P new := by
  cases arg with
  | undefined =>
    cases assigned
    exact before
  | null => cases assigned
  | given a =>
    cases assigned
    exact valid new checked

/-- The property if a `null` leaves it alone. -/
def overlay (old : α) : Arg α → α
  | .given new => new
  | _ => old

theorem overlay_comm {x y : Arg α} (old : α) (one : x = .undefined ∨ y = .undefined) :
    y.overlay (x.overlay old) = x.overlay (y.overlay old) := by
  rcases one with rfl | rfl
  · rfl
  · rfl

theorem map_injective {f : α → β} (inj : Function.Injective f) :
    Function.Injective (Arg.map f) := by
  intro a b same
  cases a <;> cases b <;> simp only [map, reduceCtorEq, given.injEq] at same ⊢
  exact inj same

end Arg

inductive JsonScalar
  | null
  | number (n : Int)
  | string (s : String)
  deriving DecidableEq

/-- The fields of an object, in order. -/
abbrev JsonObject := List (String × JsonScalar)

/-- What a field contributes to an object. -/
def Arg.toScalar {α : Type} (scalar : α → JsonScalar) : Arg α → Option JsonScalar
  | .undefined => none
  | .null => some .null
  | .given a => some (scalar a)

theorem Arg.toScalar_injective {α : Type} {scalar : α → JsonScalar}
    (inj : Function.Injective scalar) (notNull : ∀ a, scalar a ≠ .null) :
    Function.Injective (Arg.toScalar scalar) := by
  intro a b same
  cases a <;> cases b <;> simp only [toScalar, reduceCtorEq, Option.some.injEq, given.injEq]
    at same ⊢
  · exact notNull _ same.symm
  · exact notNull _ same
  · exact inj same

/-- A string field is read back from what it contributes. -/
theorem Arg.string_injective : Function.Injective (Arg.toScalar JsonScalar.string) :=
  Arg.toScalar_injective (fun _ _ same => JsonScalar.string.inj same) fun _ same => by cases same

theorem Arg.number_injective : Function.Injective (Arg.toScalar JsonScalar.number) :=
  Arg.toScalar_injective (fun _ _ same => JsonScalar.number.inj same) fun _ same => by cases same

namespace Json

/-- The double quote. -/
def quote : Char := Char.ofNat 34

/-- The backslash. -/
def backslash : Char := Char.ofNat 92

/-! ## Writing -/

def escapeChar (c : Char) : List Char :=
  if c = quote ∨ c = backslash then [backslash, c]
  else if c.toNat = 8 then [backslash, 'b']
  else if c.toNat = 9 then [backslash, 't']
  else if c.toNat = 10 then [backslash, 'n']
  else if c.toNat = 12 then [backslash, 'f']
  else if c.toNat = 13 then [backslash, 'r']
  else if c.toNat < 32 then
    [backslash, 'u', '0', '0', Nat.digitChar (c.toNat / 16), Nat.digitChar (c.toNat % 16)]
  else [c]

def stringText (s : String) : List Char :=
  quote :: (s.toList.flatMap escapeChar ++ [quote])

def scalarText : JsonScalar → List Char
  | .null => ['n', 'u', 'l', 'l']
  | .number n => JsNumber.integerText n
  | .string s => stringText s

def fieldText (field : String × JsonScalar) : List Char :=
  stringText field.1 ++ ':' :: scalarText field.2

/-- The fields after the first one, and the closing brace. -/
def closingText : JsonObject → List Char
  | [] => ['}']
  | field :: rest => ',' :: (fieldText field ++ closingText rest)

def objectText : JsonObject → List Char
  | [] => ['{', '}']
  | field :: rest => '{' :: (fieldText field ++ closingText rest)

/-- The argument as `${JSON.stringify(arg)}` prints it. -/
def argText : Arg JsonObject → List Char
  | .undefined => ['u', 'n', 'd', 'e', 'f', 'i', 'n', 'e', 'd']
  | .null => ['n', 'u', 'l', 'l']
  | .given object => objectText object

end Json

/-! ## Texts that tell where they end -/

/-- No text of the code is confused with another one, whatever follows. -/
def PrefixFree {α : Type} (text : α → List Char) : Prop :=
  ∀ ⦃a b : α⦄ ⦃r s : List Char⦄, text a ++ r = text b ++ s → a = b ∧ r = s

/-- A code with a decoder is prefix free. -/
theorem PrefixFree.of_decoder {α : Type} {text : α → List Char}
    (decode : List Char → Option (α × List Char))
    (decodes : ∀ a r, decode (text a ++ r) = some (a, r)) : PrefixFree text := by
  intro a b r s same
  have both : some (a, r) = some (b, s) := by rw [← decodes a r, same, decodes b s]
  cases both
  exact ⟨rfl, rfl⟩

/-- Items of a prefix free code up to a terminator that starts none of them. -/
theorem PrefixFree.terminated {α : Type} {text : α → List Char} {stop : Char}
    (free : PrefixFree text) (starts : ∀ a, ∃ c cs, text a = c :: cs ∧ c ≠ stop) :
    PrefixFree fun l : List α => l.flatMap text ++ [stop] := by
  intro l
  induction l with
  | nil =>
    intro m r s same
    cases m with
    | nil => simpa using same
    | cons b bs =>
      obtain ⟨c, cs, head, ne⟩ := starts b
      simp only [List.flatMap_nil, List.nil_append, List.flatMap_cons, head, List.cons_append,
        List.cons.injEq] at same
      exact absurd same.1.symm ne
  | cons a as ih =>
    intro m r s same
    cases m with
    | nil =>
      obtain ⟨c, cs, head, ne⟩ := starts a
      simp only [List.flatMap_nil, List.nil_append, List.flatMap_cons, head, List.cons_append,
        List.cons.injEq] at same
      exact absurd same.1 ne
    | cons b bs =>
      simp only [List.flatMap_cons, List.append_assoc] at same
      obtain ⟨rfl, tail⟩ := free same
      have remaining : as.flatMap text ++ [stop] ++ r = bs.flatMap text ++ [stop] ++ s := by
        simpa using tail
      obtain ⟨rfl, after⟩ := ih remaining
      exact ⟨rfl, after⟩

/-- Up to the first character outside a class, a text of that class is
determined. -/
theorem append_cons_inj_of_class {p : Char → Bool} {l m r s : List Char} {c d : Char}
    (same : l ++ c :: r = m ++ d :: s) (inL : ∀ x ∈ l, p x = true) (inM : ∀ x ∈ m, p x = true)
    (outC : p c = false) (outD : p d = false) : l = m ∧ c :: r = d :: s := by
  have take := congrArg (List.takeWhile p) same
  rw [List.takeWhile_append_of_pos inL, List.takeWhile_append_of_pos inM,
    List.takeWhile_cons_of_neg (by simp [outC]), List.takeWhile_cons_of_neg (by simp [outD]),
    List.append_nil, List.append_nil] at take
  subst take
  exact ⟨rfl, List.append_cancel_left same⟩

namespace Json

/-- Read one escaped character. -/
def unescape : List Char → Option (Char × List Char)
  | [] => none
  | c :: rest =>
    if c = backslash then
      match rest with
      | 'b' :: rest => some (Char.ofNat 8, rest)
      | 't' :: rest => some (Char.ofNat 9, rest)
      | 'n' :: rest => some (Char.ofNat 10, rest)
      | 'f' :: rest => some (Char.ofNat 12, rest)
      | 'r' :: rest => some (Char.ofNat 13, rest)
      | 'u' :: _ :: _ :: a :: b :: rest =>
        some (Char.ofNat (16 * JsNumber.digitValue a + JsNumber.digitValue b), rest)
      | c :: rest => some (c, rest)
      | [] => none
    else some (c, rest)

theorem unescape_escapeChar (c : Char) (rest : List Char) :
    unescape (escapeChar c ++ rest) = some (c, rest) := by
  by_cases control : c.toNat < 32
  · obtain ⟨n, code⟩ : ∃ n, n = c.toNat := ⟨_, rfl⟩
    have char : c = Char.ofNat n := by rw [code, Char.ofNat_toNat]
    rw [← code] at control
    subst char
    clear code
    interval_cases n <;> rfl
  · by_cases special : c = quote ∨ c = backslash
    · rcases special with rfl | rfl <;> rfl
    · have plain : escapeChar c = [c] := by
        unfold escapeChar
        rw [if_neg special, if_neg (by omega), if_neg (by omega), if_neg (by omega),
          if_neg (by omega), if_neg (by omega), if_neg control]
      have notEscape : c ≠ backslash := fun same => special (.inr same)
      rw [plain]
      exact if_neg notEscape

theorem escapeChar_starts (c : Char) : ∃ d ds, escapeChar c = d :: ds ∧ d ≠ quote := by
  have escape : backslash ≠ quote := by decide
  unfold escapeChar
  split
  · exact ⟨_, _, rfl, escape⟩
  · rename_i plain
    repeat' split
    all_goals first
      | exact ⟨_, _, rfl, escape⟩
      | exact ⟨_, _, rfl, fun same => plain (.inl same)⟩

theorem stringText_prefixFree : PrefixFree stringText := by
  intro a b r s same
  have body : (a.toList.flatMap escapeChar ++ [quote]) ++ r =
      (b.toList.flatMap escapeChar ++ [quote]) ++ s := by
    simpa only [stringText, List.cons_append, List.cons.injEq, true_and] using same
  obtain ⟨chars, rest⟩ :=
    (PrefixFree.of_decoder unescape unescape_escapeChar).terminated escapeChar_starts body
  exact ⟨String.toList_inj.mp chars, rest⟩

/-- The characters of an integer. -/
def isIntegerChar (c : Char) : Bool := c.isDigit || c == '-'

theorem isIntegerChar_of_mem {n : Int} {c : Char} (member : c ∈ JsNumber.integerText n) :
    isIntegerChar c = true := by
  have digit : ∀ m : Nat, c ∈ Nat.toDigits 10 m → isIntegerChar c = true := by
    intro m member
    simp [isIntegerChar, Nat.isDigit_of_mem_toDigits (by decide) (by decide) member]
  cases n with
  | ofNat m => exact digit m member
  | negSucc m =>
    rcases List.mem_cons.mp member with rfl | member
    · rfl
    · exact digit _ member

theorem toDigits_injective : Function.Injective (Nat.toDigits 10) := by
  intro a b same
  rw [← Nat.ofDigitChars_ten_toDigits (n := a), same, Nat.ofDigitChars_ten_toDigits]

theorem integerText_injective : Function.Injective JsNumber.integerText := by
  have notMinus : ∀ m n : Nat, Nat.toDigits 10 m ≠ '-' :: Nat.toDigits 10 n := by
    intro m n same
    have member : '-' ∈ Nat.toDigits 10 m := by
      rw [same]
      exact List.mem_cons_self
    exact absurd (Nat.isDigit_of_mem_toDigits (by decide) (by decide) member) (by decide)
  intro a b same
  cases a with
  | ofNat a =>
    cases b with
    | ofNat b => exact congrArg Int.ofNat (toDigits_injective same)
    | negSucc b => exact absurd same (notMinus a _)
  | negSucc a =>
    cases b with
    | ofNat b => exact absurd same.symm (notMinus b _)
    | negSucc b =>
      have digits := toDigits_injective (List.cons.inj same).2
      exact congrArg Int.negSucc (Nat.succ.inj digits)

/-- A scalar is determined up to the comma or brace after it. -/
theorem scalarText_inj {a b : JsonScalar} {c d : Char} {r s : List Char}
    (outC : isIntegerChar c = false) (outD : isIntegerChar d = false)
    (same : scalarText a ++ c :: r = scalarText b ++ d :: s) : a = b ∧ c :: r = d :: s := by
  -- an integer begins with one of its own characters, `null` and a string do not
  have numberHead : ∀ {n : Int} {x : Char} {r s : List Char}, isIntegerChar x = false →
      JsNumber.integerText n ++ r ≠ x :: s := by
    intro n x r s outX same
    have nonempty : JsNumber.integerText n ≠ [] := by
      cases n <;> simp [JsNumber.integerText, Nat.toDigits_ne_nil]
    obtain ⟨y, ys, text⟩ := List.exists_cons_of_ne_nil nonempty
    have inY := isIntegerChar_of_mem (n := n) (c := y) (by rw [text]; exact List.mem_cons_self)
    rw [text, List.cons_append, List.cons.injEq] at same
    rw [same.1, outX] at inY
    cases inY
  cases a with
  | null =>
    cases b with
    | null => simpa [scalarText] using same
    | number n => exact absurd same.symm (numberHead (by decide))
    | string t => exact absurd (List.cons.inj same).1 (by decide)
  | number n =>
    cases b with
    | null => exact absurd same (numberHead (by decide))
    | number m =>
      obtain ⟨text, rest⟩ := append_cons_inj_of_class same
        (fun _ => isIntegerChar_of_mem) (fun _ => isIntegerChar_of_mem) outC outD
      exact ⟨congrArg _ (integerText_injective text), rest⟩
    | string t => exact absurd same (numberHead (by decide))
  | string t =>
    cases b with
    | null => exact absurd (List.cons.inj same).1 (by decide)
    | number n => exact absurd same.symm (numberHead (by decide))
    | string u =>
      obtain ⟨rfl, rest⟩ := stringText_prefixFree same
      exact ⟨rfl, rest⟩

theorem closingText_starts (object : JsonObject) :
    ∃ c r, closingText object = c :: r ∧ isIntegerChar c = false := by
  cases object with
  | nil => exact ⟨_, _, rfl, by decide⟩
  | cons field rest => exact ⟨_, _, rfl, by decide⟩

/-- A field is determined up to the closing text after it. -/
theorem fieldText_inj {f g : String × JsonScalar} {o o' : JsonObject} {r s : List Char}
    (same : fieldText f ++ (closingText o ++ r) = fieldText g ++ (closingText o' ++ s)) :
    f = g ∧ closingText o ++ r = closingText o' ++ s := by
  obtain ⟨c, cs, head, outC⟩ := closingText_starts o
  obtain ⟨d, ds, head', outD⟩ := closingText_starts o'
  rw [head, head'] at same ⊢
  simp only [fieldText, List.append_assoc, List.cons_append] at same
  obtain ⟨name, rest⟩ := stringText_prefixFree same
  obtain ⟨value, rest⟩ := scalarText_inj outC outD (List.cons.inj rest).2
  exact ⟨Prod.ext name value, rest⟩

theorem closingText_prefixFree : PrefixFree closingText := by
  intro o
  induction o with
  | nil =>
    intro o' r s same
    cases o' with
    | nil => simpa [closingText] using same
    | cons g rest => exact absurd (List.cons.inj same).1 (by decide)
  | cons f rest ih =>
    intro o' r s same
    cases o' with
    | nil => exact absurd (List.cons.inj same).1 (by decide)
    | cons g rest' =>
      simp only [closingText, List.cons_append, List.append_assoc, List.cons.injEq,
        true_and] at same
      obtain ⟨rfl, tail⟩ := fieldText_inj same
      obtain ⟨rfl, after⟩ := ih tail
      exact ⟨rfl, after⟩

theorem objectText_prefixFree : PrefixFree objectText := by
  intro o o' r s same
  cases o with
  | nil =>
    cases o' with
    | nil => simpa [objectText] using same
    | cons g rest => exact absurd (List.cons.inj (List.cons.inj same).2).1 (by decide)
  | cons f rest =>
    cases o' with
    | nil => exact absurd (List.cons.inj (List.cons.inj same).2).1 (by decide)
    | cons g rest' =>
      simp only [objectText, List.cons_append, List.append_assoc, List.cons.injEq, true_and] at same
      obtain ⟨rfl, tail⟩ := fieldText_inj same
      obtain ⟨rfl, after⟩ := closingText_prefixFree tail
      exact ⟨rfl, after⟩

/-- The printed argument tells whether it was absent, `null` or an object,
which object, and where it ends. -/
theorem argText_prefixFree : PrefixFree argText := by
  have head : ∀ o : JsonObject, ∃ cs, objectText o = '{' :: cs := by
    intro o
    cases o with
    | nil => exact ⟨_, rfl⟩
    | cons f rest => exact ⟨_, rfl⟩
  intro a b r s same
  cases a with
  | undefined =>
    cases b with
    | undefined => simpa [argText] using same
    | null => exact absurd (List.cons.inj same).1 (by decide)
    | given o =>
      obtain ⟨cs, text⟩ := head o
      rw [argText, argText, text] at same
      exact absurd (List.cons.inj same).1 (by decide)
  | null =>
    cases b with
    | undefined => exact absurd (List.cons.inj same).1 (by decide)
    | null => simpa [argText] using same
    | given o =>
      obtain ⟨cs, text⟩ := head o
      rw [argText, argText, text] at same
      exact absurd (List.cons.inj same).1 (by decide)
  | given o =>
    cases b with
    | undefined =>
      obtain ⟨cs, text⟩ := head o
      rw [argText, argText, text] at same
      exact absurd (List.cons.inj same).1 (by decide)
    | null =>
      obtain ⟨cs, text⟩ := head o
      rw [argText, argText, text] at same
      exact absurd (List.cons.inj same).1 (by decide)
    | given o' =>
      obtain ⟨rfl, rest⟩ := objectText_prefixFree same
      exact ⟨rfl, rest⟩

end Json

end Js
