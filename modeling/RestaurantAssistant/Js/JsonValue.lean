import RestaurantAssistant.Js.Json

/-!
# JSON values

`JSON.stringify` and `JSON.parse` for nested values.  `parse` reads the whole grammar:
white space between the tokens, every escape of a string, fractions and exponents.

A value whose numbers are whole and whose objects have no field twice is read back from
its text (`parse_stringify`).  The reader is given the nesting it may go into; the text's
own length is enough.

The fields of an object keep the order they are written in, and a field that is written
again keeps its place.  An escape for half of a surrogate pair stands for no Unicode
scalar value and is not read.
-/

namespace Js

inductive JsonValue
  | null
  | bool (b : Bool)
  | number (q : ℚ)
  | string (s : String)
  | array (items : List JsonValue)
  | object (fields : List (String × JsonValue))

namespace JsonValue

/-! ## Writing -/

mutual

def text : JsonValue → List Char
  | .null => ['n', 'u', 'l', 'l']
  | .bool true => ['t', 'r', 'u', 'e']
  | .bool false => ['f', 'a', 'l', 's', 'e']
  | .number q => JsNumber.text (.finite q)
  | .string s => Json.stringText s
  | .array [] => ['[', ']']
  | .array (item :: rest) => '[' :: (text item ++ itemsText rest)
  | .object [] => ['{', '}']
  | .object (field :: rest) =>
    '{' :: (Json.stringText field.1 ++ ':' :: (text field.2 ++ fieldsText rest))

/-- The items after the first one, and the closing bracket. -/
def itemsText : List JsonValue → List Char
  | [] => [']']
  | item :: rest => ',' :: (text item ++ itemsText rest)

/-- The fields after the first one, and the closing brace. -/
def fieldsText : List (String × JsonValue) → List Char
  | [] => ['}']
  | field :: rest => ',' :: (Json.stringText field.1 ++ ':' :: (text field.2 ++ fieldsText rest))

end

/-- `Boolean(value)`. -/
def truthy : JsonValue → Bool
  | .null => false
  | .bool b => b
  | .number q => q != 0
  | .string s => s != ""
  | .array _ => true
  | .object _ => true

/-- `JSON.stringify(value)`. -/
def stringify (value : JsonValue) : String := String.ofList value.text

/-! ## Reading -/

/-- The white space of the grammar. -/
def isSpace (c : Char) : Bool := c.toNat = 32 || c.toNat = 9 || c.toNat = 10 || c.toNat = 13

def skipSpace (text : List Char) : List Char := text.dropWhile isSpace

/-- A character of a number. -/
def isNumberChar (c : Char) : Bool :=
  c.isDigit || c == '-' || c == '+' || c == '.' || c == 'e' || c == 'E'

/-- An exponent, or nothing. -/
def isExponent : List Char → Bool
  | [] => true
  | e :: rest =>
    let digits := match rest with
      | '+' :: digits => digits
      | '-' :: digits => digits
      | digits => digits
    (e == 'e' || e == 'E') && !digits.isEmpty && digits.all Char.isDigit

/-- A number without its sign: no zero in front of another digit. -/
def isUnsigned (token : List Char) : Bool :=
  let whole := token.takeWhile Char.isDigit
  let plain := whole == ['0'] || (!whole.isEmpty && whole.head? != some '0')
  match token.dropWhile Char.isDigit with
  | '.' :: rest =>
    plain && !(rest.takeWhile Char.isDigit).isEmpty && isExponent (rest.dropWhile Char.isDigit)
  | rest => plain && isExponent rest

def isNumber : List Char → Bool
  | '-' :: token => isUnsigned token
  | token => isUnsigned token

def readNumber (text : List Char) : Option (JsonValue × List Char) :=
  let token := text.takeWhile isNumberChar
  if isNumber token then
    match JsNumber.parse token with
    | .finite q => some (.number q, text.dropWhile isNumberChar)
    | _ => none
  else none

/-- The code of four hexadecimal digits. -/
def hexCode (digits : List Char) : Option Nat :=
  if digits.all fun c => JsNumber.digitValue c < 16 then
    some (digits.foldl (fun n c => 16 * n + JsNumber.digitValue c) 0)
  else none

/-- The character of an escape other than `\u`. -/
def escaped (c : Char) : Option Char :=
  if c = Json.quote ∨ c = Json.backslash ∨ c = '/' then some c
  else if c = 'b' then some (Char.ofNat 8)
  else if c = 't' then some (Char.ofNat 9)
  else if c = 'n' then some (Char.ofNat 10)
  else if c = 'f' then some (Char.ofNat 12)
  else if c = 'r' then some (Char.ofNat 13)
  else none

/-- The characters up to the closing quote. -/
def readChars : List Char → Option (List Char × List Char)
  | [] => none
  | c :: rest =>
    if c = Json.quote then some ([], rest)
    else if c = Json.backslash then
      match rest with
      | 'u' :: h₁ :: h₂ :: h₃ :: h₄ :: rest =>
        match hexCode [h₁, h₂, h₃, h₄] with
        | none => none
        | some code =>
          if code < 55296 ∨ 57344 ≤ code then
            (readChars rest).map fun r => (Char.ofNat code :: r.1, r.2)
          else
            -- the first half of a pair, and the second one right behind it
            match rest with
            | b :: 'u' :: l₁ :: l₂ :: l₃ :: l₄ :: rest =>
              match hexCode [l₁, l₂, l₃, l₄] with
              | none => none
              | some low =>
                if b = Json.backslash ∧ code < 56320 ∧ 56320 ≤ low ∧ low < 57344 then
                  (readChars rest).map fun r =>
                    (Char.ofNat (65536 + 1024 * (code - 55296) + (low - 56320)) :: r.1, r.2)
                else none
            | _ => none
      | e :: rest =>
        match escaped e with
        | some d => (readChars rest).map fun r => (d :: r.1, r.2)
        | none => none
      | [] => none
    else if c.toNat < 32 then none
    else (readChars rest).map fun r => (c :: r.1, r.2)

/-- A name in quotes. -/
def readString : List Char → Option (String × List Char)
  | [] => none
  | c :: rest =>
    if c = Json.quote then (readChars rest).map fun r => (String.ofList r.1, r.2) else none

/-- `null`, `true` or `false`. -/
def readWord (text : List Char) : Option (JsonValue × List Char) :=
  match text with
  | 'n' :: 'u' :: 'l' :: 'l' :: rest => some (.null, rest)
  | 't' :: 'r' :: 'u' :: 'e' :: rest => some (.bool true, rest)
  | 'f' :: 'a' :: 'l' :: 's' :: 'e' :: rest => some (.bool false, rest)
  | _ => none

/-- Give the object a field, in the place of one of the same name. -/
def setField (fields : List (String × JsonValue)) (field : String × JsonValue) :
    List (String × JsonValue) :=
  if fields.any fun f => f.1 = field.1 then
    fields.map fun f => if f.1 = field.1 then field else f
  else fields ++ [field]

mutual

/-- A value and what is left of the text. -/
def readValue : Nat → List Char → Option (JsonValue × List Char)
  | 0, _ => none
  | fuel + 1, text =>
    match skipSpace text with
    | [] => none
    | c :: rest =>
      if c = '[' then
        if (skipSpace rest).head? = some ']' then some (.array [], (skipSpace rest).tail)
        else (readItems fuel rest).map fun r => (.array r.1, r.2)
      else if c = '{' then
        if (skipSpace rest).head? = some '}' then some (.object [], (skipSpace rest).tail)
        else (readFields fuel rest).map fun r => (.object (r.1.foldl setField []), r.2)
      else if c = Json.quote then (readString (c :: rest)).map fun r => (.string r.1, r.2)
      else if isNumberChar c && c != 'e' && c != 'E' then readNumber (c :: rest)
      else readWord (c :: rest)

/-- The items up to the closing bracket. -/
def readItems : Nat → List Char → Option (List JsonValue × List Char)
  | 0, _ => none
  | fuel + 1, text =>
    match readValue fuel text with
    | none => none
    | some (item, rest) =>
      match skipSpace rest with
      | [] => none
      | c :: rest =>
        if c = ']' then some ([item], rest)
        else if c = ',' then (readItems fuel rest).map fun r => (item :: r.1, r.2)
        else none

/-- The fields up to the closing brace. -/
def readFields : Nat → List Char → Option (List (String × JsonValue) × List Char)
  | 0, _ => none
  | fuel + 1, text =>
    match readString (skipSpace text) with
    | none => none
    | some (name, rest) =>
      if (skipSpace rest).head? = some ':' then
        match readValue fuel (skipSpace rest).tail with
        | none => none
        | some (value, rest) =>
          match skipSpace rest with
          | [] => none
          | c :: rest =>
            if c = '}' then some ([(name, value)], rest)
            else if c = ',' then (readFields fuel rest).map fun r => ((name, value) :: r.1, r.2)
            else none
      else none

end

/-- `JSON.parse(text)`, with `none` for a `SyntaxError`. -/
def parse (text : String) : Option JsonValue :=
  match readValue (2 * text.toList.length + 2) text.toList with
  | some (value, rest) => if skipSpace rest = [] then some value else none
  | none => none

/-! ## Reading strings back -/

theorem hexCode_control : ∀ n < 32,
    hexCode ['0', '0', Nat.digitChar (n / 16), Nat.digitChar (n % 16)] = some n := by decide

theorem readChars_unicode {a b c d : Char} {code : Nat} (rest : List Char)
    (hex : hexCode [a, b, c, d] = some code) (scalar : code < 55296) :
    readChars (Json.backslash :: 'u' :: a :: b :: c :: d :: rest) =
      (readChars rest).map fun r => (Char.ofNat code :: r.1, r.2) := by
  have notQuote : Json.backslash ≠ Json.quote := by decide
  rw [readChars, if_neg notQuote, if_pos rfl]
  simp only [hex, if_pos (Or.inl scalar : code < 55296 ∨ 57344 ≤ code)]

theorem readChars_escapeChar (c : Char) (rest : List Char) :
    readChars (Json.escapeChar c ++ rest) = (readChars rest).map fun r => (c :: r.1, r.2) := by
  by_cases control : c.toNat < 32
  · obtain ⟨n, code⟩ : ∃ n, n = c.toNat := ⟨_, rfl⟩
    have char : c = Char.ofNat n := by rw [code, Char.ofNat_toNat]
    rw [← code] at control
    subst char
    clear code
    -- five of them have an escape of their own
    interval_cases n <;>
      first
        | rfl
        | exact readChars_unicode rest (hexCode_control _ (by decide)) (by decide)
  · by_cases special : c = Json.quote ∨ c = Json.backslash
    · rcases special with rfl | rfl <;> rfl
    · have plain : Json.escapeChar c = [c] := by
        unfold Json.escapeChar
        rw [if_neg special, if_neg (by omega), if_neg (by omega), if_neg (by omega),
          if_neg (by omega), if_neg (by omega), if_neg control]
      have notQuote : c ≠ Json.quote := fun same => special (.inl same)
      have notEscape : c ≠ Json.backslash := fun same => special (.inr same)
      rw [plain, List.singleton_append, readChars.eq_def]
      simp only [notQuote, notEscape, control, if_false]

theorem readString_stringText (s : String) (rest : List Char) :
    readString (Json.stringText s ++ rest) = some (s, rest) := by
  have chars : ∀ l : List Char,
      readChars (l.flatMap Json.escapeChar ++ Json.quote :: rest) = some (l, rest) := by
    intro l
    induction l with
    | nil =>
      rw [List.flatMap_nil, List.nil_append, readChars.eq_def]
      rfl
    | cons c cs ih =>
      rw [List.flatMap_cons, List.append_assoc, readChars_escapeChar, ih, Option.map_some]
  have body : Json.stringText s ++ rest =
      Json.quote :: (s.toList.flatMap Json.escapeChar ++ Json.quote :: rest) := by
    simp [Json.stringText]
  rw [body, readString, if_pos rfl, chars, Option.map_some, String.ofList_toList]

/-! ## Reading whole numbers back -/

/-- The text after a number does not go on with it. -/
def NumberEnds (rest : List Char) : Prop := ∀ c ∈ rest.head?, isNumberChar c = false

theorem isNumberChar_of_isDigit {c : Char} (digit : c.isDigit = true) : isNumberChar c = true := by
  simp [isNumberChar, digit]

theorem head_toDigits {n : Nat} (positive : 0 < n) : (Nat.toDigits 10 n).head? ≠ some '0' := by
  induction n using Nat.strongRecOn with
  | ind n ih =>
    by_cases small : n < 10
    · rw [Nat.toDigits_of_lt_base small]
      interval_cases n <;> decide
    · rw [Nat.toDigits_of_base_le (by decide) (by omega),
        List.head?_append_of_ne_nil _ Nat.toDigits_ne_nil]
      exact ih (n / 10) (by omega) (by omega)

/-- A text of digits that does not begin with a zero is a number. -/
theorem isUnsigned_toDigits (n : Nat) : isUnsigned (Nat.toDigits 10 n) = true := by
  have digits : ∀ c ∈ Nat.toDigits 10 n, c.isDigit = true := by
    intro c member
    exact JsNumber.isDigit_of_mem_toDigits member
  have whole : (Nat.toDigits 10 n).takeWhile Char.isDigit = Nat.toDigits 10 n :=
    List.takeWhile_eq_self_iff.mpr digits
  have rest : (Nat.toDigits 10 n).dropWhile Char.isDigit = [] :=
    List.dropWhile_eq_nil_iff.mpr digits
  have filled : (Nat.toDigits 10 n).isEmpty = false := by simp [Nat.toDigits_ne_nil]
  unfold isUnsigned
  simp only [whole, rest, isExponent, Bool.and_true]
  rcases Nat.eq_zero_or_pos n with rfl | positive
  · decide
  · simp [filled, head_toDigits positive]

/-- What a large number's text is made of. -/
theorem exponentText_cases {n : Nat} (positive : 0 < n) :
    ∃ d fraction exponent, JsNumber.exponentText n = JsNumber.scientificText d fraction exponent ∧
      d ≠ '0' ∧ (∀ c ∈ d :: fraction, c.isDigit = true) ∧
      (∀ c ∈ exponent, c.isDigit = true) ∧ exponent ≠ [] := by
  cases significant : (Nat.toDigits 10 n).rdropWhile (· = '0') with
  | nil =>
    -- the first digit is not a zero
    obtain ⟨d, rest, digits⟩ := List.exists_cons_of_ne_nil (Nat.toDigits_ne_nil (n := n) (b := 10))
    have zeros := List.rdropWhile_eq_nil_iff.mp significant
    have zero := zeros d (by rw [digits]; exact List.mem_cons_self)
    have first := head_toDigits positive
    rw [digits] at first
    exact absurd (congrArg some (by simpa using zero)) first
  | cons d fraction =>
    refine ⟨d, fraction, Nat.toDigits 10 ((Nat.toDigits 10 n).length - 1), ?_, ?_, ?_, ?_, ?_⟩
    · simp only [JsNumber.exponentText, significant]
    · rintro rfl
      obtain ⟨zeros, whole⟩ := List.rdropWhile_prefix (· = '0') (l := Nat.toDigits 10 n)
      rw [significant] at whole
      have first := head_toDigits positive
      rw [← whole] at first
      exact first rfl
    · exact JsNumber.isDigit_of_significant significant
    · intro c member
      exact JsNumber.isDigit_of_mem_toDigits member
    · exact Nat.toDigits_ne_nil

theorem isUnsigned_scientificText {d : Char} {fraction exponent : List Char} (nonzero : d ≠ '0')
    (digits : ∀ c ∈ d :: fraction, c.isDigit = true) (exponents : ∀ c ∈ exponent, c.isDigit = true)
    (nonempty : exponent ≠ []) :
    isUnsigned (JsNumber.scientificText d fraction exponent) = true := by
  have one : ∀ c ∈ [d], c.isDigit = true := by simpa using digits d (by simp)
  have scaled : isExponent ('e' :: '+' :: exponent) = true := by
    have filled : exponent.isEmpty = false := by simpa using nonempty
    simp [isExponent, filled, List.all_eq_true.mpr exponents]
  unfold JsNumber.scientificText isUnsigned
  by_cases empty : fraction = []
  · obtain ⟨whole, rest⟩ := JsNumber.span_digits (c := 'e') (by decide) one ('+' :: exponent)
    simp only [List.cons_append, List.nil_append] at whole rest
    simp [empty, whole, rest, scaled, nonzero]
  · obtain ⟨whole, rest⟩ := JsNumber.span_digits (c := '.') (by decide) one
      (fraction ++ 'e' :: '+' :: exponent)
    obtain ⟨places, tail⟩ := JsNumber.span_digits (c := 'e') (by decide)
      (fun c member => digits c (List.mem_cons_of_mem d member)) ('+' :: exponent)
    simp only [List.cons_append, List.nil_append] at whole rest
    simp [empty, whole, rest, places, tail, scaled, nonzero]

theorem isUnsigned_naturalText (n : Nat) : isUnsigned (JsNumber.naturalText n) = true := by
  unfold JsNumber.naturalText
  split
  · exact isUnsigned_toDigits n
  · obtain ⟨d, fraction, exponent, same, nonzero, digits, exponents, nonempty⟩ :=
      exponentText_cases (n := n) (by omega)
    rw [same]
    exact isUnsigned_scientificText nonzero digits exponents nonempty

theorem isNumberChar_of_mem_naturalText {n : Nat} {c : Char}
    (member : c ∈ JsNumber.naturalText n) : isNumberChar c = true := by
  unfold JsNumber.naturalText at member
  split at member
  · exact isNumberChar_of_isDigit (JsNumber.isDigit_of_mem_toDigits member)
  · obtain ⟨d, fraction, exponent, same, -, digits, exponents, -⟩ :=
      exponentText_cases (n := n) (by omega)
    rw [same] at member
    rcases JsNumber.mem_scientificText member with member | member | member
    · exact isNumberChar_of_isDigit (digits c member)
    · exact isNumberChar_of_isDigit (exponents c member)
    · simp only [List.mem_cons, List.not_mem_nil, or_false] at member
      rcases member with rfl | rfl | rfl <;> decide

/-- A natural number's text begins with a digit. -/
theorem naturalText_eq_cons (n : Nat) :
    ∃ d rest, JsNumber.naturalText n = d :: rest ∧ d.isDigit = true := by
  unfold JsNumber.naturalText
  split
  · obtain ⟨d, rest, same⟩ := List.exists_cons_of_ne_nil (Nat.toDigits_ne_nil (n := n) (b := 10))
    refine ⟨d, rest, same, JsNumber.isDigit_of_mem_toDigits (n := n) ?_⟩
    rw [same]
    exact List.mem_cons_self
  · obtain ⟨d, fraction, exponent, same, -, digits, -⟩ := exponentText_cases (n := n) (by omega)
    exact ⟨d, _, same, digits d List.mem_cons_self⟩

theorem not_isSpace_of_isNumberChar {c : Char} (number : isNumberChar c = true) :
    JsNumber.isSpace c = false ∧ JsNumber.radix c = none := by
  simp only [isNumberChar, Bool.or_eq_true, beq_iff_eq] at number
  rcases number with ((((digit | rfl) | rfl) | rfl) | rfl) | rfl
  · exact ⟨JsNumber.not_isSpace_of_isDigit digit, JsNumber.radix_eq_none_of_isDigit digit⟩
  all_goals exact ⟨by decide, rfl⟩

theorem parse_naturalText (n : Nat) : JsNumber.parse (JsNumber.naturalText n) = .finite n := by
  unfold JsNumber.naturalText
  split
  · rw [JsNumber.parse_digits Nat.toDigits_ne_nil fun c => JsNumber.isDigit_of_mem_toDigits,
      Nat.ofDigitChars_ten_toDigits]
  · exact JsNumber.parse_exponentText (by omega)

/-- A sign in front of a natural number's text. -/
theorem parse_neg_naturalText (n : Nat) :
    JsNumber.parse ('-' :: JsNumber.naturalText n) = .finite (-n) := by
  obtain ⟨d, rest, same, digit⟩ := naturalText_eq_cons n
  have solid : ∀ c ∈ d :: rest, isNumberChar c = true := by
    intro c member
    rw [← same] at member
    exact isNumberChar_of_mem_naturalText member
  have unsigned := parse_naturalText n
  rw [same, JsNumber.parse_of_digit digit (fun c member =>
    (not_isSpace_of_isNumberChar (solid c member)).1) (fun c member =>
      (not_isSpace_of_isNumberChar (solid c (List.mem_cons_of_mem d
        (List.mem_of_mem_head? member)))).2)] at unsigned
  have trimmed : JsNumber.trim ('-' :: d :: rest) = '-' :: d :: rest := by
    refine JsNumber.trim_eq_self ?_
    intro c member
    rcases List.mem_cons.mp member with rfl | member
    · decide
    · exact (not_isSpace_of_isNumberChar (solid c member)).1
  rw [same, JsNumber.parse, trimmed]
  change JsNumber.neg (JsNumber.parseUnsigned (d :: rest)) = _
  rw [unsigned]
  rfl

theorem text_intCast (n : Int) :
    JsNumber.text (.finite n) = if n < 0 then '-' :: JsNumber.naturalText n.natAbs
      else JsNumber.naturalText n.natAbs := by
  have whole : (n : ℚ).isInt = true := by simp [Rat.isInt]
  have sign : (n : ℚ) < 0 ↔ n < 0 := by exact_mod_cast Iff.rfl
  simp only [JsNumber.text, whole, if_true, Rat.num_intCast, sign]
  split <;> rfl

theorem takeWhile_token {token rest : List Char} (all : ∀ c ∈ token, isNumberChar c = true)
    (ends : NumberEnds rest) :
    (token ++ rest).takeWhile isNumberChar = token ∧
      (token ++ rest).dropWhile isNumberChar = rest := by
  rw [List.takeWhile_append_of_pos all, List.dropWhile_append_of_pos all]
  cases rest with
  | nil => simp
  | cons c cs =>
    have stop := ends c rfl
    simp [stop]

theorem readNumber_text (n : Int) {rest : List Char} (ends : NumberEnds rest) :
    readNumber (JsNumber.text (.finite n) ++ rest) = some (.number n, rest) := by
  have chars : ∀ c ∈ JsNumber.text (.finite n), isNumberChar c = true := by
    intro c member
    rw [text_intCast] at member
    split at member
    · rcases List.mem_cons.mp member with rfl | member
      · decide
      · exact isNumberChar_of_mem_naturalText member
    · exact isNumberChar_of_mem_naturalText member
  have number : isNumber (JsNumber.text (.finite n)) = true := by
    rw [text_intCast]
    split
    · exact isUnsigned_naturalText n.natAbs
    · obtain ⟨d, tail, same, digit⟩ := naturalText_eq_cons n.natAbs
      have unsigned := isUnsigned_naturalText n.natAbs
      rw [same] at unsigned ⊢
      unfold isNumber
      split
      · rename_i sign
        cases sign
        exact absurd digit (by decide)
      · exact unsigned
  have value : JsNumber.parse (JsNumber.text (.finite n)) = .finite n := by
    rw [text_intCast]
    split
    · rw [parse_neg_naturalText]
      congr 1
      have abs : (n.natAbs : Int) = -n := by omega
      rw [← Int.cast_natCast, abs, Int.cast_neg, neg_neg]
    · rw [parse_naturalText]
      congr 1
      have abs : (n.natAbs : Int) = n := by omega
      rw [← Int.cast_natCast, abs]
  obtain ⟨take, drop⟩ := takeWhile_token chars ends
  simp only [readNumber, take, drop, number, if_true, value]

/-! ## Reading values back -/

mutual

/-- The numbers are whole, and no object has a field twice. -/
def Plain : JsonValue → Prop
  | .null => True
  | .bool _ => True
  | .number q => q.isInt = true
  | .string _ => True
  | .array items => AllPlain items
  | .object fields => (fields.map Prod.fst).Nodup ∧ FieldsPlain fields

def AllPlain : List JsonValue → Prop
  | [] => True
  | item :: rest => Plain item ∧ AllPlain rest

def FieldsPlain : List (String × JsonValue) → Prop
  | [] => True
  | field :: rest => Plain field.2 ∧ FieldsPlain rest

end

theorem allPlain_iff {items : List JsonValue} : AllPlain items ↔ ∀ item ∈ items, Plain item := by
  induction items with
  | nil => simp [AllPlain]
  | cons item rest ih => simp [AllPlain, ih]

theorem skipSpace_cons {c : Char} (solid : isSpace c = false) (rest : List Char) :
    skipSpace (c :: rest) = c :: rest := by
  simp [skipSpace, solid]

theorem isSpace_of_isNumberChar {c : Char} (number : isNumberChar c = true) :
    isSpace c = false := by
  simp only [isNumberChar, Bool.or_eq_true, beq_iff_eq] at number
  rcases number with ((((digit | rfl) | rfl) | rfl) | rfl) | rfl
  · have low : 48 ≤ c.toNat := by
      simp only [Char.isDigit, Bool.and_eq_true, decide_eq_true_eq] at digit
      exact digit.1
    simp only [isSpace, Bool.or_eq_false_iff, decide_eq_false_iff_not]
    omega
  all_goals decide

/-- The first character of a whole number. -/
theorem text_intCast_eq_cons (n : Int) :
    ∃ c cs, JsNumber.text (.finite n) = c :: cs ∧ (c.isDigit = true ∨ c = '-') := by
  rw [text_intCast]
  split
  · exact ⟨'-', _, rfl, .inr rfl⟩
  · obtain ⟨d, rest, same, digit⟩ := naturalText_eq_cons n.natAbs
    exact ⟨d, rest, same, .inl digit⟩

/-- A value's text begins with a character that opens it. -/
theorem text_eq_cons {value : JsonValue} (plain : Plain value) :
    ∃ c cs, text value = c :: cs ∧ isSpace c = false ∧ c ≠ ']' := by
  cases value with
  | null => exact ⟨'n', _, by rw [text], by decide, by decide⟩
  | bool b => cases b <;> exact ⟨_, _, by rw [text], by decide, by decide⟩
  | number q =>
    rw [Plain] at plain
    rw [text, Rat.eq_num_of_isInt plain]
    obtain ⟨c, cs, same, first⟩ := text_intCast_eq_cons q.num
    refine ⟨c, cs, same, isSpace_of_isNumberChar ?_, ?_⟩
    · rcases first with digit | rfl
      · exact isNumberChar_of_isDigit digit
      · decide
    · rintro rfl
      revert first
      decide
  | string s => exact ⟨Json.quote, _, by rw [text]; rfl, by decide, by decide⟩
  | array items => cases items <;> exact ⟨'[', _, by rw [text], by decide, by decide⟩
  | object fields => cases fields <;> exact ⟨'{', _, by rw [text], by decide, by decide⟩

theorem itemsText_eq_cons (items : List JsonValue) :
    ∃ c cs, itemsText items = c :: cs ∧ isSpace c = false ∧ isNumberChar c = false := by
  cases items <;> exact ⟨_, _, by rw [itemsText], by decide, by decide⟩

theorem fieldsText_eq_cons (fields : List (String × JsonValue)) :
    ∃ c cs, fieldsText fields = c :: cs ∧ isSpace c = false ∧ isNumberChar c = false := by
  cases fields <;> exact ⟨_, _, by rw [fieldsText], by decide, by decide⟩

theorem numberEnds_itemsText (items : List JsonValue) (rest : List Char) :
    NumberEnds (itemsText items ++ rest) := by
  obtain ⟨c, cs, same, -, ends⟩ := itemsText_eq_cons items
  intro d first
  rw [same] at first
  cases first
  exact ends

theorem numberEnds_fieldsText (fields : List (String × JsonValue)) (rest : List Char) :
    NumberEnds (fieldsText fields ++ rest) := by
  obtain ⟨c, cs, same, -, ends⟩ := fieldsText_eq_cons fields
  intro d first
  rw [same] at first
  cases first
  exact ends

/-- Fields of different names are set one behind the other. -/
theorem foldl_setField (fields : List (String × JsonValue)) :
    ∀ seen : List (String × JsonValue), ((seen ++ fields).map Prod.fst).Nodup →
      fields.foldl setField seen = seen ++ fields := by
  induction fields with
  | nil =>
    intro seen _
    rw [List.foldl_nil, List.append_nil]
  | cons field rest ih =>
    intro seen distinct
    have absent : (seen.any fun f => f.1 = field.1) = false := by
      rw [List.map_append, List.map_cons] at distinct
      have apart := (List.nodup_append.mp distinct).2.2
      simp only [List.any_eq_false, decide_eq_true_eq]
      intro f member same
      exact apart f.1 (List.mem_map_of_mem member) field.1 List.mem_cons_self same
    have shifted : seen ++ field :: rest = (seen ++ [field]) ++ rest := by simp
    rw [shifted] at distinct ⊢
    rw [List.foldl_cons, setField, absent, if_neg (by decide)]
    exact ih (seen ++ [field]) distinct

/-- A digit or a sign sends the reader to the number. -/
theorem if_number {α : Type} {c : Char} (opens : c.isDigit = true ∨ c = '-')
    (array object string number word : α) :
    (if c = '[' then array
      else if c = '{' then object
      else if c = Json.quote then string
      else if (isNumberChar c && c != 'e' && c != 'E') = true then number
      else word) = number := by
  have apart : ∀ d : Char, d.isDigit = false → d ≠ '-' → c ≠ d := by
    rintro d other notSign rfl
    rcases opens with digit | rfl
    · rw [digit] at other
      cases other
    · exact notSign rfl
  have opening : isNumberChar c = true := by
    rcases opens with digit | rfl
    · exact isNumberChar_of_isDigit digit
    · decide
  have small := apart 'e' (by decide) (by decide)
  have capital := apart 'E' (by decide) (by decide)
  rw [if_neg (apart '[' (by decide) (by decide)), if_neg (apart '{' (by decide) (by decide)),
    if_neg (apart Json.quote (by decide) (by decide)), if_pos (by simp [opening, small, capital])]

mutual

/-- A value is read back from its text, whatever stands behind it. -/
theorem readValue_text (value : JsonValue) (plain : Plain value) (fuel : Nat)
    (enough : 2 * (text value).length ≤ fuel) {rest : List Char} (ends : NumberEnds rest) :
    readValue fuel (text value ++ rest) = some (value, rest) := by
  obtain ⟨c, cs, same, solid, -⟩ := text_eq_cons plain
  obtain ⟨more, rfl⟩ : ∃ more, fuel = more + 1 := by
    rw [same, List.length_cons] at enough
    exact ⟨fuel - 1, by omega⟩
  have skipped : skipSpace (text value ++ rest) = text value ++ rest := by
    rw [same]
    exact skipSpace_cons solid _
  rw [readValue, skipped]
  cases value with
  | null => rw [text]; rfl
  | bool b => cases b <;> (rw [text]; rfl)
  | number q =>
    rw [Plain] at plain
    obtain ⟨d, ds, first, opens⟩ := text_intCast_eq_cons q.num
    have read := readNumber_text q.num ends
    rw [text, Rat.eq_num_of_isInt plain]
    rw [first, List.cons_append] at read ⊢
    exact (if_number opens _ _ _ _ _).trans read
  | string s =>
    have read := readString_stringText s rest
    have body : Json.stringText s ++ rest =
        Json.quote :: (s.toList.flatMap Json.escapeChar ++ Json.quote :: rest) := by
      simp [Json.stringText]
    rw [text]
    rw [body] at read ⊢
    have notBracket : Json.quote ≠ '[' ∧ Json.quote ≠ '{' := by decide
    simp only [notBracket.1, notBracket.2, if_false, if_true, read, Option.map_some]
  | array items =>
    cases items with
    | nil => rw [text]; rfl
    | cons item items =>
      rw [Plain, AllPlain] at plain
      rw [text, List.length_cons, List.length_append] at enough
      have read := readItems_text item items plain.1 plain.2 more (by omega) rest
      obtain ⟨d, ds, first, gap, apart⟩ := text_eq_cons plain.1
      have filled : (skipSpace (text item ++ (itemsText items ++ rest))).head? ≠ some ']' := by
        rw [first, List.cons_append, skipSpace_cons gap]
        simpa using apart
      rw [text, List.cons_append, List.append_assoc]
      simp only [if_true, filled, if_false, read, Option.map_some]
  | object fields =>
    cases fields with
    | nil => rw [text]; rfl
    | cons field fields =>
      rw [Plain, FieldsPlain] at plain
      rw [text, List.length_cons, List.length_append, List.length_cons,
        List.length_append] at enough
      have read := readFields_text field fields plain.2.1 plain.2.2 more (by omega) rest
      have filled : (skipSpace (Json.stringText field.1 ++
          ':' :: (text field.2 ++ (fieldsText fields ++ rest)))).head? ≠ some '}' := by
        rw [Json.stringText, List.cons_append, skipSpace_cons (by decide), List.head?_cons]
        decide
      have notBracket : '{' ≠ '[' := by decide
      rw [text, List.cons_append, List.append_assoc, List.cons_append, List.append_assoc]
      simp only [notBracket, if_true, filled, if_false, read, Option.map_some,
        foldl_setField (field :: fields) [] plain.1, List.nil_append]
termination_by fuel

theorem readItems_text (item : JsonValue) (items : List JsonValue) (plain : Plain item)
    (others : AllPlain items) (fuel : Nat)
    (enough : 2 * ((text item).length + (itemsText items).length) ≤ fuel) (rest : List Char) :
    readItems fuel (text item ++ (itemsText items ++ rest)) = some (item :: items, rest) := by
  obtain ⟨c, cs, closing, solid, -⟩ := itemsText_eq_cons items
  have long : 0 < (itemsText items).length := by rw [closing]; exact Nat.succ_pos _
  obtain ⟨more, rfl⟩ : ∃ more, fuel = more + 1 := ⟨fuel - 1, by omega⟩
  have read := readValue_text item plain more (by omega) (numberEnds_itemsText items rest)
  rw [readItems, read]
  cases items with
  | nil => rw [itemsText]; rfl
  | cons next items =>
    rw [AllPlain] at others
    rw [itemsText, List.length_cons, List.length_append] at enough
    have tail := readItems_text next items others.1 others.2 more (by omega) rest
    have notBracket : ',' ≠ ']' := by decide
    rw [itemsText, List.cons_append, List.append_assoc]
    simp only [skipSpace_cons (show isSpace ',' = false by decide), notBracket, if_false, if_true,
      tail, Option.map_some]
termination_by fuel

theorem readFields_text (field : String × JsonValue) (fields : List (String × JsonValue))
    (plain : Plain field.2) (others : FieldsPlain fields) (fuel : Nat)
    (enough : 2 * ((text field.2).length + (fieldsText fields).length) ≤ fuel) (rest : List Char) :
    readFields fuel (Json.stringText field.1 ++
        ':' :: (text field.2 ++ (fieldsText fields ++ rest))) = some (field :: fields, rest) := by
  obtain ⟨c, cs, closing, solid, -⟩ := fieldsText_eq_cons fields
  have long : 0 < (fieldsText fields).length := by rw [closing]; exact Nat.succ_pos _
  obtain ⟨more, rfl⟩ : ∃ more, fuel = more + 1 := ⟨fuel - 1, by omega⟩
  have name := readString_stringText field.1 (':' :: (text field.2 ++ (fieldsText fields ++ rest)))
  have read := readValue_text field.2 plain more (by omega) (numberEnds_fieldsText fields rest)
  have solidName : skipSpace (Json.stringText field.1 ++
        ':' :: (text field.2 ++ (fieldsText fields ++ rest))) = Json.stringText field.1 ++
        ':' :: (text field.2 ++ (fieldsText fields ++ rest)) := by
    rw [Json.stringText, List.cons_append]
    exact skipSpace_cons (by decide) _
  rw [readFields, solidName, name]
  simp only [skipSpace_cons (show isSpace ':' = false by decide), List.head?_cons, if_true,
    List.tail_cons, read]
  cases fields with
  | nil => rw [fieldsText]; rfl
  | cons next fields =>
    rw [FieldsPlain] at others
    rw [fieldsText, List.length_cons, List.length_append, List.length_cons,
      List.length_append] at enough
    have tail := readFields_text next fields others.1 others.2 more (by omega) rest
    have notBrace : ',' ≠ '}' := by decide
    rw [fieldsText, List.cons_append, List.append_assoc, List.cons_append, List.append_assoc,
      skipSpace_cons (by decide)]
    simp only [notBrace, if_false, if_true, tail, Option.map_some]
termination_by fuel

end

theorem parse_stringify {value : JsonValue} (plain : Plain value) :
    parse (stringify value) = some value := by
  have ends : NumberEnds [] := by
    intro c first
    cases first
  have read := readValue_text value plain (2 * (text value).length + 2) (by omega) ends
  rw [List.append_nil] at read
  rw [parse, stringify, String.toList_ofList, read]
  rfl

end JsonValue

end Js
