import RestaurantAssistant.Js.Number
import RestaurantAssistant.Js.Pattern

/-!
# Times of day (`utils/time.utils.ts`)

A time of day is the text `HH:mm`.  `convertToMinutes` and `convertToTime` are
the two conversions with minutes since midnight, `isValidTimeString` is the
24-hour pattern.

* `convertToMinutes_convertToTime`: reading back what was written gives the
  same number of minutes.
* `isValidTimeString_iff`: the pattern accepts exactly the texts written for
  the minutes of one day.
-/

namespace RestaurantAssistant

open Js

/-- Minutes since midnight.  `split` and `map(Number)` accept any text; without
a second part `minutes` is `undefined` and the sum is `NaN`. -/
def convertToMinutes (time : String) : JsNumber :=
  match (time.toList.splitOn ':').map JsNumber.parse with
  | hours :: minutes :: _ => hours * 60 + minutes
  | _ => .nan

/-- The text of a number of minutes since midnight. -/
def convertToTime (minutes : JsNumber) : String :=
  let hours := JsNumber.floor (minutes / 60)
  let mins := minutes % 60
  String.ofList (JsNumber.padStart 2 '0' hours.text ++ ':' :: JsNumber.padStart 2 '0' mins.text)

/-- `/^([0-1][0-9]|2[0-3]):[0-5][0-9]$/`. -/
def timeRegex : Pattern :=
  .seq
    (.alt (.seq (.chars [('0', '1')]) (.chars [('0', '9')]))
      (.seq (.char '2') (.chars [('0', '3')])))
    (.seq (.char ':') (.seq (.chars [('0', '5')]) (.chars [('0', '9')])))

def isValidTimeString (time : String) : Bool :=
  if time = "" then false else timeRegex.test time

/-! ## Writing and reading -/

/-- For a whole number of minutes the text is the padded hours, a colon and
the padded minutes. -/
theorem convertToTime_natCast (m : Nat) :
    convertToTime (.finite m) =
      String.ofList (JsNumber.padStart 2 '0' (JsNumber.naturalText (m / 60)) ++
        ':' :: JsNumber.padStart 2 '0' (JsNumber.naturalText (m % 60))) := by
  have floor : ⌊(m : ℚ) / (60 : Nat)⌋ = ((m / 60 : Nat) : Int) := Rat.floor_natCast_div_natCast m 60
  have hours : JsNumber.floor (JsNumber.finite m / 60) = .finite ((m / 60 : Nat) : ℚ) := by
    have quotient : JsNumber.finite m / 60 = .finite ((m : ℚ) / (60 : Nat)) :=
      JsNumber.finite_div (by norm_num)
    rw [quotient, JsNumber.floor_finite, floor, Int.cast_natCast]
  have mins : JsNumber.finite m % 60 = .finite ((m % 60 : Nat) : ℚ) :=
    JsNumber.natCast_mod (by decide)
  simp only [convertToTime, hours, mins, JsNumber.text_natCast]

theorem colon_not_mem_padStart (n : Nat) :
    ':' ∉ JsNumber.padStart 2 '0' (JsNumber.naturalText n) := by
  intro member
  rcases List.mem_append.mp member with member | member
  · exact absurd (List.eq_of_mem_replicate member) (by decide)
  · exact JsNumber.colon_not_mem_naturalText n member

/-- The two numbers in the text of a number of minutes. -/
theorem split_convertToTime (m : Nat) :
    ((convertToTime (.finite m)).toList.splitOn ':').map JsNumber.parse =
      [.finite (m / 60 : Nat), .finite (m % 60 : Nat)] := by
  rw [convertToTime_natCast, String.toList_ofList,
    List.splitOn_append_cons_self_of_not_mem (colon_not_mem_padStart _),
    List.splitOn_eq_singleton (colon_not_mem_padStart _)]
  simp only [List.map_cons, List.map_nil, JsNumber.parse_padStart_naturalText]

/-- Every number of minutes, also beyond one day, is read back from its text. -/
theorem convertToMinutes_convertToTime (m : Nat) :
    convertToMinutes (convertToTime (.finite m)) = .finite m := by
  have sum : ((m / 60 : Nat) : ℚ) * (60 : Nat) + (m % 60 : Nat) = m := by
    exact_mod_cast Nat.div_add_mod' m 60
  simp only [convertToMinutes, split_convertToTime, JsNumber.ofNat_eq, JsNumber.finite_mul,
    JsNumber.finite_add, sum]

/-! ## The 24-hour pattern -/

/-- The five characters of a time of day. -/
def hhmm (h m : Nat) : List Char :=
  [Nat.digitChar (h / 10), Nat.digitChar (h % 10), ':',
    Nat.digitChar (m / 10), Nat.digitChar (m % 10)]

theorem padStart_two : ∀ n < 100,
    JsNumber.padStart 2 '0' (JsNumber.naturalText n) =
      [Nat.digitChar (n / 10), Nat.digitChar (n % 10)] := by
  decide

/-- Within one day the text has its five characters. -/
theorem convertToTime_toList {m : Nat} (day : m < 1440) :
    (convertToTime (.finite m)).toList = hhmm (m / 60) (m % 60) := by
  rw [convertToTime_natCast, String.toList_ofList, padStart_two _ (by omega),
    padStart_two _ (by omega)]
  rfl

theorem eq_digitChar_of_range {c : Char} (lo hi : Nat)
    (range : 48 + lo ≤ c.toNat ∧ c.toNat ≤ 48 + hi) (decimal : hi ≤ 9) :
    ∃ d, lo ≤ d ∧ d ≤ hi ∧ c = Nat.digitChar d := by
  refine ⟨c.toNat - 48, by omega, by omega, ?_⟩
  apply Char.toNat_inj.mp
  rw [Nat.toNat_digitChar_of_lt_ten (by omega)]
  omega

theorem accepts_range {a b c : Char} :
    Pattern.accepts [(a, b)] c = true ↔ a.toNat ≤ c.toNat ∧ c.toNat ≤ b.toNat := by
  simp [Pattern.accepts]

/-- The pattern's texts, character by character. -/
theorem timeRegex_rests {text : List Char} :
    [] ∈ timeRegex.rests text ↔ ∃ h < 24, ∃ m < 60, text = hhmm h m := by
  constructor
  · intro matched
    simp only [timeRegex, Pattern.char, Pattern.mem_rests_seq, Pattern.mem_rests_alt,
      Pattern.mem_rests_chars, accepts_range] at matched
    obtain ⟨afterHours, hours, _, ⟨colon, isColon, rfl⟩, _, ⟨m₁, range₁, rfl⟩, m₂, range₂, rfl⟩ :=
      matched
    obtain rfl : colon = ':' := Char.toNat_inj.mp (by omega)
    obtain ⟨tens, _, tensLe, rfl⟩ := eq_digitChar_of_range 0 5 range₁ (by decide)
    obtain ⟨ones, _, onesLe, rfl⟩ := eq_digitChar_of_range 0 9 range₂ (by decide)
    have minutes : (10 * tens + ones) / 10 = tens ∧ (10 * tens + ones) % 10 = ones := by omega
    -- the hours are 00 to 19 in one alternative and 20 to 23 in the other
    rcases hours with ⟨_, ⟨h₁, range₁, rfl⟩, h₂, range₂, rfl⟩ |
      ⟨_, ⟨h₁, range₁, rfl⟩, h₂, range₂, rfl⟩
    · obtain ⟨a, _, aLe, rfl⟩ := eq_digitChar_of_range 0 1 range₁ (by decide)
      obtain ⟨b, _, bLe, rfl⟩ := eq_digitChar_of_range 0 9 range₂ (by decide)
      have hours : (10 * a + b) / 10 = a ∧ (10 * a + b) % 10 = b := by omega
      refine ⟨10 * a + b, by omega, 10 * tens + ones, by omega, ?_⟩
      simp only [hhmm, hours, minutes]
    · obtain ⟨a, aGe, aLe, rfl⟩ := eq_digitChar_of_range 2 2 range₁ (by decide)
      obtain ⟨b, _, bLe, rfl⟩ := eq_digitChar_of_range 0 3 range₂ (by decide)
      have hours : (10 * a + b) / 10 = a ∧ (10 * a + b) % 10 = b := by omega
      refine ⟨10 * a + b, by omega, 10 * tens + ones, by omega, ?_⟩
      simp only [hhmm, hours, minutes]
  · rintro ⟨h, hours, m, minutes, rfl⟩
    have all : ∀ h < 24, ∀ m < 60, [] ∈ timeRegex.rests (hhmm h m) := by decide +kernel
    exact all h hours m minutes

/-- The valid times are the texts of the minutes of one day. -/
theorem isValidTimeString_iff {time : String} :
    isValidTimeString time = true ↔ ∃ m < 1440, time = convertToTime (.finite (m : Nat)) := by
  have written : ∀ {h m}, h < 24 → m < 60 →
      (convertToTime (.finite (60 * h + m : Nat))).toList = hhmm h m := by
    intro h m hours minutes
    have parts : (60 * h + m) / 60 = h ∧ (60 * h + m) % 60 = m := by omega
    rw [convertToTime_toList (by omega), parts.1, parts.2]
  constructor
  · intro valid
    unfold isValidTimeString at valid
    split at valid
    · cases valid
    · obtain ⟨h, hours, m, minutes, text⟩ := timeRegex_rests.mp (Pattern.test_iff.mp valid)
      exact ⟨60 * h + m, by omega, String.toList_inj.mp (text.trans (written hours minutes).symm)⟩
  · rintro ⟨m, day, rfl⟩
    have text := convertToTime_toList day
    have nonempty : convertToTime (.finite m) ≠ "" := by
      intro empty
      rw [empty] at text
      cases text
    rw [isValidTimeString, if_neg nonempty, Pattern.test_iff, text]
    exact timeRegex_rests.mpr ⟨m / 60, by omega, m % 60, by omega, rfl⟩

/-- A valid time is read as a minute of the day. -/
theorem convertToMinutes_of_valid {time : String} (valid : isValidTimeString time = true) :
    ∃ m < 1440, convertToMinutes time = .finite (m : Nat) := by
  obtain ⟨m, day, rfl⟩ := isValidTimeString_iff.mp valid
  exact ⟨m, day, convertToMinutes_convertToTime m⟩

end RestaurantAssistant
