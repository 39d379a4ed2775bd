import RestaurantAssistant.Js.Number

/-!
# JavaScript dates

A `Date` holds a time value: the milliseconds since the epoch, at most
`maxTime` on either side of it, or `NaN` when the date is invalid.  Every UTC day
has `86400000` of them, so that the UTC fields are read by floor division.

The setters follow the language's own steps: the fields make a time (`makeTime`),
the day of the date and the time make a new time value (`makeDate`), and
`timeClip` makes it invalid beyond the range.
-/

namespace Js

/-- The largest time value. -/
def maxTime : Int := 8640000000000000

/-- A time value of a valid date. -/
@[ext] structure Instant where
  ms : Int
  inRange : -maxTime ≤ ms ∧ ms ≤ maxTime
  deriving DecidableEq

/-- A `Date`, with `none` for an invalid one. -/
abbrev JsDate := Option Instant

namespace JsNumber

/-- The integer part, towards zero. -/
def truncate (q : ℚ) : Int := if 0 ≤ q then ⌊q⌋ else ⌈q⌉

@[simp] theorem truncate_intCast (n : Int) : truncate n = n := by
  unfold truncate
  split
  · exact Int.floor_intCast n
  · exact Int.ceil_intCast n

theorem truncate_inRange {q : ℚ} (range : -(maxTime : ℚ) ≤ q ∧ q ≤ maxTime) :
    -maxTime ≤ truncate q ∧ truncate q ≤ maxTime := by
  unfold truncate
  split
  · have lower : (0 : Int) ≤ ⌊q⌋ := Int.floor_nonneg.mpr ‹0 ≤ q›
    have upper : ⌊q⌋ ≤ maxTime := by exact_mod_cast (Int.floor_le q).trans range.2
    unfold maxTime at *
    omega
  · have upper : ⌈q⌉ ≤ maxTime := Int.ceil_le.mpr range.2
    have lower : -maxTime ≤ ⌈q⌉ := by
      have below : ((-maxTime : Int) : ℚ) ≤ ⌈q⌉ := by
        push_cast
        exact range.1.trans (Int.le_ceil q)
      exact_mod_cast below
    exact ⟨lower, upper⟩

end JsNumber

/-! ## Time values -/

/-- A time value within the range, and an invalid date beyond it. -/
def timeClip : JsNumber → JsDate
  | .finite q =>
    if range : -(maxTime : ℚ) ≤ q ∧ q ≤ maxTime then
      some ⟨JsNumber.truncate q, JsNumber.truncate_inRange range⟩
    else none
  | _ => none

def makeTime : (hour min sec ms : JsNumber) → JsNumber
  | .finite hour, .finite min, .finite sec, .finite ms =>
    .finite (JsNumber.truncate hour * 3600000 + JsNumber.truncate min * 60000 +
      JsNumber.truncate sec * 1000 + JsNumber.truncate ms : Int)
  | _, _, _, _ => .nan

def makeDate (day : Int) (time : JsNumber) : JsNumber :=
  .finite (day * 86400000 : Int) + time

namespace Instant

def day (t : Instant) : Int := t.ms / 86400000

def hourFromTime (t : Instant) : Int := t.ms / 3600000 % 24

def minFromTime (t : Instant) : Int := t.ms / 60000 % 60

end Instant

/-! ## Getters and setters -/

namespace JsDate

def getUTCHours : JsDate → JsNumber
  | some t => t.hourFromTime
  | none => .nan

def getUTCMinutes : JsDate → JsNumber
  | some t => t.minFromTime
  | none => .nan

def setUTCHours (date : JsDate) (hour min sec ms : JsNumber) : JsDate :=
  date.bind fun t => timeClip (makeDate t.day (makeTime hour min sec ms))

def setUTCMinutes (date : JsDate) (min sec ms : JsNumber) : JsDate :=
  date.bind fun t => timeClip (makeDate t.day (makeTime t.hourFromTime min sec ms))

end JsDate

theorem timeClip_intCast {t : Int} (range : -maxTime ≤ t ∧ t ≤ maxTime) :
    timeClip (.finite t) = some ⟨t, range⟩ := by
  have bounds : -(maxTime : ℚ) ≤ t ∧ (t : ℚ) ≤ maxTime := by exact_mod_cast range
  simp only [timeClip, dif_pos bounds, JsNumber.truncate_intCast]

theorem timeClip_eq_none {t : Int} (beyond : ¬ (-maxTime ≤ t ∧ t ≤ maxTime)) :
    timeClip (.finite t) = none := by
  have outside : ¬ (-(maxTime : ℚ) ≤ t ∧ (t : ℚ) ≤ maxTime) := by exact_mod_cast beyond
  simp only [timeClip, dif_neg outside]

/-! ### Setting whole fields -/

theorem makeDate_makeTime (day hour min sec ms : Int) :
    makeDate day (makeTime hour min sec ms) =
      .finite (day * 86400000 + (hour * 3600000 + min * 60000 + sec * 1000 + ms) : Int) := by
  simp only [makeDate, makeTime, JsNumber.intCast_eq, JsNumber.truncate_intCast,
    JsNumber.finite_add, Int.cast_add]

theorem JsDate.setUTCHours_some (t : Instant) (hour min sec ms : Int) :
    JsDate.setUTCHours (some t) hour min sec ms =
      timeClip (.finite
        (t.day * 86400000 + (hour * 3600000 + min * 60000 + sec * 1000 + ms) : Int)) :=
  congrArg timeClip (makeDate_makeTime t.day hour min sec ms)

theorem JsDate.setUTCMinutes_some (t : Instant) (min sec ms : Int) :
    JsDate.setUTCMinutes (some t) min sec ms =
      timeClip (.finite
        (t.day * 86400000 + (t.hourFromTime * 3600000 + min * 60000 + sec * 1000 + ms) : Int)) :=
  congrArg timeClip (makeDate_makeTime t.day t.hourFromTime min sec ms)

end Js
