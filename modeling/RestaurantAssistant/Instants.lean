import RestaurantAssistant.Js.Date
import RestaurantAssistant.TimeUtils

/-!
# Times of day and half hours of a date (`utils/time.utils.ts`)

`parseTimeString` puts a time of day on the UTC day of a date, and
`roundToNearestHalfHour` decides on the minute field alone, with a carry into the
hour.  Both are compared with the arithmetic of time values: the day's first
instant plus the minutes (`parseTimeString_convertToTime`), and the nearest multiple
of half an hour (`nearestHalfHour`).
-/

namespace RestaurantAssistant

open Js

/-- The time of day on the date's UTC day, or the message of the error. -/
def parseTimeString (timeStr : String) (baseDate : JsDate) : Except String JsDate :=
  if !isValidTimeString timeStr then .error ("Invalid time string format: " ++ timeStr)
  else
    let parts := (timeStr.toList.splitOn ':').map JsNumber.parse
    let hours := parts[0]?.getD .nan
    let minutes := parts[1]?.getD .nan
    .ok (baseDate.setUTCHours hours minutes 0 0)

def roundToNearestHalfHour (date : JsDate) : JsDate :=
  let minutes := date.getUTCMinutes
  let roundedMinutes := JsNumber.round (minutes / 30) * 30
  -- rounded up to 60: the hour is incremented
  if roundedMinutes = 60 then date.setUTCHours (date.getUTCHours + 1) 0 0 0
  else date.setUTCMinutes roundedMinutes 0 0

/-! ## Half hours -/

/-- Half an hour in milliseconds. -/
def halfHour : Int := 1800000

/-- The nearest multiple of half an hour, the later one halfway.  The range ends on
one, so that it is not left. -/
def nearestHalfHour (t : Instant) : Instant where
  ms := halfHour * ((t.ms + halfHour / 2) / halfHour)
  inRange := by
    have range := t.inRange
    unfold maxTime halfHour at *
    omega

/-- The rounded minute field, as an integer. -/
theorem round_minutes (minutes : Int) :
    JsNumber.round ((minutes : JsNumber) / 30) * 30 = ((minutes + 15) / 30 * 30 : Int) := by
  have quotient : (minutes : JsNumber) / 30 = .finite ((minutes : ℚ) / (30 : Nat)) :=
    JsNumber.finite_div (by norm_num)
  have sum : (minutes : ℚ) / (30 : Nat) + 1 / 2 = ((minutes + 15 : Int) : ℚ) / (30 : Nat) := by
    push_cast
    ring
  rw [quotient, JsNumber.round_finite, sum, Rat.floor_intCast_div_natCast, JsNumber.ofNat_eq,
    JsNumber.finite_mul, JsNumber.intCast_eq]
  push_cast
  rfl

/-- The minute field decides as the whole time value does. -/
theorem roundToNearestHalfHour_some (t : Instant) :
    roundToNearestHalfHour (some t) = some (nearestHalfHour t) := by
  have range := (nearestHalfHour t).inRange
  have zero : (0 : JsNumber) = (0 : Int) := JsNumber.ofNat_eq_intCast 0
  have one : (1 : JsNumber) = (1 : Int) := JsNumber.ofNat_eq_intCast 1
  have sixty : (60 : JsNumber) = (60 : Int) := JsNumber.ofNat_eq_intCast 60
  unfold roundToNearestHalfHour
  dsimp only [JsDate.getUTCMinutes, JsDate.getUTCHours]
  rw [round_minutes, zero, sixty]
  split
  · rename_i carry
    have carried : (t.minFromTime + 15) / 30 * 30 = 60 := by
      exact_mod_cast JsNumber.finite.inj carry
    have value : t.day * 86400000 + ((t.hourFromTime + 1) * 3600000 + 0 * 60000 + 0 * 1000 + 0) =
        (nearestHalfHour t).ms := by
      unfold Instant.minFromTime at carried
      simp only [Instant.day, Instant.hourFromTime, nearestHalfHour, halfHour]
      omega
    rw [one, JsNumber.intCast_add, JsDate.setUTCHours_some, value, timeClip_intCast range]
  · rename_i kept
    have stays : (t.minFromTime + 15) / 30 * 30 ≠ 60 := by
      intro carried
      rw [carried] at kept
      exact kept rfl
    have value : t.day * 86400000 + (t.hourFromTime * 3600000 +
        (t.minFromTime + 15) / 30 * 30 * 60000 + 0 * 1000 + 0) = (nearestHalfHour t).ms := by
      unfold Instant.minFromTime at stays
      simp only [Instant.day, Instant.hourFromTime, Instant.minFromTime, nearestHalfHour, halfHour]
      omega
    rw [JsDate.setUTCMinutes_some, value, timeClip_intCast range]

/-- Rounding to the nearest half hour, the later one halfway, for every valid date.  It
moves no date by more than a quarter of an hour and keeps their order, and a rounded
date is left as it is.  Around every multiple `e` of half an hour, such as the first
instant of an hour, a day, a month or a year, it gives `e`. -/
theorem roundToNearestHalfHour_nearest (t : Instant) :
    ∃ r : Instant, roundToNearestHalfHour (some t) = some r ∧
      r.ms = halfHour * ((t.ms + halfHour / 2) / halfHour) ∧
      roundToNearestHalfHour (some r) = some r ∧
      (∀ u : Instant, t.ms ≤ u.ms →
        ∃ s : Instant, roundToNearestHalfHour (some u) = some s ∧ r.ms ≤ s.ms) ∧
      |r.ms - t.ms| ≤ 15 * 60000 ∧
      ∀ e, halfHour ∣ e → e - halfHour / 2 ≤ t.ms → t.ms < e + halfHour / 2 → r.ms = e := by
  refine ⟨nearestHalfHour t, roundToNearestHalfHour_some t, rfl, ?_, ?_, ?_, ?_⟩
  · rw [roundToNearestHalfHour_some]
    apply congrArg some
    ext
    simp only [nearestHalfHour, halfHour]
    omega
  · intro u order
    refine ⟨nearestHalfHour u, roundToNearestHalfHour_some u, ?_⟩
    simp only [nearestHalfHour, halfHour]
    omega
  · rw [abs_le]
    simp only [nearestHalfHour, halfHour]
    omega
  · rintro e ⟨k, rfl⟩ lower upper
    simp only [nearestHalfHour, halfHour] at *
    omega

/-! ## Times of a day -/

/-- The instants of one UTC day. -/
def dayLength : Int := 86400000

theorem parseTimeString_of_invalid {s : String} (invalid : isValidTimeString s = false)
    (base : JsDate) : parseTimeString s base = .error ("Invalid time string format: " ++ s) := by
  simp only [parseTimeString, invalid, Bool.not_false, if_true]

theorem parseTimeString_error_iff {s : String} {base : JsDate} :
    (∃ message, parseTimeString s base = .error message) ↔ isValidTimeString s = false := by
  constructor
  · rintro ⟨message, thrown⟩
    unfold parseTimeString at thrown
    split at thrown
    · rename_i invalid
      simpa using invalid
    · cases thrown
  · intro invalid
    exact ⟨_, parseTimeString_of_invalid invalid base⟩

theorem isValidTimeString_of_parse {s : String} {base date : JsDate}
    (read : parseTimeString s base = .ok date) : isValidTimeString s = true := by
  cases valid : isValidTimeString s with
  | true => rfl
  | false =>
    rw [parseTimeString_of_invalid valid] at read
    cases read

/-- Reading a valid time sets the minute it was written for on the date's day. -/
theorem parseTimeString_convertToTime {m : Nat} (day : m < 1440) (b : Instant) :
    parseTimeString (convertToTime (.finite m)) (some b) =
      .ok (timeClip (.finite (dayLength * (b.ms / dayLength) + 60000 * m : Int))) := by
  have valid : isValidTimeString (convertToTime (.finite m)) = true :=
    isValidTimeString_iff.mpr ⟨m, day, rfl⟩
  have zero : (0 : JsNumber) = (0 : Int) := JsNumber.ofNat_eq_intCast 0
  have whole : ∀ n : Nat, JsNumber.finite n = ((n : Int) : JsNumber) := by
    intro n
    rw [JsNumber.intCast_eq, Int.cast_natCast]
  have value : b.day * 86400000 + (((m / 60 : Nat) : Int) * 3600000 +
      ((m % 60 : Nat) : Int) * 60000 + 0 * 1000 + 0) =
        dayLength * (b.ms / dayLength) + 60000 * m := by
    unfold Instant.day dayLength
    omega
  unfold parseTimeString
  simp only [valid, Bool.not_true, Bool.false_eq_true, if_false, split_convertToTime]
  rw [List.getElem?_cons_zero, List.getElem?_cons_succ, List.getElem?_cons_zero, Option.getD_some,
    Option.getD_some, whole, whole, zero, JsDate.setUTCHours_some, value]

/-- The day of the last instant has no other instant in the range. -/
theorem minute_inRange_iff {m : Nat} (day : m < 1440) (b : Instant) :
    (-maxTime ≤ dayLength * (b.ms / dayLength) + 60000 * m ∧
      dayLength * (b.ms / dayLength) + 60000 * m ≤ maxTime) ↔ (b.ms = maxTime → m = 0) := by
  have range := b.inRange
  unfold maxTime dayLength at *
  omega

/-- An instant that is read is the minute of the date's day, within the range. -/
theorem parseTimeString_eq_some {m : Nat} (day : m < 1440) (b r : Instant) :
    parseTimeString (convertToTime (.finite m)) (some b) = .ok (some r) ↔
      (b.ms = maxTime → m = 0) ∧ r.ms = dayLength * (b.ms / dayLength) + 60000 * m := by
  rw [parseTimeString_convertToTime day, ← minute_inRange_iff day]
  by_cases range : -maxTime ≤ dayLength * (b.ms / dayLength) + 60000 * m ∧
      dayLength * (b.ms / dayLength) + 60000 * m ≤ maxTime
  · rw [timeClip_intCast range]
    simp only [Except.ok.injEq, Option.some.injEq, range, and_self, true_and, Instant.ext_iff]
    exact eq_comm
  · rw [timeClip_eq_none range]
    simp only [range, false_and, iff_false]
    intro same
    cases same

theorem convertToTime_eq_midnight {m : Nat} : convertToTime (.finite m) = "00:00" ↔ m = 0 := by
  have midnight : convertToTime (.finite (0 : Nat)) = "00:00" := by decide +kernel
  constructor
  · intro same
    have minutes := convertToMinutes_convertToTime m
    rw [same, ← midnight, convertToMinutes_convertToTime] at minutes
    exact_mod_cast (JsNumber.finite.inj minutes).symm
  · intro zero
    rw [zero, midnight]

/-- Nothing is left of the base's own time of day. -/
theorem parseTimeString_congr {b b' : Instant} (sameDay : b'.ms / dayLength = b.ms / dayLength)
    (s : String) : parseTimeString s (some b') = parseTimeString s (some b) := by
  cases valid : isValidTimeString s with
  | false => rw [parseTimeString_of_invalid valid, parseTimeString_of_invalid valid]
  | true =>
    obtain ⟨m, day, rfl⟩ := isValidTimeString_iff.mp valid
    rw [parseTimeString_convertToTime day, parseTimeString_convertToTime day, sameDay]

/-- Later minutes are later instants. -/
theorem parseTimeString_lt {b r r' : Instant} {s s' : String}
    (read : parseTimeString s (some b) = .ok (some r))
    (read' : parseTimeString s' (some b) = .ok (some r'))
    (earlier : (convertToMinutes s).lt (convertToMinutes s') = true) : r.ms < r'.ms := by
  obtain ⟨m, day, rfl⟩ := isValidTimeString_iff.mp (isValidTimeString_of_parse read)
  obtain ⟨m', day', rfl⟩ := isValidTimeString_iff.mp (isValidTimeString_of_parse read')
  have minutes : m < m' := by
    rw [convertToMinutes_convertToTime, convertToMinutes_convertToTime, JsNumber.lt_finite,
      decide_eq_true_eq] at earlier
    exact_mod_cast earlier
  obtain ⟨_, value⟩ := (parseTimeString_eq_some day b r).mp read
  obtain ⟨_, value'⟩ := (parseTimeString_eq_some day' b r').mp read'
  omega

/-- `parseTimeString` throws on the texts that are no times, and puts every other time on
the UTC day of the base, with nothing left of the base's own time of day.  Only the day
of the last instant of all is cut off after `00:00`, and an invalid base stays invalid. -/
theorem parseTimeString_minute_of_day (s : String) :
    (∀ base, (∃ message, parseTimeString s base = .error message) ↔ isValidTimeString s = false) ∧
    (isValidTimeString s = true → parseTimeString s none = .ok none) ∧
    ∀ b : Instant,
      (isValidTimeString s = true → (b.ms = maxTime → s = "00:00") →
        ∃ r : Instant, parseTimeString s (some b) = .ok (some r) ∧
          (r.ms : JsNumber) =
            ((dayLength * (b.ms / dayLength) : Int) : JsNumber) + 60000 * convertToMinutes s ∧
          r.ms / dayLength = b.ms / dayLength) ∧
      (isValidTimeString s = true → b.ms = maxTime → s ≠ "00:00" →
        parseTimeString s (some b) = .ok none) ∧
      (∀ b' : Instant, b'.ms / dayLength = b.ms / dayLength →
        parseTimeString s (some b') = parseTimeString s (some b)) ∧
      ∀ s' r r', parseTimeString s (some b) = .ok (some r) →
        parseTimeString s' (some b) = .ok (some r') →
        (convertToMinutes s).lt (convertToMinutes s') = true → r.ms < r'.ms := by
  refine ⟨fun _ => parseTimeString_error_iff, ?_, fun b => ⟨?_, ?_, ?_, ?_⟩⟩
  · intro valid
    unfold parseTimeString
    rw [valid]
    rfl
  · intro valid within
    obtain ⟨m, day, rfl⟩ := isValidTimeString_iff.mp valid
    rw [convertToTime_eq_midnight] at within
    refine ⟨⟨_, (minute_inRange_iff day b).mpr within⟩,
      (parseTimeString_eq_some day b _).mpr ⟨within, rfl⟩, ?_, ?_⟩
    · rw [convertToMinutes_convertToTime, JsNumber.ofNat_eq, JsNumber.finite_mul,
        JsNumber.intCast_eq, JsNumber.intCast_eq, JsNumber.finite_add]
      push_cast
      rfl
    · unfold dayLength
      dsimp only
      omega
  · intro valid last later
    obtain ⟨m, day, rfl⟩ := isValidTimeString_iff.mp valid
    rw [Ne, convertToTime_eq_midnight] at later
    have beyond := mt (minute_inRange_iff day b).mp (fun within => later (within last))
    rw [parseTimeString_convertToTime day, timeClip_eq_none beyond]
  · intro b' sameDay
    exact parseTimeString_congr sameDay s
  · intro s' r r' read read' earlier
    exact parseTimeString_lt read read' earlier

/-- No date can hold a later minute of the day of the last instant. -/
theorem last_instant_has_no_next_minute :
    isValidTimeString "00:01" = true ∧ convertToMinutes "00:01" = .finite 1 ∧
      ¬ ∃ r : Instant, parseTimeString "00:01" (some ⟨maxTime, by decide⟩) = .ok (some r) ∧
        (r.ms : JsNumber) = ((dayLength * (maxTime / dayLength) : Int) : JsNumber) +
          60000 * convertToMinutes "00:01" := by
  have text : convertToTime (.finite (1 : Nat)) = "00:01" := by decide +kernel
  refine ⟨by decide +kernel, by decide +kernel, ?_⟩
  rintro ⟨r, read, _⟩
  rw [← text] at read
  obtain ⟨midnight, _⟩ := (parseTimeString_eq_some (by decide) _ r).mp read
  exact absurd (midnight rfl) (by decide)

end RestaurantAssistant
