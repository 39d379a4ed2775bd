import RestaurantAssistant.Js.Json
import RestaurantAssistant.TimeUtils

/-!
# Inputs and their declared constraints (`reservations/dto`)

The input types with the constraints their decorators declare.  What
`@IsDateString` accepts is library code and stays a parameter `isDateString`.
-/

namespace RestaurantAssistant

open Js

structure CreateReservationInput where
  customerName : String
  date : String
  time : String
  guests : Int
  deriving DecidableEq

/-- `PartialType(CreateReservationInput)` with the `id` of the reservation. -/
structure UpdateReservationInput where
  id : Int
  customerName : Arg String
  date : Arg String
  time : Arg String
  guests : Arg Int
  deriving DecidableEq

/-- The time range from `start` to `stop` (`end` in the source). -/
structure TimeRangeInput where
  start : String
  stop : String
  deriving DecidableEq

structure CheckAvailabilityInput where
  date : String
  time : Arg String
  timeRange : Arg TimeRangeInput
  guests : Int
  deriving DecidableEq

structure ReservationFilterInput where
  customerName : Arg String
  date : Arg String
  guests : Arg Int
  deriving DecidableEq

structure PaginationInput where
  page : Arg Int
  limit : Arg Int
  deriving DecidableEq

structure SortInput where
  sortBy : Arg String
  order : Arg String
  deriving DecidableEq

/-! ## Times -/

/-- The hours `([01]\d|2[0-3])` of the input patterns. -/
def hoursPattern : Pattern :=
  .alt (.seq (.chars [('0', '0'), ('1', '1')]) .digit) (.seq (.char '2') (.chars [('0', '3')]))

/-- The pattern `/^([01]\d|2[0-3]):([0-5]\d)$/` of `CreateReservationInput.time`. -/
def createTimePattern : Pattern :=
  .seq hoursPattern (.seq (.char ':') (.seq (.chars [('0', '5')]) .digit))

/-- The pattern `/^([01]\d|2[0-3]):[0-5]\d$/` of `CheckAvailabilityInput.time` and of both
ends of a `TimeRangeInput`. -/
def queryTimePattern : Pattern :=
  .seq hoursPattern (.seq (.char ':') (.seq (.chars [('0', '5')]) .digit))

theorem accepts_zero_one (c : Char) :
    Pattern.accepts [('0', '0'), ('1', '1')] c = Pattern.accepts [('0', '1')] c := by
  rw [Bool.eq_iff_iff, accepts_range]
  simp only [Pattern.accepts, List.any_cons, List.any_nil, Bool.or_false, Bool.or_eq_true,
    Bool.and_eq_true, decide_eq_true_eq]
  have codes : ('0' : Char).toNat = 48 ∧ ('1' : Char).toNat = 49 := by decide
  omega

theorem hoursPattern_rests (text : List Char) :
    hoursPattern.rests text =
      (Pattern.alt (.seq (.chars [('0', '1')]) (.chars [('0', '9')]))
        (.seq (.char '2') (.chars [('0', '3')]))).rests text := by
  cases text with
  | nil => rfl
  | cons c cs =>
    simp only [hoursPattern, Pattern.rests, accepts_zero_one, Pattern.digit]

/-- The input patterns accept what `isValidTimeString` accepts. -/
theorem createTimePattern_test (time : String) :
    createTimePattern.test time = isValidTimeString time := by
  have same : createTimePattern.test time = timeRegex.test time := by
    simp only [Pattern.test, createTimePattern, timeRegex, Pattern.rests, hoursPattern_rests,
      Pattern.digit]
  rw [same, isValidTimeString]
  split
  · rename_i empty
    rw [empty]
    decide
  · rfl

theorem queryTimePattern_test (time : String) :
    queryTimePattern.test time = isValidTimeString time := createTimePattern_test time

/-- The declared times are not empty, so that the fields that are given are the
ones the code sees. -/
theorem text_of_valid {time : String} (valid : isValidTimeString time = true) :
    (Arg.given time).text = some time := by
  have nonempty : time ≠ "" := by
    intro empty
    rw [empty] at valid
    exact absurd valid (by decide)
  simp [Arg.text, nonempty]

theorem text_of_toOption {arg : Arg String} (absent : arg.toOption = none) : arg.text = none := by
  cases arg with
  | undefined => rfl
  | null => rfl
  | given s => cases absent

/-! ## Dates -/

/-- The dates `YYYY-MM-DD`. -/
def isoDatePattern : Pattern := .seqs [.digit, .digit, .digit, .digit, .char '-',
  .alt (.seq (.char '0') (.chars [('1', '9')])) (.seq (.char '1') (.chars [('0', '2')])), .char '-',
  .alt (.seq (.char '0') (.chars [('1', '9')])) (.alt (.seq (.chars [('1', '2')]) .digit)
    (.seq (.char '3') (.chars [('0', '1')])))]

/-- Dates with or without a UTC time `THH:mm:ssZ`: a part of ISO 8601, in the place
of `isDateString` where a concrete one is needed. -/
def isoDateString : String → Bool :=
  Pattern.test (.seq isoDatePattern (.opt (.seqs [.char 'T', hoursPattern, .char ':',
    .chars [('0', '5')], .digit, .char ':', .chars [('0', '5')], .digit, .char 'Z'])))

/-! ## The constraints -/

variable (isDateString : String → Bool)

/-- Does the validation pipe let the input through? -/
def CreateReservationInput.accepted (data : CreateReservationInput) : Bool :=
  data.customerName != "" &&
  (isDateString data.date && data.date != "") &&
  (data.time != "" && createTimePattern.test data.time) &&
  decide (1 ≤ data.guests)

/-- The same constraints on the fields that are given; `null` and absent fields
are not validated. -/
def UpdateReservationInput.accepted (data : UpdateReservationInput) : Bool :=
  data.customerName.optional (· != "") &&
  data.date.optional (fun date => isDateString date && date != "") &&
  data.time.optional (fun time => time != "" && createTimePattern.test time) &&
  data.guests.optional (fun guests => decide (1 ≤ guests))

/-- Exactly one of `time` and `timeRange`, with every time in `HH:mm` form. -/
def CheckAvailabilityInput.timed (data : CheckAvailabilityInput) : Bool :=
  match data.time, data.timeRange with
  | .given _, .given _ => false
  | .given time, _ => queryTimePattern.test time
  | _, .given range => queryTimePattern.test range.start && queryTimePattern.test range.stop
  | _, _ => false

/-- The constraints `CheckAvailabilityInput` and `TimeRangeInput` declare. -/
def CheckAvailabilityInput.declared (data : CheckAvailabilityInput) : Bool :=
  isDateString data.date && data.timed && decide (1 ≤ data.guests)

end RestaurantAssistant
