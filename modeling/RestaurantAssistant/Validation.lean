import RestaurantAssistant.Database
import RestaurantAssistant.Dto
import RestaurantAssistant.Js.Decorators

/-!
# The validation pipe of availability queries

The decorators of `CheckAvailabilityInput` (`check-availability.input.ts`,
`time-or-range.validator.ts`) and the pipe that runs them
(`reservation.resolver.ts`).

`time` is not looked at if there is a `timeRange`, and `timeRange` is not if there
is a `time`: with both, neither is checked.  The ends of a range are never checked,
since nothing asks for the nested object to be validated.  What gets through is
`CheckAvailabilityArgs.accepted_iff`, and `accepted_iff_grammar_iff` says exactly
for which inputs this is what the decorators declare.
-/

namespace RestaurantAssistant

open Js

/-- A `CheckAvailabilityInput` before validation: `guests` is any number. -/
structure CheckAvailabilityArgs where
  date : String
  time : Arg String
  timeRange : Arg TimeRangeInput
  guests : JsNumber
  deriving DecidableEq

/-- The arguments as the service receives them. -/
def CheckAvailabilityInput.args (data : CheckAvailabilityInput) : CheckAvailabilityArgs :=
  ⟨data.date, data.time, data.timeRange, (data.guests : JsNumber)⟩

/-! ## The decorators -/

/-- `@Matches(pattern)`, on a string only. -/
def matchesPattern (pattern : Pattern) : Arg String → Bool
  | .given text => pattern.test text
  | _ => false

/-- `@IsInt()`. -/
def isInt : JsNumber → Bool
  | .finite q => q.isInt
  | _ => false

namespace CheckAvailabilityArgs

/-- Is `time` truthy? -/
def hasTime (args : CheckAvailabilityArgs) : Bool := args.time.text.isSome

/-- Is `timeRange` truthy? -/
def hasTimeRange (args : CheckAvailabilityArgs) : Bool := args.timeRange.toOption.isSome

/-- `@TimeOrRange`: either time or timeRange must be provided, but not both. -/
def isTimeOrRange : Validator CheckAvailabilityArgs where
  constraint := "isTimeOrRange"
  check args := (args.hasTime && !args.hasTimeRange) || (!args.hasTime && args.hasTimeRange)
  message := "Either time or timeRange must be provided."

variable (isDateString : String → Bool)

/-- The decorated properties, with the decorators of each in the order they are
applied, which is from the last one up. -/
def properties : List (Property CheckAvailabilityArgs) :=
  [{ name := "date"
     validators :=
      [{ constraint := "isDateString"
         check := fun args => isDateString args.date
         message := "Date must be in YYYY-MM-DD format" }] },
    { name := "time"
      validateIf := fun args => !args.hasTimeRange
      validators :=
        [{ constraint := "matches"
           check := fun args => matchesPattern queryTimePattern args.time
           message := "Time must be in HH:mm format (24-hour)" },
          isTimeOrRange] },
    { name := "timeRange"
      validateIf := fun args => !args.hasTime
      validators := [isTimeOrRange] },
    { name := "guests"
      validators :=
        [{ constraint := "min"
           check := fun args => (1 : JsNumber).le args.guests
           message := "Guests must be at least 1" },
          { constraint := "isInt"
            check := fun args => isInt args.guests
            message := "guests must be an integer number" }] }]

/-- Do the decorators accept the arguments? -/
def accepted (args : CheckAvailabilityArgs) : Bool := accepts (properties isDateString) args

/-- The text of one error. -/
def errorText (error : ValidationError) : String :=
  if error.constraints.isEmpty then "Invalid input"
  else ", ".intercalate (error.constraints.map Prod.snd)

/-- The validation pipe: the arguments, or the errors in one message. -/
def validationPipe (args : CheckAvailabilityArgs) : Except Exn CheckAvailabilityArgs :=
  match validate (properties isDateString) args with
  | [] => .ok args
  | errors => .error (.badRequest ("; ".intercalate (errors.map errorText)))

end CheckAvailabilityArgs

/-- Does the pipe let the input through? -/
def CheckAvailabilityInput.accepted (isDateString : String → Bool) (data : CheckAvailabilityInput) :
    Bool :=
  data.args.accepted isDateString

/-! ## What gets through -/

variable {isDateString : String → Bool} {args : CheckAvailabilityArgs}

/-- A number of guests as declared: an integer, at least one. -/
def GuestsDeclared (guests : JsNumber) : Prop := ∃ n : Int, guests = (n : JsNumber) ∧ 1 ≤ n

theorem guestsDeclared_iff {guests : JsNumber} :
    GuestsDeclared guests ↔ (1 : JsNumber).le guests = true ∧ isInt guests = true := by
  constructor
  · intro declared
    obtain ⟨n, rfl, one⟩ := declared
    have cast : ((1 : Nat) : ℚ) ≤ n := by exact_mod_cast one
    refine ⟨decide_eq_true cast, ?_⟩
    simp [isInt, JsNumber.intCast_eq, Rat.isInt]
  · intro checked
    obtain ⟨least, whole⟩ := checked
    cases guests with
    | nan => cases whole
    | infinity s => cases whole
    | finite q =>
      have den : q.den = 1 := of_decide_eq_true whole
      have same : (q.num : ℚ) = q := Rat.den_eq_one_iff q |>.mp den
      refine ⟨q.num, ?_, ?_⟩
      · rw [JsNumber.intCast_eq, same]
      · have cast : ((1 : Nat) : ℚ) ≤ q := of_decide_eq_true least
        rw [← same] at cast
        exact_mod_cast cast

theorem matchesPattern_iff {time : Arg String} :
    matchesPattern queryTimePattern time = true ↔
      ∃ text, time.text = some text ∧ isValidTimeString text = true := by
  constructor
  · intro matched
    cases time with
    | undefined => cases matched
    | null => cases matched
    | given text =>
      have valid : isValidTimeString text = true := by
        rw [← queryTimePattern_test]
        exact matched
      exact ⟨text, text_of_valid valid, valid⟩
  · intro matched
    obtain ⟨text, given, valid⟩ := matched
    rw [(Arg.text_eq_some.mp given).1]
    rw [← queryTimePattern_test] at valid
    exact valid

/-- The pipe lets through every input with a range, and those with a time of day
and no range. -/
theorem CheckAvailabilityArgs.accepted_iff :
    args.accepted isDateString = true ↔ isDateString args.date = true ∧
      GuestsDeclared args.guests ∧
      (args.hasTimeRange = true ∨ ∃ time, args.time.text = some time ∧
        isValidTimeString time = true) := by
  unfold accepted
  rw [accepts_iff, guestsDeclared_iff, ← matchesPattern_iff]
  have truthy : matchesPattern queryTimePattern args.time = true → args.hasTime = true := by
    intro matched
    obtain ⟨time, given, -⟩ := matchesPattern_iff.mp matched
    unfold CheckAvailabilityArgs.hasTime
    rw [given]
    rfl
  simp only [properties, List.forall_mem_cons, List.not_mem_nil, false_imp_iff, implies_true,
    and_true, isTimeOrRange, forall_const]
  cases range : args.hasTimeRange <;> cases time : args.hasTime <;>
    simp [time] at truthy ⊢ <;> tauto

/-! ## What is declared -/

/-- `HH:mm` in 24-hour form. -/
def IsTimeOfDay (text : String) : Prop := ∃ h < 24, ∃ m < 60, text.toList = hhmm h m

theorem isTimeOfDay_iff {text : String} : IsTimeOfDay text ↔ isValidTimeString text = true := by
  unfold IsTimeOfDay isValidTimeString
  split
  · rename_i empty
    rw [empty]
    constructor
    · intro written
      obtain ⟨h, -, m, -, same⟩ := written
      cases same
    · intro impossible
      cases impossible
  · rw [Pattern.test_iff, timeRegex_rests]

/-- The grammar the decorators declare: a date, an integer of guests, and either a
time or a range, in `HH:mm` form. -/
structure CheckAvailabilityArgs.Grammar (isDateString : String → Bool)
    (args : CheckAvailabilityArgs) : Prop where
  date : isDateString args.date = true
  guests : GuestsDeclared args.guests
  oneOf : args.hasTime ≠ args.hasTimeRange
  time : ∀ time, args.time.text = some time → IsTimeOfDay time
  timeRange : ∀ range, args.timeRange = .given range →
    IsTimeOfDay range.start ∧ IsTimeOfDay range.stop

/-- Whatever the grammar allows gets through. -/
theorem CheckAvailabilityArgs.Grammar.accepted (grammar : args.Grammar isDateString) :
    args.accepted isDateString = true := by
  refine CheckAvailabilityArgs.accepted_iff.mpr ⟨grammar.date, grammar.guests, ?_⟩
  cases range : args.hasTimeRange with
  | true => exact .inl rfl
  | false =>
    have oneOf := grammar.oneOf
    rw [range, Bool.ne_false_iff] at oneOf
    obtain ⟨time, given⟩ := Option.isSome_iff_exists.mp oneOf
    exact .inr ⟨time, given, isTimeOfDay_iff.mp (grammar.time time given)⟩

/-- Without a range, only what the grammar allows gets through. -/
theorem CheckAvailabilityArgs.grammar_of_time (through : args.accepted isDateString = true)
    (noRange : args.hasTimeRange = false) : args.Grammar isDateString := by
  obtain ⟨date, guests, range | ⟨time, given, valid⟩⟩ :=
    CheckAvailabilityArgs.accepted_iff.mp through
  · rw [noRange] at range
    cases range
  · refine ⟨date, guests, ?_, ?_, ?_⟩
    · unfold CheckAvailabilityArgs.hasTime
      rw [noRange, given]
      exact Bool.noConfusion
    · intro time' given'
      rw [given] at given'
      cases given'
      exact isTimeOfDay_iff.mpr valid
    · intro range given'
      unfold CheckAvailabilityArgs.hasTimeRange at noRange
      rw [given'] at noRange
      cases noRange

/-- **The pipe and its grammar.**  The decorators judge an input as declared exactly
if it has no range, or the range is all there is and its ends are times of day, or
date or guests are wrong anyway. -/
theorem accepted_iff_grammar_iff (isDateString : String → Bool) (args : CheckAvailabilityArgs) :
    (args.accepted isDateString = true ↔ args.Grammar isDateString) ↔
    (isDateString args.date = false ∨ ¬ GuestsDeclared args.guests ∨ args.hasTimeRange = false ∨
      args.hasTime = false ∧ ∀ range, args.timeRange = .given range →
        isValidTimeString range.start = true ∧ isValidTimeString range.stop = true) := by
  constructor
  · intro judged
    by_cases wrong : isDateString args.date = false ∨ ¬ GuestsDeclared args.guests ∨
        args.hasTimeRange = false
    · rcases wrong with date | guests | noRange
      · exact .inl date
      · exact .inr (.inl guests)
      · exact .inr (.inr (.inl noRange))
    · simp only [not_or, Bool.not_eq_false, not_not] at wrong
      obtain ⟨date, guests, range⟩ := wrong
      have grammar := judged.mp
        (CheckAvailabilityArgs.accepted_iff.mpr ⟨date, guests, .inl range⟩)
      refine .inr (.inr (.inr ⟨?_, ?_⟩))
      · have oneOf := grammar.oneOf
        rw [range] at oneOf
        exact Bool.eq_false_iff.mpr oneOf
      · intro range' given
        have ends := grammar.timeRange range' given
        exact ⟨isTimeOfDay_iff.mp ends.1, isTimeOfDay_iff.mp ends.2⟩
  · intro condition
    refine ⟨fun through => ?_, fun grammar => grammar.accepted⟩
    obtain ⟨date, guests, -⟩ := CheckAvailabilityArgs.accepted_iff.mp through
    rcases condition with wrong | wrong | noRange | ⟨noTime, ends⟩
    · rw [date] at wrong
      cases wrong
    · exact absurd guests wrong
    · exact CheckAvailabilityArgs.grammar_of_time through noRange
    · cases range : args.hasTimeRange with
      | false => exact CheckAvailabilityArgs.grammar_of_time through range
      | true =>
        refine ⟨date, guests, ?_, ?_, ?_⟩
        · rw [noTime, range]
          decide
        · intro time given
          unfold CheckAvailabilityArgs.hasTime at noTime
          rw [given] at noTime
          cases noTime
        · intro range' given
          have valid := ends range' given
          exact ⟨isTimeOfDay_iff.mpr valid.1, isTimeOfDay_iff.mpr valid.2⟩

/-- A time and a range, both of them nonsense. -/
def timeAndRange : CheckAvailabilityArgs :=
  ⟨"2025-03-10", .given "soon", .given ⟨"now", "later"⟩, 2⟩

/-- The two conditions switch each other off. -/
theorem time_and_range_accepted :
    ¬ ∀ (isDateString : String → Bool) (args : CheckAvailabilityArgs),
      args.accepted isDateString = true ↔ args.Grammar isDateString := by
  intro claim
  have accepted : timeAndRange.accepted isoDateString = true := by decide +kernel
  exact ((claim _ _).mp accepted).oneOf rfl

end RestaurantAssistant
