import RestaurantAssistant.CacheKey
import RestaurantAssistant.TimeCodec
import RestaurantAssistant.Validation

/-!
# Keys of the inputs that get through

Two availability queries as declared with the same key have the same answer.  The
pipe lets more through: a time beside a range, and ranges of any two texts, so that
a query for a time and one for a range may share their key.

`Alike` says when two inputs are read the same way, in the numbers their texts are rounded
to, and `same_key_same_answer` that they have the same answer then on every table and
configuration, and only then where the minutes they name are whole.
-/

namespace RestaurantAssistant

open Awaiting Js

/-! ## Inputs that get through -/

namespace CheckAvailabilityInput

variable {data data' : CheckAvailabilityInput} {isDateString : String → Bool}

/-- The input asks for the slots in the range. -/
structure AsksFor (data : CheckAvailabilityInput) (range : TimeRangeInput) : Prop where
  text : data.time.text = none
  given : data.timeRange = .given range

/-- What gets through has a time, or only a range. -/
theorem modes_of_accepted (accepted : data.accepted isDateString = true) :
    (∃ time, data.time.text = some time) ∨ ∃ range, data.AsksFor range := by
  obtain ⟨-, -, through⟩ := CheckAvailabilityArgs.accepted_iff.mp accepted
  cases text : data.time.text with
  | some time => exact .inl ⟨time, rfl⟩
  | none =>
    refine .inr ?_
    rcases through with given | ⟨time, given, -⟩
    · unfold CheckAvailabilityArgs.hasTimeRange args at given
      cases range : data.timeRange with
      | undefined =>
        rw [range] at given
        cases given
      | null =>
        rw [range] at given
        cases given
      | given range' => exact ⟨range', text, range⟩
    · have given' : data.time.text = some time := given
      rw [text] at given'
      cases given'

/-- The input does without what the pipe overlooks: it has no range, or nothing but
a range of two times of day. -/
def Plain (data : CheckAvailabilityInput) : Prop :=
  data.args.hasTimeRange = false ∨ data.args.hasTime = false ∧ ∀ range,
    data.timeRange = .given range →
      isValidTimeString range.start = true ∧ isValidTimeString range.stop = true

/-- The input with an empty time left out. -/
def normal (data : CheckAvailabilityInput) : CheckAvailabilityInput :=
  { data with time := if data.time = .given "" then .undefined else data.time }

theorem normal_text : data.normal.time.text = data.time.text := by
  unfold normal
  split
  · rename_i empty
    rw [empty]
    rfl
  · rfl

theorem normal_key : availabilityKey data.normal = availabilityKey data := by
  unfold availabilityKey
  rw [normal_text]
  rfl

/-- Without a text, the normal input has no time. -/
theorem normal_absent (absent : data.time.text = none) : data.normal.time.toOption = none := by
  unfold normal
  cases time : data.time with
  | undefined => rfl
  | null => rfl
  | given text =>
    rw [time] at absent
    simp only [Arg.text_given_eq_none.mp absent, if_true]
    rfl

/-- A plain input that gets through is as declared. -/
theorem normal_timed (accepted : data.accepted isDateString = true) (plain : data.Plain) :
    data.normal.timed = true := by
  obtain ⟨-, -, through⟩ := CheckAvailabilityArgs.accepted_iff.mp accepted
  rcases plain with noRange | ⟨noTime, ends⟩
  · rw [noRange] at through
    obtain ⟨time, given, valid⟩ := through.resolve_left nofun
    obtain ⟨time', nonempty⟩ := Arg.text_eq_some.mp given
    have kept : data.normal.time = .given time := by
      have other : ¬ data.time = .given "" := by
        intro empty
        exact nonempty (Arg.given.inj (time'.symm.trans empty))
      unfold normal
      rw [if_neg other]
      exact time'
    rw [← queryTimePattern_test] at valid
    unfold timed
    rw [kept]
    have none : data.normal.timeRange.toOption = none :=
      Option.isNone_iff_eq_none.mp (Option.isSome_eq_false_iff.mp noRange)
    generalize data.normal.timeRange = range at none ⊢
    cases range with
    | undefined => exact valid
    | null => exact valid
    | given range => cases none
  · have absent : data.time.text = none :=
      Option.isNone_iff_eq_none.mp (Option.isSome_eq_false_iff.mp noTime)
    obtain ⟨time, given⟩ | ⟨range, asks⟩ := modes_of_accepted accepted
    · rw [absent] at given
      cases given
    · have valid := ends range asks.given
      rw [← queryTimePattern_test, ← queryTimePattern_test, ← Bool.and_eq_true] at valid
      have kept : data.normal.timeRange = .given range := asks.given
      have none := normal_absent absent
      unfold timed
      rw [kept]
      generalize data.normal.time = time at none ⊢
      cases time with
      | undefined => exact valid
      | null => exact valid
      | given time => cases none

end CheckAvailabilityInput

namespace Binary64

variable {cfg : Config} {T : Tables} {data data' : CheckAvailabilityInput}
  {range range' : TimeRangeInput} {time time' : String} {out : CheckAvailabilityOutput}

/-! ## How inputs are read -/

/-- The query has this answer, after however many turns of its loop. -/
def Answers (cfg : Config) (T : Tables) (data : CheckAvailabilityInput)
    (out : CheckAvailabilityOutput) : Prop :=
  ∃ fuel, availabilityOf fuel cfg (T.bookingsOn data.date) data = some out

/-- The inputs have the same answer, on every table and under every configuration. -/
def SameAnswer (data data' : CheckAvailabilityInput) : Prop :=
  ∀ cfg T out, Answers cfg T data out ↔ Answers cfg T data' out

/-- No slot is in the range, whatever the duration of a slot: an end that is no
number, or both ends the same. -/
def Void (range : TimeRangeInput) : Prop :=
  convertToMinutes range.start = .nan ∨ convertToMinutes range.stop = .nan ∨
    convertToMinutes range.start = convertToMinutes range.stop

/-- The inputs are read the same way.  Times are the same text, for the same guests,
on the same date unless the text names no minute.  Ranges are both void, or the same
minutes, for the same guests, on the same date. -/
def Alike (data data' : CheckAvailabilityInput) : Prop :=
  match data.time.text, data'.time.text with
  | some time, some time' => time = time' ∧ data.guests = data'.guests ∧
      (data.date = data'.date ∨ ∀ q, (convertToMinutes time).number ≠ .finite q)
  | none, none => ∀ range range', data.timeRange = .given range → data'.timeRange = .given range' →
      Void range ∧ Void range' ∨
      data.date = data'.date ∧ data.guests = data'.guests ∧
        convertToMinutes range.start = convertToMinutes range'.start ∧
        convertToMinutes range.stop = convertToMinutes range'.stop
  | _, _ => False

/-- The text of an end names a whole minute, or none. -/
def WholeEnd (text : String) : Prop :=
  convertToMinutes text = .nan ∨ ∃ m : ℤ, |m| < 2 ^ 53 ∧ convertToMinutes text = .ofInt m

/-- So many guests can be counted. -/
def Counted (guests : ℤ) : Prop := 0 ≤ guests ∧ guests < 2 ^ 53

theorem Counted.small {guests : ℤ} (counted : Counted guests) : |guests| ≤ 2 ^ 53 := by
  rw [abs_of_nonneg counted.1]
  exact counted.2.le

/-- The guests can be counted, and the ends of a range that is asked for are whole. -/
structure Whole (data : CheckAvailabilityInput) : Prop where
  guests : Counted data.guests
  ends : data.time.text = none → ∀ range, data.timeRange = .given range →
    WholeEnd range.start ∧ WholeEnd range.stop

theorem SameAnswer.symm (same : SameAnswer data data') : SameAnswer data' data :=
  fun cfg T out => (same cfg T out).symm

/-! ## Availability beside no booking and beside one -/

theorem isSlotAvailable_of_none {bookings : List Booking}
    {startTime endTime totalSeats guests : Double}
    (outside : ∀ res ∈ bookings, startsIn startTime endTime res = false) :
    isSlotAvailable bookings startTime endTime totalSeats guests =
      isSlotAvailable [] startTime endTime totalSeats guests := by
  unfold isSlotAvailable
  induction bookings with
  | nil => rfl
  | cons res rest ih =>
    have skipped := outside res List.mem_cons_self
    simp only [List.foldl_cons, skipped, Bool.false_eq_true, if_false]
    exact ih fun res member => outside res (List.mem_cons_of_mem _ member)

theorem isSlotAvailable_nil {startTime endTime : Double} {seats guests : ℤ}
    (few : |seats| ≤ 2 ^ 53) (few' : |guests| ≤ 2 ^ 53) :
    isSlotAvailable [] startTime endTime (.ofInt seats) (guests : Double) = true ↔
      guests ≤ seats := by
  have sum : (0 : Double) + (guests : Double) = .ofInt guests := by
    have zero : (0 : Double) = .ofInt 0 := rfl
    rw [zero, Double.intCast_eq, Double.ofInt_add (by norm_num) few', zero_add]
  change ((0 : Double) + (guests : Double)).le (.ofInt seats) = true ↔ _
  rw [sum, Double.ofInt_le few' few, decide_eq_true_eq]

/-- With as many seats as guests, one guest more is too many. -/
theorem isSlotAvailable_full {startTime endTime : Double} {guests : ℤ}
    (some : 0 ≤ guests) (few : guests < 2 ^ 53)
    (within : startsIn startTime endTime ⟨time, 1⟩ = true) :
    isSlotAvailable [⟨time, 1⟩] startTime endTime (.ofInt guests) (guests : Double) = false := by
  have small : |guests| ≤ 2 ^ 53 ∧ |1 + guests| ≤ 2 ^ 53 := by
    rw [abs_of_nonneg some, abs_of_nonneg (by omega)]
    omega
  have sum : (0 : Double) + ((1 : ℤ) : Double) + (guests : Double) = .ofInt (1 + guests) := by
    have zero : (0 : Double) = .ofInt 0 := rfl
    rw [zero, Double.intCast_eq, Double.intCast_eq, Double.ofInt_add (by norm_num) (by norm_num),
      zero_add, Double.ofInt_add (by norm_num) small.1]
  simp only [isSlotAvailable, List.foldl_cons, List.foldl_nil, within, if_true]
  rw [sum, Double.ofInt_le small.2 small.1, decide_eq_false_iff_not]
  omega

/-- A table with one guest. -/
def oneGuest (date time : String) : Tables :=
  Tables.empty.insert date time 1 ⟨1, "guest"⟩

theorem bookingsOn_oneGuest {date date' : String} :
    (oneGuest date time).bookingsOn date' = if date = date' then [⟨time, 1⟩] else [] := by
  unfold Tables.bookingsOn Tables.on oneGuest Tables.insert Tables.empty
  by_cases same : date = date'
  · simp [same]
  · simp [same]

theorem bookingsOn_empty {date : String} : Tables.empty.bookingsOn date = [] := rfl

/-- No booking starts in a window that starts at no minute. -/
theorem startsIn_of_not_finite {res : Booking} {startTime duration : Double}
    (nowhere : ∀ q, startTime.number ≠ .finite q) :
    startsIn startTime (startTime + duration) res = false := by
  have stop : (startTime + duration).number = (startTime.number + duration.number).rounded := rfl
  simp only [startsIn, Double.le, Double.lt, stop]
  generalize (convertToMinutes res.time).number = resTime
  generalize startTime.number = start at nowhere ⊢
  generalize duration.number = length
  cases start with
  | nan => simp
  | infinity s =>
    rcases JsNumber.infinity_add s length with stop | stop
    · rw [stop]
      cases resTime with
      | nan => rfl
      | infinity t => cases s <;> cases t <;> rfl
      | finite r => cases s <;> rfl
    · have rounded : JsNumber.nan.rounded = .nan := rfl
      rw [stop, rounded, JsNumber.lt_nan, Bool.and_false]
  | finite q => exact absurd rfl (nowhere q)

/-! ## Times -/

theorem answers_time (text : data.time.text = some time) :
    Answers cfg T data out ↔
      (if isSlotAvailable (T.bookingsOn data.date) (convertToMinutes time)
          (convertToMinutes time + cfg.reservationDuration) cfg.totalSeats (data.guests : Double)
        then ⟨"Time slot available", [time]⟩ else ⟨"Time slot unavailable", []⟩) = out := by
  unfold Answers
  simp only [availabilityOf_time text, exists_const, ← apply_ite some, Option.some.injEq]

/-- The answers of a time query and of a range query differ in their message. -/
theorem not_sameAnswer_of_modes (text : data.time.text = some time)
    (asks : data'.AsksFor range) : ¬ SameAnswer data data' := by
  intro same
  obtain ⟨fuel, ranged⟩ := (same .default .empty _).mp ((answers_time text).mpr rfl)
  rw [availabilityOf_range asks.text asks.given] at ranged
  obtain ⟨slots, -, answer⟩ := Option.map_eq_some_iff.mp ranged
  have messages : (rangeOutput .default slots).message ≠ "Time slot available" ∧
      (rangeOutput .default slots).message ≠ "Time slot unavailable" := by
    unfold rangeOutput
    simp only
    split
    · decide
    · decide
  rw [answer] at messages
  split at messages
  · exact messages.1 rfl
  · exact messages.2 rfl

/-- What tells two time queries apart. -/
theorem times_of_sameAnswer (same : SameAnswer data data') (text : data.time.text = some time)
    (text' : data'.time.text = some time') (counted : Counted data.guests)
    (counted' : Counted data'.guests) :
    time = time' ∧ data'.guests ≤ data.guests ∧
      (data.date = data'.date ∨ ∀ q, (convertToMinutes time).number ≠ .finite q) := by
  -- as many seats as guests, and nobody there
  have alone : time = time' ∧ data'.guests ≤ data.guests := by
    have answer := (same ⟨.ofInt data.guests, 30, 60⟩ .empty _).mp ((answers_time text).mpr rfl)
    rw [answers_time text', bookingsOn_empty, bookingsOn_empty,
      if_pos ((isSlotAvailable_nil counted.small counted.small).mpr le_rfl)] at answer
    split at answer
    · rename_i fits
      cases answer
      exact ⟨rfl, (isSlotAvailable_nil counted.small counted'.small).mp fits⟩
    · exact absurd answer (by simp)
  refine ⟨alone.1, alone.2, ?_⟩
  by_contra apart
  rw [not_or, not_forall] at apart
  obtain ⟨dates, q, minute⟩ := apart
  rw [not_not] at minute
  -- somebody there at that time, on one of the dates
  have answer := (same ⟨.ofInt data.guests, 30, .infinity false⟩ (oneGuest data.date time) _).mp
    ((answers_time text).mpr rfl)
  have within : startsIn (convertToMinutes time) (convertToMinutes time + .infinity false)
      ⟨time, 1⟩ = true := by
    have stop : (convertToMinutes time + .infinity false).number =
        ((convertToMinutes time).number + .infinity false).rounded := rfl
    simp only [startsIn, Double.le, Double.lt, stop]
    rw [minute, JsNumber.le_finite, decide_eq_true le_rfl]
    rfl
  rw [answers_time text', bookingsOn_oneGuest, bookingsOn_oneGuest, if_pos rfl, if_neg dates,
    isSlotAvailable_full counted.1 counted.2 within,
    if_pos ((isSlotAvailable_nil counted.small counted'.small).mpr alone.2),
    if_neg Bool.false_ne_true] at answer
  exact absurd answer (by simp)

theorem sameAnswer_of_times (text : data.time.text = some time)
    (text' : data'.time.text = some time) (guests : data.guests = data'.guests)
    (dates : data.date = data'.date ∨ ∀ q, (convertToMinutes time).number ≠ .finite q) :
    SameAnswer data data' := by
  intro cfg T out
  have room : isSlotAvailable (T.bookingsOn data.date) (convertToMinutes time)
      (convertToMinutes time + cfg.reservationDuration) cfg.totalSeats (data.guests : Double) =
    isSlotAvailable (T.bookingsOn data'.date) (convertToMinutes time)
      (convertToMinutes time + cfg.reservationDuration) cfg.totalSeats
        (data'.guests : Double) := by
    rw [guests]
    rcases dates with date | nowhere
    · rw [date]
    · have alone : ∀ res : Booking, startsIn (convertToMinutes time)
          (convertToMinutes time + cfg.reservationDuration) res = false :=
        fun res => startsIn_of_not_finite nowhere
      rw [isSlotAvailable_of_none fun res _ => alone res]
      exact (isSlotAvailable_of_none fun res _ => alone res).symm
  rw [answers_time text, answers_time text', room]

/-! ## Ranges -/

theorem answers_range (asks : data.AsksFor range) :
    Answers cfg T data out ↔ ∃ slots, (∃ fuel,
      slotsIn fuel cfg (T.bookingsOn data.date) range data.guests = some slots) ∧
      rangeOutput cfg slots = out := by
  unfold Answers
  simp only [availabilityOf_range asks.text asks.given, Option.map_eq_some_iff]
  constructor
  · rintro ⟨fuel, slots, found, answer⟩
    exact ⟨slots, ⟨fuel, found⟩, answer⟩
  · rintro ⟨slots, ⟨fuel, found⟩, answer⟩
    exact ⟨fuel, slots, found, answer⟩

/-- No slot is in a void range. -/
theorem answers_void (asks : data.AsksFor range) (void : Void range) :
    Answers cfg T data out ↔ rangeOutput cfg [] = out := by
  have empty : (convertToMinutes range.start / cfg.slotDuration).lt
      (convertToMinutes range.stop / cfg.slotDuration) = false := by
    have nan : Double.nan / cfg.slotDuration = .nan := by
      apply Double.ext
      change (JsNumber.nan / cfg.slotDuration.number).rounded = .nan
      cases cfg.slotDuration.number <;> rfl
    have irrefl : ∀ n : JsNumber, n.lt n = false := by
      intro n
      cases n with
      | nan => rfl
      | infinity s => cases s <;> rfl
      | finite q => simp
    rcases void with start | stop | same
    · rw [start, nan]
      exact JsNumber.nan_lt _
    · rw [stop, nan]
      exact JsNumber.lt_nan _
    · rw [same]
      exact irrefl _
  have stops : StopsAfter (fun i : Double => i.lt (convertToMinutes range.stop / cfg.slotDuration))
      (· + 1) (convertToMinutes range.start / cfg.slotDuration) 0 := .zero empty
  have none : ∀ slots, (∃ fuel, slotsIn fuel cfg (T.bookingsOn data.date) range data.guests =
      some slots) ↔ slots = [] := fun slots => forCollect_eq_some_iff stops
  rw [answers_range asks]
  simp only [none, exists_eq_left]

theorem sameAnswer_of_void (asks : data.AsksFor range) (asks' : data'.AsksFor range')
    (void : Void range) (void' : Void range') : SameAnswer data data' := by
  intro cfg T out
  rw [answers_void asks void, answers_void asks' void']

theorem sameAnswer_of_minutes (asks : data.AsksFor range) (asks' : data'.AsksFor range')
    (date : data.date = data'.date) (guests : data.guests = data'.guests)
    (start : convertToMinutes range.start = convertToMinutes range'.start)
    (stop : convertToMinutes range.stop = convertToMinutes range'.stop) :
    SameAnswer data data' := by
  intro cfg T out
  rw [answers_range asks, answers_range asks']
  unfold slotsIn
  rw [date, guests, start, stop]

/-! ## Slots of one minute -/

section Minutes

variable {σ seats a b a' b' guests : ℤ} {bookings : List Booking} {slots : List Double}

/-- Slots of one minute, which are counted up if `σ` is one, and down if it is minus one. -/
def unitSlots (σ seats : ℤ) : Config := ⟨.ofInt seats, .ofInt σ, 1⟩

/-- The slots from minute `a` to minute `b` that have room. -/
def openSlots (σ seats : ℤ) (bookings : List Booking) (guests a b : ℤ) : List Double :=
  ((List.range (b * σ - a * σ).toNat).map fun k : Nat => Double.ofInt (a * σ + k)).filter
    (slotFree bookings (.ofInt σ) (.ofInt seats) (guests : Double) ((1 : Double) / .ofInt σ).ceil)

theorem abs_mul_unit (unit : σ = 1 ∨ σ = -1) (a : ℤ) : |a * σ| = |a| := by
  rcases unit with rfl | rfl
  · rw [mul_one]
  · rw [mul_neg_one, abs_neg]

theorem ofInt_div_unit (unit : σ = 1 ∨ σ = -1) (digits : |a| ≤ 2 ^ 53) :
    Double.ofInt a / .ofInt σ = .ofInt (a * σ) := by
  have nonzero : (σ : ℚ) ≠ 0 := by rcases unit with rfl | rfl <;> norm_num
  have quotient : (a : ℚ) / σ = ((a * σ : ℤ) : ℚ) := by
    rcases unit with rfl | rfl
    · simp
    · simp [div_neg]
  change ((Double.ofInt a).number / (Double.ofInt σ).number).toDouble = _
  rw [Double.ofInt_number digits, Double.ofInt_number (by rcases unit with rfl | rfl <;> norm_num),
    JsNumber.finite_div nonzero, quotient]
  rfl

/-- The slot is as long as a reservation. -/
theorem slotFree_unit (unit : σ = 1 ∨ σ = -1) {i : ℤ} (digits : |i| < 2 ^ 53) :
    slotFree bookings (.ofInt σ) (.ofInt seats) (guests : Double) ((1 : Double) / .ofInt σ).ceil
        (.ofInt i) =
      isSlotAvailable bookings (.ofInt (i * σ)) (.ofInt (i * σ + 1)) (.ofInt seats)
        (guests : Double) := by
  have one : |σ| ≤ 2 ^ 53 := by rcases unit with rfl | rfl <;> norm_num
  have long : ((1 : Double) / .ofInt σ).ceil = .ofInt σ := by
    rcases unit with rfl | rfl
    · decide +kernel
    · decide +kernel
  have square : (i + σ) * σ = i * σ + 1 := by rcases unit with rfl | rfl <;> ring
  have next : |i + σ| ≤ 2 ^ 53 := by
    rw [abs_lt] at digits
    rw [abs_le]
    rcases unit with rfl | rfl
    · omega
    · omega
  unfold slotFree
  rw [long, Double.ofInt_mul digits.le one, Double.ofInt_add digits.le one,
    Double.ofInt_mul next one, square]

/-- The numbers of the slots are whole and can be counted. -/
theorem abs_slot (unit : σ = 1 ∨ σ = -1) (low : |a| < 2 ^ 53) (high : |b| < 2 ^ 53) {k : Nat}
    (inside : k < (b * σ - a * σ).toNat) : |a * σ + k| < 2 ^ 53 := by
  rw [← abs_mul_unit unit, abs_lt] at low high
  rw [abs_lt]
  omega

theorem abs_minute (unit : σ = 1 ∨ σ = -1) (low : |a| < 2 ^ 53) (high : |b| < 2 ^ 53) {k : Nat}
    (inside : k < (b * σ - a * σ).toNat) : |a + k * σ| < 2 ^ 53 := by
  have minute : (a * σ + k) * σ = a + k * σ := by rcases unit with rfl | rfl <;> ring
  rw [← minute, abs_mul_unit unit]
  exact abs_slot unit low high inside

theorem slotsIn_unit (unit : σ = 1 ∨ σ = -1) (low : |a| < 2 ^ 53) (high : |b| < 2 ^ 53)
    (start : convertToMinutes range.start = .ofInt a)
    (stop : convertToMinutes range.stop = .ofInt b) :
    (∃ fuel, slotsIn fuel (unitSlots σ seats) bookings range guests = some slots) ↔
      slots = openSlots σ seats bookings guests a b := by
  have first : |a * σ| ≤ 2 ^ 53 := (abs_mul_unit unit a).trans_le low.le
  have last : |b * σ| ≤ 2 ^ 53 := (abs_mul_unit unit b).trans_le high.le
  have counter : ∀ k ≤ (b * σ - a * σ).toNat, (· + 1)^[k] (Double.ofInt (a * σ)) =
      .ofInt (a * σ + k) := by
    intro k inside
    refine Double.iterate_add_one first ?_
    rw [abs_le] at first last ⊢
    omega
  have stops : StopsAfter (fun i : Double => i.lt (.ofInt (b * σ))) (· + 1)
      (Double.ofInt (a * σ)) (b * σ - a * σ).toNat := by
    constructor
    · intro k inside
      rw [counter k inside.le, Double.ofInt_lt (abs_slot unit low high inside).le last,
        decide_eq_true_eq]
      omega
    · have past : |a * σ + (b * σ - a * σ).toNat| ≤ 2 ^ 53 := by
        rw [abs_le] at first last ⊢
        omega
      rw [counter _ le_rfl, Double.ofInt_lt past last, decide_eq_false_iff_not]
      omega
  unfold slotsIn findAvailableSlots
  simp only [unitSlots]
  rw [start, stop, ofInt_div_unit unit low.le, ofInt_div_unit unit high.le,
    forCollect_eq_some_iff stops]
  have turns : (List.range (b * σ - a * σ).toNat).map
      (fun k => (· + 1)^[k] (Double.ofInt (a * σ))) =
      (List.range (b * σ - a * σ).toNat).map fun k : Nat => Double.ofInt (a * σ + k) :=
    List.map_congr_left fun k inside => counter k (List.mem_range.mp inside).le
  rw [turns]
  rfl

/-- Is there room in the minute `k` slots on? -/
theorem slotFree_turn (unit : σ = 1 ∨ σ = -1) (low : |a| < 2 ^ 53) (high : |b| < 2 ^ 53) {k : Nat}
    (inside : k < (b * σ - a * σ).toNat) :
    slotFree bookings (.ofInt σ) (.ofInt seats) (guests : Double) ((1 : Double) / .ofInt σ).ceil
        (.ofInt (a * σ + k)) =
      isSlotAvailable bookings (.ofInt (a + k * σ)) (.ofInt (a + k * σ + 1)) (.ofInt seats)
        (guests : Double) := by
  have minute : (a * σ + k) * σ = a + k * σ := by rcases unit with rfl | rfl <;> ring
  rw [slotFree_unit unit (abs_slot unit low high inside), minute]

theorem length_openSlots_of_free (unit : σ = 1 ∨ σ = -1) (low : |a| < 2 ^ 53) (high : |b| < 2 ^ 53)
    (free : ∀ k < (b * σ - a * σ).toNat, isSlotAvailable bookings (.ofInt (a + k * σ))
      (.ofInt (a + k * σ + 1)) (.ofInt seats) (guests : Double) = true) :
    (openSlots σ seats bookings guests a b).length = (b * σ - a * σ).toNat := by
  unfold openSlots
  rw [List.filter_eq_self.mpr, List.length_map, List.length_range]
  intro i member
  obtain ⟨k, inside, rfl⟩ := List.mem_map.mp member
  rw [slotFree_turn unit low high (List.mem_range.mp inside)]
  exact free k (List.mem_range.mp inside)

theorem length_openSlots_of_full (unit : σ = 1 ∨ σ = -1) (low : |a| < 2 ^ 53) (high : |b| < 2 ^ 53)
    (proper : 0 < b * σ - a * σ) (full : isSlotAvailable bookings (.ofInt a) (.ofInt (a + 1))
      (.ofInt seats) (guests : Double) = false) :
    (openSlots σ seats bookings guests a b).length < (b * σ - a * σ).toNat := by
  have inside : 0 < (b * σ - a * σ).toNat := by omega
  have first : slotFree bookings (.ofInt σ) (.ofInt seats) (guests : Double)
      ((1 : Double) / .ofInt σ).ceil (.ofInt (a * σ + (0 : Nat))) = _ :=
    slotFree_turn unit low high inside
  rw [Nat.cast_zero, zero_mul, add_zero, add_zero, full] at first
  calc (openSlots σ seats bookings guests a b).length
    _ < ((List.range (b * σ - a * σ).toNat).map fun k : Nat =>
          Double.ofInt (a * σ + k)).length := by
      refine List.length_filter_lt_length_iff_exists.mpr ⟨.ofInt (a * σ), ?_, ?_⟩
      · exact List.mem_map.mpr ⟨0, List.mem_range.mpr inside, by simp⟩
      · rw [first]
        exact Bool.false_ne_true
    _ = (b * σ - a * σ).toNat := by rw [List.length_map, List.length_range]

theorem exists_free_of_length (unit : σ = 1 ∨ σ = -1) (low : |a| < 2 ^ 53) (high : |b| < 2 ^ 53)
    (some : 0 < (openSlots σ seats bookings guests a b).length) :
    ∃ k : Nat, isSlotAvailable bookings (.ofInt (a + k * σ)) (.ofInt (a + k * σ + 1))
      (.ofInt seats) (guests : Double) = true := by
  obtain ⟨i, member⟩ := List.exists_mem_of_length_pos some
  obtain ⟨turn, free⟩ := List.mem_filter.mp member
  obtain ⟨k, inside, rfl⟩ := List.mem_map.mp turn
  rw [slotFree_turn unit low high (List.mem_range.mp inside)] at free
  exact ⟨k, free⟩

/-- The range is from minute `a` to minute `b`. -/
structure Spans (range : TimeRangeInput) (a b : ℤ) : Prop where
  start : convertToMinutes range.start = .ofInt a
  stop : convertToMinutes range.stop = .ofInt b
  low : |a| < 2 ^ 53
  high : |b| < 2 ^ 53

theorem answers_unit (unit : σ = 1 ∨ σ = -1) (asks : data.AsksFor range) (spans : Spans range a b) :
    Answers (unitSlots σ seats) T data out ↔ rangeOutput (unitSlots σ seats)
      (openSlots σ seats (T.bookingsOn data.date) data.guests a b) = out := by
  rw [answers_range asks]
  simp only [slotsIn_unit unit spans.low spans.high spans.start spans.stop, exists_eq_left]

/-- The same answer lists as many slots. -/
theorem lengths_of_sameAnswer (same : SameAnswer data data') (unit : σ = 1 ∨ σ = -1)
    (asks : data.AsksFor range) (asks' : data'.AsksFor range') (spans : Spans range a b)
    (spans' : Spans range' a' b') (seats : ℤ) (T : Tables) :
    (openSlots σ seats (T.bookingsOn data'.date) data'.guests a' b').length =
      (openSlots σ seats (T.bookingsOn data.date) data.guests a b).length := by
  have answer := (same (unitSlots σ seats) T _).mp ((answers_unit unit asks spans).mpr rfl)
  have lengths := congrArg (fun out => out.availableSlots.length)
    ((answers_unit unit asks' spans').mp answer)
  simpa [rangeOutput] using lengths

/-- Between different minutes there are slots of one direction. -/
theorem exists_unit (ne : a ≠ b) : ∃ σ, (σ = 1 ∨ σ = -1) ∧ 0 < b * σ - a * σ := by
  rcases lt_or_gt_of_ne ne with up | down
  · exact ⟨1, .inl rfl, by omega⟩
  · exact ⟨-1, .inr rfl, by omega⟩

/-- With nobody there, all slots are open to as many guests as there are seats. -/
theorem length_openSlots_nil (unit : σ = 1 ∨ σ = -1) (spans : Spans range a b)
    (counted : Counted guests) (counted' : Counted seats) (fits : guests ≤ seats) :
    (openSlots σ seats [] guests a b).length = (b * σ - a * σ).toNat :=
  length_openSlots_of_free unit spans.low spans.high fun _ _ =>
    (isSlotAvailable_nil counted'.small counted.small).mpr fits

/-- What tells two range queries apart when there are no bookings: the guests and the length
of the range. -/
theorem spans_of_sameAnswer (same : SameAnswer data data') (unit : σ = 1 ∨ σ = -1)
    (proper : 0 < b * σ - a * σ) (asks : data.AsksFor range) (asks' : data'.AsksFor range')
    (spans : Spans range a b) (spans' : Spans range' a' b') (counted : Counted data.guests)
    (counted' : Counted data'.guests) :
    data'.guests ≤ data.guests ∧ b' * σ - a' * σ = b * σ - a * σ := by
  have lengths := lengths_of_sameAnswer same unit asks asks' spans spans' data.guests .empty
  rw [bookingsOn_empty, bookingsOn_empty,
    length_openSlots_nil unit spans counted counted le_rfl] at lengths
  obtain ⟨k, free⟩ := exists_free_of_length unit spans'.low spans'.high
    (by rw [lengths]; omega)
  have fits := (isSlotAvailable_nil counted.small counted'.small).mp free
  rw [length_openSlots_nil unit spans' counted' counted fits] at lengths
  exact ⟨fits, by omega⟩

/-- What tells two range queries of one length apart: a guest at the start of one of them. -/
theorem starts_of_sameAnswer (same : SameAnswer data data') (unit : σ = 1 ∨ σ = -1)
    (proper : 0 < b * σ - a * σ) (asks : data.AsksFor range) (asks' : data'.AsksFor range')
    (spans : Spans range a b) (spans' : Spans range' a' b') (counted : Counted data.guests)
    (counted' : Counted data'.guests) :
    data.date = data'.date ∧ ∃ k : Nat, a = a' + k * σ := by
  obtain ⟨fits, length⟩ :=
    spans_of_sameAnswer same unit proper asks asks' spans spans' counted counted'
  by_contra apart
  have lengths := lengths_of_sameAnswer same unit asks asks' spans spans' data.guests
    (oneGuest data.date range.start)
  have small : |a + 1| ≤ 2 ^ 53 := by
    have low := abs_lt.mp spans.low
    rw [abs_le]
    omega
  have within : startsIn (.ofInt a) (.ofInt (a + 1)) ⟨range.start, 1⟩ = true := by
    simp only [startsIn, spans.start]
    rw [Double.ofInt_le spans.low.le spans.low.le, Double.ofInt_lt spans.low.le small,
      decide_eq_true le_rfl, decide_eq_true (lt_add_one a)]
    rfl
  have missing : (openSlots σ data.guests ((oneGuest data.date range.start).bookingsOn data.date)
      data.guests a b).length < (b * σ - a * σ).toNat := by
    rw [bookingsOn_oneGuest, if_pos rfl]
    exact length_openSlots_of_full unit spans.low spans.high proper
      (isSlotAvailable_full counted.1 counted.2 within)
  have all : (openSlots σ data.guests ((oneGuest data.date range.start).bookingsOn data'.date)
      data'.guests a' b').length = (b' * σ - a' * σ).toNat := by
    refine length_openSlots_of_free unit spans'.low spans'.high fun k inside => ?_
    rw [isSlotAvailable_of_none, isSlotAvailable_nil counted.small counted'.small]
    · exact fits
    · intro res member
      rw [bookingsOn_oneGuest] at member
      split at member
      · rename_i date
        rw [List.mem_singleton.mp member]
        have minute := abs_minute unit spans'.low spans'.high inside
        have next : |a' + k * σ + 1| ≤ 2 ^ 53 := by
          rw [abs_lt] at minute
          rw [abs_le]
          omega
        simp only [startsIn, spans.start]
        rw [Double.ofInt_le minute.le spans.low.le, Double.ofInt_lt spans.low.le next]
        simp only [Bool.and_eq_false_iff, decide_eq_false_iff_not]
        by_contra both
        rw [not_or, not_not, not_not] at both
        exact apart ⟨date, k, by omega⟩
      · cases member
  omega

theorem not_void_of_sameAnswer (same : SameAnswer data data') (asks : data.AsksFor range)
    (asks' : data'.AsksFor range') (ne : a ≠ b) (spans : Spans range a b)
    (counted : Counted data.guests) : ¬ Void range' := by
  intro void
  obtain ⟨σ, unit, proper⟩ := exists_unit ne
  have answer := (same (unitSlots σ data.guests) .empty _).mp
    ((answers_unit unit asks spans).mpr rfl)
  have lengths := congrArg (fun out => out.availableSlots.length)
    ((answers_void asks' void).mp answer)
  have all := length_openSlots_nil unit spans counted counted le_rfl
  rw [bookingsOn_empty] at lengths
  simp only [rangeOutput, List.length_map, List.length_nil] at lengths
  omega

theorem spans_of_whole (whole : WholeEnd range.start ∧ WholeEnd range.stop)
    (proper : ¬ Void range) : ∃ a b, a ≠ b ∧ Spans range a b := by
  unfold Void at proper
  rw [not_or, not_or] at proper
  obtain ⟨number, number', apart⟩ := proper
  obtain ⟨a, low, start⟩ := whole.1.resolve_left number
  obtain ⟨b, high, stop⟩ := whole.2.resolve_left number'
  refine ⟨a, b, ?_, start, stop, low, high⟩
  rintro rfl
  exact apart (start.trans stop.symm)

/-- What tells two range queries apart. -/
theorem ranges_of_sameAnswer (same : SameAnswer data data') (asks : data.AsksFor range)
    (asks' : data'.AsksFor range') (whole : WholeEnd range.start ∧ WholeEnd range.stop)
    (whole' : WholeEnd range'.start ∧ WholeEnd range'.stop) (counted : Counted data.guests)
    (counted' : Counted data'.guests) :
    Void range ∧ Void range' ∨ data.date = data'.date ∧ data.guests = data'.guests ∧
      convertToMinutes range.start = convertToMinutes range'.start ∧
      convertToMinutes range.stop = convertToMinutes range'.stop := by
  by_cases void : Void range
  · refine .inl ⟨void, ?_⟩
    by_contra proper'
    obtain ⟨a', b', ne', spans'⟩ := spans_of_whole whole' proper'
    exact not_void_of_sameAnswer same.symm asks' asks ne' spans' counted' void
  · obtain ⟨a, b, ne, spans⟩ := spans_of_whole whole void
    obtain ⟨a', b', ne', spans'⟩ := spans_of_whole whole'
      (not_void_of_sameAnswer same asks asks' ne spans counted)
    obtain ⟨σ, unit, proper⟩ := exists_unit ne
    obtain ⟨fits, length⟩ :=
      spans_of_sameAnswer same unit proper asks asks' spans spans' counted counted'
    have proper' : 0 < b' * σ - a' * σ := by rw [length]; exact proper
    obtain ⟨fits', -⟩ :=
      spans_of_sameAnswer same.symm unit proper' asks' asks spans' spans counted' counted
    obtain ⟨date, k, start⟩ :=
      starts_of_sameAnswer same unit proper asks asks' spans spans' counted counted'
    obtain ⟨-, k', start'⟩ :=
      starts_of_sameAnswer same.symm unit proper' asks' asks spans' spans counted' counted
    -- neither range starts later than the other
    have starts : a = a' := by
      rcases unit with rfl | rfl
      · omega
      · omega
    have stops : b = b' := by
      rw [starts] at length
      rcases unit with rfl | rfl
      · omega
      · omega
    refine .inr ⟨date, le_antisymm fits' fits, ?_, ?_⟩
    · rw [spans.start, spans'.start, starts]
    · rw [spans.stop, spans'.stop, stops]

end Minutes

/-! ## Keys and answers -/

theorem sameAnswer_of_alike {isDateString : String → Bool}
    (accepted : data.accepted isDateString = true) (accepted' : data'.accepted isDateString = true)
    (alike : Alike data data') : SameAnswer data data' := by
  unfold Alike at alike
  rcases CheckAvailabilityInput.modes_of_accepted accepted with ⟨time, text⟩ | ⟨range, asks⟩ <;>
  rcases CheckAvailabilityInput.modes_of_accepted accepted' with ⟨time', text'⟩ | ⟨range', asks'⟩
  · rw [text, text'] at alike
    obtain ⟨rfl, guests, dates⟩ := alike
    exact sameAnswer_of_times text text' guests dates
  · rw [text, asks'.text] at alike
    cases alike
  · rw [asks.text, text'] at alike
    cases alike
  · rw [asks.text, asks'.text] at alike
    rcases alike range range' asks.given asks'.given with ⟨void, void'⟩ |
      ⟨date, guests, start, stop⟩
    · exact sameAnswer_of_void asks asks' void void'
    · exact sameAnswer_of_minutes asks asks' date guests start stop

theorem alike_of_sameAnswer {isDateString : String → Bool}
    (accepted : data.accepted isDateString = true) (accepted' : data'.accepted isDateString = true)
    (whole : Whole data) (whole' : Whole data') (same : SameAnswer data data') :
    Alike data data' := by
  unfold Alike
  rcases CheckAvailabilityInput.modes_of_accepted accepted with ⟨time, text⟩ | ⟨range, asks⟩ <;>
  rcases CheckAvailabilityInput.modes_of_accepted accepted' with ⟨time', text'⟩ | ⟨range', asks'⟩
  · rw [text, text']
    obtain ⟨times, guests, dates⟩ := times_of_sameAnswer same text text' whole.guests whole'.guests
    obtain ⟨-, guests', -⟩ := times_of_sameAnswer same.symm text' text whole'.guests whole.guests
    exact ⟨times, le_antisymm guests' guests, dates⟩
  · exact absurd same (not_sameAnswer_of_modes text asks')
  · exact absurd same.symm (not_sameAnswer_of_modes text' asks)
  · rw [asks.text, asks'.text]
    intro _ _ given given'
    rw [asks.given] at given
    rw [asks'.given] at given'
    cases given
    cases given'
    exact ranges_of_sameAnswer same asks asks' (whole.ends asks.text _ asks.given)
      (whole'.ends asks'.text _ asks'.given) whole.guests whole'.guests

/-- Plain inputs with the same key are read the same way. -/
theorem alike_of_plain {isDateString : String → Bool} (plain : data.Plain) (plain' : data'.Plain)
    (accepted : data.accepted isDateString = true) (accepted' : data'.accepted isDateString = true)
    (same : availabilityKey data = availabilityKey data') : Alike data data' := by
  have keys : availabilityKey data.normal = availabilityKey data'.normal := by
    rw [CheckAvailabilityInput.normal_key, CheckAvailabilityInput.normal_key, same]
  obtain ⟨date, time, ranges, guests⟩ := availabilityKey_periods
    (CheckAvailabilityInput.normal_timed accepted plain)
    (CheckAvailabilityInput.normal_timed accepted' plain') keys
  rw [CheckAvailabilityInput.normal_text, CheckAvailabilityInput.normal_text] at time
  unfold Alike
  rw [time]
  cases text : data'.time.text with
  | some time' => exact ⟨rfl, guests, .inl date⟩
  | none =>
    intro range range' given given'
    have ranges' : data.timeRange.toOption = data'.timeRange.toOption := ranges
    rw [given, given'] at ranges'
    cases Option.some.inj ranges'
    exact .inr ⟨date, guests, rfl, rfl⟩

/-- **Keys and answers.**  Inputs with the same key that get through have the same answer if
they are read the same way, as all plain inputs are.  Where the ends of their ranges name
whole minutes, they have it only then. -/
theorem same_key_same_answer (isDateString : String → Bool) (data data' : CheckAvailabilityInput)
    (accepted : data.accepted isDateString = true)
    (accepted' : data'.accepted isDateString = true)
    (same : availabilityKey data = availabilityKey data') :
    (Alike data data' → SameAnswer data data') ∧
      (Whole data → Whole data' → (SameAnswer data data' ↔ Alike data data')) ∧
      (data.Plain → data'.Plain → Alike data data') := by
  refine ⟨sameAnswer_of_alike accepted accepted', ?_, ?_⟩
  · intro whole whole'
    exact ⟨alike_of_sameAnswer accepted accepted' whole whole',
      sameAnswer_of_alike accepted accepted'⟩
  · intro plain plain'
    exact alike_of_plain plain plain' accepted accepted' same

/-- Two guests at six in the evening. -/
def atSix (timeRange : Arg TimeRangeInput) : CheckAvailabilityInput :=
  ⟨"2025-03-10", .given "18:00", timeRange, 2⟩

theorem same_answer_at_six : SameAnswer (atSix .undefined) (atSix .null) := by
  have judged := same_key_same_answer isoDateString (atSix .undefined) (atSix .null)
    (by decide +kernel) (by decide +kernel) (by decide +kernel)
  exact judged.1 (judged.2.2 (.inl rfl) (.inl rfl))

/-- Two guests from six in the evening to no time at all. -/
def sixToNone : CheckAvailabilityInput :=
  ⟨"2025-03-10", .undefined, .given ⟨"18:00", "none"⟩, 2⟩

/-- A time and a range share their key: one is available, the other has no slots. -/
theorem time_shares_range_key :
    ¬ ∀ (isDateString : String → Bool) (data data' : CheckAvailabilityInput),
      data.accepted isDateString = true → data'.accepted isDateString = true →
      availabilityKey data = availabilityKey data' → SameAnswer data data' := by
  intro claim
  have same := claim isoDateString (atSix .undefined) sixToNone (by decide +kernel)
    (by decide +kernel) (by decide +kernel)
  exact not_sameAnswer_of_modes rfl ⟨rfl, rfl⟩ same

end Binary64

end RestaurantAssistant
