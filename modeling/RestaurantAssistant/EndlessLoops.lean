import RestaurantAssistant.Loops
import RestaurantAssistant.TimeCodec

/-!
# Loops without end

The slot loops count with `i++` and `i--`, and in binary64 not every number has a successor
of its own: an infinity has none, and from `2 ^ 53` on most numbers are rounded back to
themselves.  A loop that comes to such a number stays there (`loops_end_iff`).

Times of day and slots of whole minutes lead to none (`loops_end_of_declared`).  But the
pipe lets ranges of any two texts through, such as one to `Infinity:00`
(`loop_to_infinity`).
-/

namespace RestaurantAssistant.Binary64

open Js

variable {cfg : Config} {T : Tables} {fuel : Nat} {m d : ℕ}

/-! ## The searches -/

/-- Slot `i` has room for the guests. -/
def hasRoomAt (cfg : Config) (bookings : List Booking) (guests : Int) : Double → Bool :=
  slotFree bookings cfg.slotDuration cfg.totalSeats (guests : Double)
    (cfg.reservationDuration / cfg.slotDuration).ceil

theorem findNearestAvailableSlots_isSome_iff {reservations : List Booking}
    {requestedSlot slotDuration totalSeats guests reservationDuration : Double}
    {free : Double → Bool} (same : slotFree reservations slotDuration totalSeats guests
      (reservationDuration / slotDuration).ceil = free) :
    (∃ fuel, (findNearestAvailableSlots fuel reservations requestedSlot slotDuration totalSeats
      guests reservationDuration).isSome = true) ↔
    (∃ fuel, (forFirst (fun i : Double => i.lt ((24 * 60) / slotDuration)) free (· + 1) fuel
      (requestedSlot + 1)).isSome = true) ∧
    ∃ fuel, (forFirst (0 : Double).le free (· - 1) fuel (requestedSlot - 1)).isSome = true := by
  constructor
  · rintro ⟨fuel, ended⟩
    obtain ⟨slots, ended⟩ := Option.isSome_iff_exists.mp ended
    simp only [findNearestAvailableSlots, same] at ended
    obtain ⟨later, up, ended⟩ := Option.bind_eq_some_iff.mp ended
    obtain ⟨earlier, down, -⟩ := Option.bind_eq_some_iff.mp ended
    exact ⟨⟨fuel, Option.isSome_of_eq_some up⟩, fuel, Option.isSome_of_eq_some down⟩
  · rintro ⟨⟨fuel, up⟩, fuel', down⟩
    obtain ⟨later, up⟩ := Option.isSome_iff_exists.mp up
    obtain ⟨earlier, down⟩ := Option.isSome_iff_exists.mp down
    obtain ⟨turns, searched⟩ := (findNearestAvailableSlots_eq_some_iff same up down _).mpr rfl
    exact ⟨turns, Option.isSome_of_eq_some searched⟩

/-! ## The requests that run the loops -/

/-- Every loop that serving the request runs comes to its end. -/
def LoopsEnd (cfg : Config) (T : Tables) : Request → Prop
  | .query (.checkAvailability data) =>
    ∃ fuel, (availabilityOf fuel cfg (T.bookingsOn data.date) data).isSome = true
  | .mutation (.createReservation data) =>
    ∃ fuel, (suggestionsOf fuel cfg (T.bookingsOn data.date) data).isSome = true
  | _ => True

/-- No number in the range is its own successor.  Where a reservation has no room, this is so
after the requested slot, and before it no number is its own predecessor, unless a slot that
has room comes first. -/
def Bounded (cfg : Config) (T : Tables) : Request → Prop
  | .query (.checkAvailability data) => data.time.text = none → ∀ range,
    data.timeRange = .given range →
      Double.PassesUp (convertToMinutes range.start / cfg.slotDuration)
        (convertToMinutes range.stop / cfg.slotDuration)
  | .mutation (.createReservation data) =>
    let slot := convertToMinutes data.time / cfg.slotDuration
    let bound := (24 * 60) / cfg.slotDuration
    let free := hasRoomAt cfg (T.bookingsOn data.date) data.guests
    hasRoom cfg (T.bookingsOn data.date) data = false →
      (Double.PassesUp (slot + 1) bound ∨
        ∃ k, ((· + 1)^[k] (slot + 1)).lt bound = true ∧ free ((· + 1)^[k] (slot + 1)) = true) ∧
      (Double.PassesDown (slot - 1) ∨
        ∃ k, (0 : Double).le ((· - 1)^[k] (slot - 1)) = true ∧
          free ((· - 1)^[k] (slot - 1)) = true)
  | _ => True

theorem availability_ends_iff {data : CheckAvailabilityInput} {bookings : List Booking} :
    (∃ fuel, (availabilityOf fuel cfg bookings data).isSome = true) ↔
      (data.time.text = none → ∀ range, data.timeRange = .given range →
        Double.PassesUp (convertToMinutes range.start / cfg.slotDuration)
          (convertToMinutes range.stop / cfg.slotDuration)) := by
  cases text : data.time.text with
  | some time =>
    have answered : (availabilityOf 0 cfg bookings data).isSome = true := by
      rw [availabilityOf_time text]
      split <;> rfl
    refine iff_of_true ⟨0, answered⟩ ?_
    intro absent
    cases absent
  | none =>
    cases given : data.timeRange with
    | undefined =>
      have answered : (availabilityOf 0 cfg bookings data).isSome = true := by
        rw [availabilityOf, text, given]
        rfl
      refine iff_of_true ⟨0, answered⟩ ?_
      intro _ range given
      cases given
    | null =>
      have answered : (availabilityOf 0 cfg bookings data).isSome = true := by
        rw [availabilityOf, text, given]
        rfl
      refine iff_of_true ⟨0, answered⟩ ?_
      intro _ range given
      cases given
    | given range =>
      simp only [availabilityOf_range text given, Option.isSome_map, Arg.given.injEq, forall_eq',
        forall_const]
      unfold slotsIn findAvailableSlots
      rw [forCollect_ends_iff, Double.counts_up_iff]

theorem suggestions_end_iff {data : CreateReservationInput} {bookings : List Booking} :
    (∃ fuel, (suggestionsOf fuel cfg bookings data).isSome = true) ↔
      (hasRoom cfg bookings data = false → ∃ fuel, (findNearestAvailableSlots fuel bookings
        (convertToMinutes data.time / cfg.slotDuration) cfg.slotDuration cfg.totalSeats
        (data.guests : Double) cfg.reservationDuration).isSome = true) := by
  unfold suggestionsOf
  cases hasRoom cfg bookings data with
  | true => simp
  | false => simp

/-- **The loops end** exactly if they come to no number at which they stay. -/
theorem loops_end_iff (cfg : Config) (T : Tables) (r : Request) :
    LoopsEnd cfg T r ↔ Bounded cfg T r := by
  rcases r with (_ | data) | data | id | data
  · exact Iff.rfl
  · exact availability_ends_iff
  · refine suggestions_end_iff.trans (imp_congr_right fun _ => ?_)
    rw [findNearestAvailableSlots_isSome_iff rfl, forFirst_ends_iff, forFirst_ends_iff,
      Double.counts_up_iff, Double.counts_down_iff]
    exact Iff.rfl
  · exact Iff.rfl
  · exact Iff.rfl

/-! ## Requests as declared -/

/-- The slots of the day are within the range of the whole numbers. -/
theorem slot_within (positive : 0 < d) (small : d ≤ 2 ^ 53) (day : m ≤ 1440) :
    (Double.ofInt (-2 ^ 53)).le (Double.ofInt m / .ofInt d) = true ∧
      (Double.ofInt m / .ofInt d).le (.ofInt (2 ^ 53)) = true := by
  have digits : |(m : ℤ)| ≤ 2 ^ 53 := by
    rw [Nat.abs_cast]
    omega
  obtain ⟨below, above⟩ := abs_le.mp (Binary64.abs_div_le positive digits)
  have least : ((-2 ^ 53 : ℤ) : ℚ) ≤ ((m : ℤ) : ℚ) / d := by
    rw [Int.cast_neg]
    exact below
  have low := Binary64.le_nearest_of_le (Binary64.representable_intCast (by norm_num)) least
  have high := Binary64.nearest_le_of_le (Binary64.representable_intCast (by norm_num)) above
  unfold Double.le
  rw [Double.ofInt_div digits positive small, Double.ofInt_number (n := -2 ^ 53) (by norm_num),
    Double.ofInt_number (n := 2 ^ 53) (by norm_num), JsNumber.le_finite, JsNumber.le_finite]
  exact ⟨decide_eq_true low, decide_eq_true high⟩

/-- Between times of day and with slots of whole minutes, **every loop ends**. -/
theorem loops_end_of_declared {r : Request} (positive : 0 < d) (small : d ≤ 2 ^ 53)
    (slots : cfg.slotDuration = .ofInt d) (declared : r.TimesOfDay) : LoopsEnd cfg T r := by
  rw [loops_end_iff]
  rcases r with (_ | data) | data | id | data
  · trivial
  · intro absent range given
    obtain ⟨start, stop⟩ := declared absent range given
    obtain ⟨m, day, -, start⟩ := convertToMinutes_of_valid start
    obtain ⟨n, day', -, stop⟩ := convertToMinutes_of_valid stop
    rw [start, stop, slots]
    exact Double.passesUp_of_le (slot_within positive small day.le).1
      (slot_within positive small day'.le).2
  · obtain ⟨m, day, -, minutes⟩ := convertToMinutes_of_valid declared
    have slot := slot_within positive small day.le
    have last := slot_within (m := 1440) positive small le_rfl
    simp only [Bounded]
    rw [minutes, slots, minutes_of_day]
    intro _
    constructor
    · have next := Double.le_add_one (Double.ne_nan_of_le slot.2)
      exact .inl (Double.passesUp_of_le (Double.le_trans slot.1 next) last.2)
    · have previous := Double.sub_one_le (Double.ne_nan_of_le slot.2)
      exact .inl (Double.passesDown_of_le (Double.le_trans previous slot.2))
  · trivial
  · trivial

/-- From midnight to no end. -/
def toInfinity : CheckAvailabilityInput :=
  ⟨"2025-03-10", .undefined, .given ⟨"00:00", "Infinity:00"⟩, 2⟩

/-- A range to infinity gets through the pipe, and its loop does not end. -/
theorem loop_to_infinity :
    ¬ ∀ (cfg : Config) (T : Tables) (isDateString : String → Bool) (r : Request), WellFormed T →
      r.accepted isDateString = true → LoopsEnd cfg T r := by
  intro claim
  have wf : WellFormed .empty := by
    intro r member
    cases member
  have accepted : (Request.query (.checkAvailability toInfinity)).accepted isoDateString =
      true := by
    decide +kernel
  have passes := (loops_end_iff _ _ _).mp (claim .default .empty _ _ wf accepted) rfl _ rfl
  -- the loop comes to a number that is its own successor
  apply passes (.ofInt (2 ^ 53))
  · decide +kernel
  · decide +kernel
  · decide +kernel

end RestaurantAssistant.Binary64
