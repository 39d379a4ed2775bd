import RestaurantAssistant.Js.Double
import RestaurantAssistant.Service

/-!
# Times and slots in binary64

What `utils/time.utils.ts`, `utils/reservation.utils.ts` and the service compute with times
and slots, over binary64 numbers.  The other modules compute with exact rationals, which
makes no difference on whole slots (`answered_exactly`); here are the functions for whatever
depends on rounding, on overflow, or on counting where `i++` gets nowhere.

The searches are given the turns they may take; `none` is a search that takes more.  The
only divisors are 60 and the configured slot duration, whose zero has no sign, so that one
zero is enough.
-/

namespace RestaurantAssistant.Binary64

open Js

structure Config where
  totalSeats : Double
  slotDuration : Double
  reservationDuration : Double

/-- What the service takes for settings that are not configured. -/
def Config.default : Config := ⟨10, 30, 60⟩

/-- Minutes since midnight. -/
def convertToMinutes (time : String) : Double :=
  match (time.toList.splitOn ':').map Double.parse with
  | hours :: minutes :: _ => hours * 60 + minutes
  | _ => .nan

/-- The text of a number of minutes since midnight. -/
def convertToTime (minutes : Double) : String :=
  let hours := (minutes / 60).floor
  let mins := minutes % 60
  String.ofList (JsNumber.padStart 2 '0' hours.text ++ ':' :: JsNumber.padStart 2 '0' mins.text)

/-- Does the booking start in the window from `startTime` to before `endTime`? -/
def startsIn (startTime endTime : Double) (res : Booking) : Bool :=
  let resTime := convertToMinutes res.time
  startTime.le resTime && resTime.lt endTime

/-- Is there room for `guests` more beside the bookings starting in the window? -/
def isSlotAvailable (reservations : List Booking)
    (startTime endTime totalSeats guests : Double) : Bool :=
  let occupiedSeats := reservations.foldl
    (fun sum res => if startsIn startTime endTime res then sum + (res.guests : Double) else sum)
    (0 : Double)
  (occupiedSeats + guests).le totalSeats

/-- Slot `i` has room. -/
def slotFree (reservations : List Booking) (slotDuration totalSeats guests : Double)
    (slotsPerReservation i : Double) : Bool :=
  isSlotAvailable reservations (i * slotDuration) ((i + slotsPerReservation) * slotDuration)
    totalSeats guests

def findNearestAvailableSlots (fuel : Nat) (reservations : List Booking)
    (requestedSlot slotDuration totalSeats guests reservationDuration : Double) :
    Option (List Double) := do
  let slotsPerReservation := (reservationDuration / slotDuration).ceil
  let free := slotFree reservations slotDuration totalSeats guests slotsPerReservation
  -- later slots, then earlier slots
  let later ← forFirst (·.lt ((24 * 60) / slotDuration)) free (· + 1) fuel (requestedSlot + 1)
  let earlier ← forFirst (0 : Double).le free (· - 1) fuel (requestedSlot - 1)
  some (later.toList ++ earlier.toList)

def findAvailableSlots (fuel : Nat) (reservations : List Booking)
    (startSlot endSlot slotDuration totalSeats guests reservationDuration : Double) :
    Option (List Double) :=
  let slotsPerReservation := (reservationDuration / slotDuration).ceil
  let free := slotFree reservations slotDuration totalSeats guests slotsPerReservation
  forCollect (·.lt endSlot) free (· + 1) fuel startSlot

/-- What `checkAvailability` computes beside the bookings of the date. -/
def availabilityOf (fuel : Nat) (cfg : Config) (bookings : List Booking)
    (data : CheckAvailabilityInput) : Option CheckAvailabilityOutput :=
  match data.time.text, data.timeRange with
  | some time, _ =>
    let startTime := convertToMinutes time
    let isAvailable := isSlotAvailable bookings startTime (startTime + cfg.reservationDuration)
      cfg.totalSeats (data.guests : Double)
    some
      { message := if isAvailable then "Time slot available" else "Time slot unavailable"
        availableSlots := if isAvailable then [time] else [] }
  | none, .given range =>
    (findAvailableSlots fuel bookings (convertToMinutes range.start / cfg.slotDuration)
      (convertToMinutes range.stop / cfg.slotDuration) cfg.slotDuration cfg.totalSeats
      (data.guests : Double) cfg.reservationDuration).map fun slots =>
        { message := if slots.length > 0 then "Available slots within range"
            else "No available slots in the given range"
          availableSlots := slots.map fun slot => convertToTime (slot * cfg.slotDuration) }
  | none, _ =>
    some
      { message := "Invalid request: Please provide either a specific time or a time range."
        availableSlots := [] }

/-- Is there room for a new reservation, for its whole duration? -/
def hasRoom (cfg : Config) (bookings : List Booking) (data : CreateReservationInput) : Bool :=
  let startTime := convertToMinutes data.time
  isSlotAvailable bookings startTime (startTime + cfg.reservationDuration) cfg.totalSeats
    (data.guests : Double)

/-- The slots `createReservation` suggests; none are looked for where there is room. -/
def suggestionsOf (fuel : Nat) (cfg : Config) (bookings : List Booking)
    (data : CreateReservationInput) : Option (List String) :=
  if hasRoom cfg bookings data then some []
  else
    (findNearestAvailableSlots fuel bookings (convertToMinutes data.time / cfg.slotDuration)
      cfg.slotDuration cfg.totalSeats (data.guests : Double)
      cfg.reservationDuration).map fun slots =>
        slots.map fun slot => convertToTime (slot * cfg.slotDuration)

/-! ## The answers -/

variable {cfg : Config} {bookings : List Booking} {data : CheckAvailabilityInput} {fuel : Nat}
  {time : String} {range : TimeRangeInput}

theorem availabilityOf_time (text : data.time.text = some time) :
    availabilityOf fuel cfg bookings data =
      if isSlotAvailable bookings (convertToMinutes time)
          (convertToMinutes time + cfg.reservationDuration) cfg.totalSeats (data.guests : Double)
      then some ⟨"Time slot available", [time]⟩ else some ⟨"Time slot unavailable", []⟩ := by
  unfold availabilityOf
  rw [text]
  simp only
  split <;> rfl

/-- The slots of a range query. -/
def slotsIn (fuel : Nat) (cfg : Config) (bookings : List Booking) (range : TimeRangeInput)
    (guests : Int) : Option (List Double) :=
  findAvailableSlots fuel bookings (convertToMinutes range.start / cfg.slotDuration)
    (convertToMinutes range.stop / cfg.slotDuration) cfg.slotDuration cfg.totalSeats
    (guests : Double) cfg.reservationDuration

/-- The answer of a range query with these slots. -/
def rangeOutput (cfg : Config) (slots : List Double) : CheckAvailabilityOutput where
  message := if slots.length > 0 then "Available slots within range"
    else "No available slots in the given range"
  availableSlots := slots.map fun slot => convertToTime (slot * cfg.slotDuration)

theorem availabilityOf_range (absent : data.time.text = none)
    (given : data.timeRange = .given range) : availabilityOf fuel cfg bookings data =
      (slotsIn fuel cfg bookings range data.guests).map (rangeOutput cfg) := by
  unfold availabilityOf
  rw [absent, given]
  rfl

/-! ## The nearest slots -/

/-- The search comes back with what its two loops come back with. -/
theorem findNearestAvailableSlots_eq_some_iff {free : Double → Bool}
    {requestedSlot slotDuration totalSeats guests reservationDuration : Double}
    {later earlier : Option Double} {turns turns' : ℕ}
    (isFree : slotFree bookings slotDuration totalSeats guests
      (reservationDuration / slotDuration).ceil = free)
    (up : forFirst (fun i : Double => i.lt ((24 * 60) / slotDuration)) free (· + 1) turns
      (requestedSlot + 1) = some later)
    (down : forFirst (0 : Double).le free (· - 1) turns' (requestedSlot - 1) = some earlier)
    (slots : List Double) :
    (∃ fuel, findNearestAvailableSlots fuel bookings requestedSlot slotDuration totalSeats guests
      reservationDuration = some slots) ↔ slots = later.toList ++ earlier.toList := by
  simp only [findNearestAvailableSlots, isFree]
  constructor
  · rintro ⟨fuel, searched⟩
    obtain ⟨first, here, searched⟩ := Option.bind_eq_some_iff.mp searched
    obtain ⟨second, there, searched⟩ := Option.bind_eq_some_iff.mp searched
    cases searched
    rw [forFirst_unique here up, forFirst_unique there down]
  · rintro rfl
    refine ⟨max turns turns', ?_⟩
    rw [forFirst_of_le up (Nat.le_max_left _ _), forFirst_of_le down (Nat.le_max_right _ _)]
    rfl

end RestaurantAssistant.Binary64
