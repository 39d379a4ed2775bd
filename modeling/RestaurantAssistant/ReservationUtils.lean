import Mathlib.Algebra.BigOperators.Group.List.Basic
import Mathlib.Algebra.Order.BigOperators.Group.List
import RestaurantAssistant.Js.For
import RestaurantAssistant.TimeUtils

/-!
# Slot availability (`utils/reservation.utils.ts`)

`isSlotAvailable` sums the guests of the bookings that start in a window;
`findNearestAvailableSlots` and `findAvailableSlots` search slot numbers for a
window with room.  Slot numbers are quotients of minutes by the slot duration
and need not be whole.

The searches are loops over JavaScript numbers, and not every bound ends them:
each loop runs on as many steps as an ending run of it can take, and `none` is
a loop that does not end.
-/

namespace RestaurantAssistant

open Js

/-- The part of a reservation the utilities look at. -/
structure Booking where
  time : String
  guests : Int
  deriving DecidableEq

/-- Does the booking start in the window from `startTime` to before `endTime`? -/
def Booking.startsIn (startTime endTime : JsNumber) (res : Booking) : Bool :=
  let resTime := convertToMinutes res.time
  startTime.le resTime && resTime.lt endTime

/-- Is there room for `guests` more beside the bookings starting in the window? -/
def isSlotAvailable (reservations : List Booking)
    (startTime endTime totalSeats guests : JsNumber) : Bool :=
  let occupiedSeats := reservations.foldl
    (fun sum res => if res.startsIn startTime endTime then sum + (res.guests : JsNumber) else sum)
    (0 : JsNumber)
  (occupiedSeats + guests).le totalSeats

/-! ## The loops -/

/-- `for (let i = …; i < bound; i++)`, collecting the free slots. -/
def collectUp (free : JsNumber → Bool) (bound : JsNumber) : Nat → JsNumber →
    Option (List JsNumber)
  | 0, i => if i.lt bound then none else some []
  | fuel + 1, i =>
    if i.lt bound then
      (collectUp free bound fuel (i + 1)).map fun rest => if free i then i :: rest else rest
    else some []

/-- `for (let i = …; i < bound; i++)`, leaving at the first free slot. -/
def firstUp (free : JsNumber → Bool) (bound : JsNumber) : Nat → JsNumber →
    Option (Option JsNumber)
  | 0, i => if i.lt bound then none else some none
  | fuel + 1, i =>
    if i.lt bound then
      if free i then some (some i) else firstUp free bound fuel (i + 1)
    else some none

/-- `for (let i = …; i >= 0; i--)`, leaving at the first free slot. -/
def firstDown (free : JsNumber → Bool) : Nat → JsNumber → Option (Option JsNumber)
  | 0, i => if (0 : JsNumber).le i then none else some none
  | fuel + 1, i =>
    if (0 : JsNumber).le i then
      if free i then some (some i) else firstDown free fuel (i - 1)
    else some none

/-- The steps from `i` up to `bound`.  An infinite `i` is its own successor, so
that one step shows whether the loop ends. -/
def stepsUp : JsNumber → JsNumber → Nat
  | .finite i, .finite bound => ⌈bound - i⌉.toNat
  | _, _ => 1

/-- The steps from `i` down to zero. -/
def stepsDown : JsNumber → Nat
  | .finite i => (⌊i⌋ + 1).toNat
  | _ => 1

/-- Slot `i` has room: the window is the reservation's duration rounded up to
whole slots. -/
def slotFree (reservations : List Booking) (slotDuration totalSeats guests : JsNumber)
    (slotsPerReservation i : JsNumber) : Bool :=
  isSlotAvailable reservations (i * slotDuration) ((i + slotsPerReservation) * slotDuration)
    totalSeats guests

def findNearestAvailableSlots (reservations : List Booking)
    (requestedSlot slotDuration totalSeats guests reservationDuration : JsNumber) :
    Option (List JsNumber) := do
  let slotsPerReservation := (reservationDuration / slotDuration).ceil
  let free := slotFree reservations slotDuration totalSeats guests slotsPerReservation
  let bound := (24 * 60 : JsNumber) / slotDuration
  -- later slots, then earlier slots
  let later ← firstUp free bound (stepsUp (requestedSlot + 1) bound) (requestedSlot + 1)
  let earlier ← firstDown free (stepsDown (requestedSlot - 1)) (requestedSlot - 1)
  some (later.toList ++ earlier.toList)

def findAvailableSlots (reservations : List Booking)
    (startSlot endSlot slotDuration totalSeats guests reservationDuration : JsNumber) :
    Option (List JsNumber) :=
  let slotsPerReservation := (reservationDuration / slotDuration).ceil
  let free := slotFree reservations slotDuration totalSeats guests slotsPerReservation
  collectUp free endSlot (stepsUp startSlot endSlot) startSlot

/-! ## What the availability check counts -/

/-- Selecting less, of summands that are not negative, is no larger sum. -/
theorem sum_filter_mono {β : Type} {f : β → Int} {l : List β} {p q : β → Bool}
    (nonneg : ∀ b ∈ l, 0 ≤ f b) (imp : ∀ b ∈ l, p b = true → q b = true) :
    ((l.filter p).map f).sum ≤ ((l.filter q).map f).sum := by
  have again : l.filter p = (l.filter q).filter p := by
    rw [List.filter_filter]
    refine List.filter_congr ?_
    intro b member
    cases selected : p b with
    | false => rfl
    | true => rw [imp b member selected, Bool.and_true]
  rw [again]
  refine List.Sublist.sum_le_sum (List.filter_sublist.map f) ?_
  intro x member
  obtain ⟨b, selected, rfl⟩ := List.mem_map.mp member
  exact nonneg b (List.mem_filter.mp selected).1

/-- The guests of the bookings that start in the window. -/
def occupiedSeats (reservations : List Booking) (startTime endTime : JsNumber) : Int :=
  ((reservations.filter (Booking.startsIn startTime endTime)).map Booking.guests).sum

theorem isSlotAvailable_eq (reservations : List Booking)
    (startTime endTime totalSeats guests : JsNumber) :
    isSlotAvailable reservations startTime endTime totalSeats guests =
      ((occupiedSeats reservations startTime endTime : JsNumber) + guests).le totalSeats := by
  -- the accumulator runs ahead of the sum over the bookings still to come
  have fold : ∀ (l : List Booking) (acc : Int),
      l.foldl (fun sum res =>
          if res.startsIn startTime endTime then sum + (res.guests : JsNumber) else sum)
        (acc : JsNumber) = ((acc + occupiedSeats l startTime endTime : Int) : JsNumber) := by
    intro l
    induction l with
    | nil =>
      intro acc
      simp [occupiedSeats]
    | cons res rest ih =>
      intro acc
      by_cases counted : res.startsIn startTime endTime = true
      · have step : (acc : JsNumber) + (res.guests : JsNumber) =
            ((acc + res.guests : Int) : JsNumber) := by
          simp only [JsNumber.intCast_eq, JsNumber.finite_add, Int.cast_add]
        rw [List.foldl_cons, if_pos counted, step, ih, occupiedSeats, occupiedSeats,
          List.filter_cons_of_pos counted, List.map_cons, List.sum_cons, add_assoc]
      · rw [List.foldl_cons, if_neg counted, ih, occupiedSeats, occupiedSeats,
          List.filter_cons_of_neg counted]
  have whole := fold reservations 0
  rw [zero_add] at whole
  unfold isSlotAvailable
  rw [← whole]
  rfl

theorem startsIn_finite {res : Booking} {m : Nat} {a b : ℚ}
    (start : convertToMinutes res.time = .finite m) :
    res.startsIn (.finite a) (.finite b) = true ↔ a ≤ m ∧ (m : ℚ) < b := by
  simp [Booking.startsIn, start]

/-! ## What the searches return -/

section Searches

variable {free : JsNumber → Bool} {bound x : JsNumber} {fuel : Nat} {a : ℚ}

theorem finite_add_one (a : ℚ) : JsNumber.finite a + 1 = .finite (a + 1) := by
  rw [show (1 : JsNumber) = .finite (1 : Nat) from rfl, JsNumber.finite_add, Nat.cast_one]

theorem finite_sub_one (a : ℚ) : JsNumber.finite a - 1 = .finite (a - 1) := by
  rw [show (1 : JsNumber) = .finite (1 : Nat) from rfl, JsNumber.finite_sub, Nat.cast_one]

/-- The counter of `i++`. -/
theorem iterate_add_one (a : ℚ) (k : Nat) :
    (· + 1)^[k] (JsNumber.finite a) = .finite (a + k) := by
  induction k generalizing a with
  | zero => rw [Function.iterate_zero_apply, Nat.cast_zero, add_zero]
  | succ k ih =>
    rw [Function.iterate_succ_apply, finite_add_one, ih]
    push_cast
    congr 1
    ring

/-- The counter of `i--`. -/
theorem iterate_sub_one (a : ℚ) (k : Nat) :
    (· - 1)^[k] (JsNumber.finite a) = .finite (a - k) := by
  induction k generalizing a with
  | zero => rw [Function.iterate_zero_apply, Nat.cast_zero, sub_zero]
  | succ k ih =>
    rw [Function.iterate_succ_apply, finite_sub_one, ih]
    push_cast
    congr 1
    ring

theorem collectUp_eq (free : JsNumber → Bool) (bound : JsNumber) (fuel : Nat) (i : JsNumber) :
    collectUp free bound fuel i = forCollect (·.lt bound) free (· + 1) fuel i := by
  induction fuel generalizing i with
  | zero => rfl
  | succ fuel ih => rw [collectUp, forCollect, ih]

theorem firstUp_eq (free : JsNumber → Bool) (bound : JsNumber) (fuel : Nat) (i : JsNumber) :
    firstUp free bound fuel i = forFirst (·.lt bound) free (· + 1) fuel i := by
  induction fuel generalizing i with
  | zero => rfl
  | succ fuel ih => rw [firstUp, forFirst, ih]

theorem firstDown_eq (free : JsNumber → Bool) (fuel : Nat) (i : JsNumber) :
    firstDown free fuel i = forFirst (0 : JsNumber).le free (· - 1) fuel i := by
  induction fuel generalizing i with
  | zero => rfl
  | succ fuel ih => rw [firstDown, forFirst, ih]

/-- A slot the range search returns is some steps above its start, below its
bound, and free. -/
theorem mem_of_collectUp {slots : List JsNumber}
    (found : collectUp free bound fuel (.finite a) = some slots) (member : x ∈ slots) :
    ∃ k : Nat, x = .finite (a + k) ∧ x.lt bound = true ∧ free x = true := by
  rw [collectUp_eq] at found
  obtain ⟨n, stops, rfl⟩ := of_forCollect found
  obtain ⟨turn, here⟩ := List.mem_filter.mp member
  obtain ⟨k, earlier, rfl⟩ := List.mem_map.mp turn
  exact ⟨k, iterate_add_one a k, stops.turns k (List.mem_range.mp earlier), here⟩

/-- The search for a later slot has seen none that is free before the one it leaves at. -/
theorem of_firstUp (found : firstUp free bound fuel (.finite a) = some (some x)) :
    ∃ k : Nat, x = .finite (a + k) ∧ x.lt bound = true ∧ free x = true ∧
      ∀ j < k, free (.finite (a + j)) = false := by
  rw [firstUp_eq] at found
  obtain ⟨k, same, below, here, before⟩ := of_forFirst_some found
  simp only [iterate_add_one] at same before
  exact ⟨k, same, below, here, before⟩

theorem of_firstDown (found : firstDown free fuel (.finite a) = some (some x)) :
    ∃ k : Nat, x = .finite (a - k) ∧ (0 : JsNumber).le x = true ∧ free x = true ∧
      ∀ j < k, free (.finite (a - j)) = false := by
  rw [firstDown_eq] at found
  obtain ⟨k, same, above, here, before⟩ := of_forFirst_some found
  simp only [iterate_sub_one] at same before
  exact ⟨k, same, above, here, before⟩

end Searches

end RestaurantAssistant
