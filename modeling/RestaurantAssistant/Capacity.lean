import Mathlib.Data.List.Nodup
import RestaurantAssistant.Mutations

/-!
# Seats and how they are used

The guests of the reservations that a predicate selects are its `load`.  The
check of a new reservation bounds the load of its date and window
(`hasRoom_eq`); since the window contains the start time, it bounds the load of
the slot too (`slot_fits_of_hasRoom`).
-/

namespace RestaurantAssistant

open Awaiting Js

variable {cfg : Config} {T : Tables} {rows : List Reservation} {sel sel' : Reservation → Bool}

/-! ## Loads -/

/-- The guests of the selected reservations. -/
def load (sel : Reservation → Bool) (rows : List Reservation) : Int :=
  ((rows.filter sel).map fun r => r.guests).sum

@[simp] theorem load_nil : load sel [] = 0 := rfl

theorem load_cons {r : Reservation} :
    load sel (r :: rows) = (if sel r then r.guests else 0) + load sel rows := by
  unfold load
  by_cases selected : sel r = true
  · rw [List.filter_cons_of_pos selected, if_pos selected, List.map_cons, List.sum_cons]
  · rw [List.filter_cons_of_neg selected, if_neg selected, zero_add]

theorem load_append {more : List Reservation} :
    load sel (rows ++ more) = load sel rows + load sel more := by
  unfold load
  rw [List.filter_append, List.map_append, List.sum_append]

theorem load_concat {r : Reservation} :
    load sel (rows ++ [r]) = load sel rows + if sel r then r.guests else 0 := by
  rw [load_append, load_cons, load_nil, add_zero]

/-- Selecting fewer rows, of guests that are not negative, is no more load. -/
theorem load_mono (nonneg : ∀ r ∈ rows, 0 ≤ r.guests)
    (imp : ∀ r ∈ rows, sel r = true → sel' r = true) : load sel rows ≤ load sel' rows :=
  sum_filter_mono nonneg imp

theorem load_filter {p : Reservation → Bool} :
    load sel (rows.filter p) = load (fun r => sel r && p r) rows := by
  unfold load
  rw [List.filter_filter]

theorem load_filter_le {p : Reservation → Bool} (nonneg : ∀ r ∈ rows, 0 ≤ r.guests) :
    load sel (rows.filter p) ≤ load sel rows := by
  rw [load_filter]
  refine load_mono nonneg ?_
  intro r _ selected
  exact (Bool.and_eq_true_iff.mp selected).1

/-! ## Comparing with the seats -/

/-- Fewer guests need no more seats. -/
theorem le_seats_of_le {a b : Int} {seats : JsNumber} (le : a ≤ b)
    (fits : (b : JsNumber).le seats = true) : (a : JsNumber).le seats = true := by
  rw [JsNumber.intCast_eq] at fits ⊢
  cases seats with
  | nan => rw [JsNumber.le_nan] at fits; cases fits
  | infinity s => exact fits
  | finite q =>
    rw [JsNumber.le_finite, decide_eq_true_eq] at fits ⊢
    have cast : (a : ℚ) ≤ b := Int.cast_le.mpr le
    linarith

/-- The rows that a check on a date and a window counts. -/
def startsOn (date : String) (startTime endTime : JsNumber) (r : Reservation) : Bool :=
  r.date = date && r.startsIn startTime endTime

theorem occupiedSeats_filter {p : Reservation → Bool} {startTime endTime : JsNumber} :
    occupiedSeats ((rows.filter p).map Reservation.toBooking) startTime endTime =
      load (fun r => p r && r.startsIn startTime endTime) rows := by
  unfold occupiedSeats load
  rw [List.filter_map, List.map_map, List.filter_filter]
  congr 2
  refine List.filter_congr fun r _ => ?_
  rw [Bool.and_comm]
  rfl

/-- The check compares the load of its window with the seats. -/
theorem isSlotAvailable_filter {p : Reservation → Bool} {startTime endTime : JsNumber}
    {guests : Int} :
    isSlotAvailable ((rows.filter p).map Reservation.toBooking) startTime endTime cfg.totalSeats
        (guests : JsNumber) =
      ((load (fun r => p r && r.startsIn startTime endTime) rows + guests : Int) : JsNumber).le
        cfg.totalSeats := by
  rw [isSlotAvailable_eq, occupiedSeats_filter, JsNumber.intCast_add]

theorem isSlotAvailable_bookingsOn {date : String} {startTime endTime : JsNumber} {guests : Int} :
    isSlotAvailable (T.bookingsOn date) startTime endTime cfg.totalSeats (guests : JsNumber) =
      ((load (startsOn date startTime endTime) T.reservations + guests : Int) : JsNumber).le
        cfg.totalSeats :=
  isSlotAvailable_filter

theorem hasRoom_eq {date time : String} {guests : Int} :
    hasRoom cfg T date time guests =
      ((load (startsOn date (convertToMinutes time)
        (convertToMinutes time + cfg.reservationDuration)) T.reservations + guests : Int) :
          JsNumber).le cfg.totalSeats :=
  isSlotAvailable_bookingsOn

/-! ## Slots -/

/-- The reservations of a slot: exactly this date and time. -/
def atSlot (date time : String) (r : Reservation) : Bool := r.date = date && r.time = time

/-- Rows as the service stores them: a time of day and at least one guest. -/
def WellFormed (T : Tables) : Prop :=
  ∀ r ∈ T.reservations, isValidTimeString r.time = true ∧ 1 ≤ r.guests

theorem WellFormed.nonneg (wf : WellFormed T) : ∀ r ∈ T.reservations, 0 ≤ r.guests := by
  intro r member
  have one := (wf r member).2
  omega

/-- A window from a time of day on contains that time. -/
theorem startsIn_self {res : Booking} (valid : isValidTimeString res.time = true)
    (positive : (0 : JsNumber).lt cfg.reservationDuration = true) :
    res.startsIn (convertToMinutes res.time)
      (convertToMinutes res.time + cfg.reservationDuration) = true := by
  obtain ⟨m, -, minutes⟩ := convertToMinutes_of_valid valid
  unfold Booking.startsIn
  rw [minutes]
  cases duration : cfg.reservationDuration with
  | nan => rw [duration] at positive; cases positive
  | infinity s =>
    rw [duration] at positive
    cases s with
    | true => cases positive
    | false =>
      simp only [JsNumber.le_finite, le_refl, decide_true, Bool.true_and]
      rfl
  | finite q =>
    rw [duration, JsNumber.ofNat_eq, JsNumber.lt_finite, decide_eq_true_eq, Nat.cast_zero]
      at positive
    simp only [JsNumber.finite_add, JsNumber.le_finite, JsNumber.lt_finite, le_refl, decide_true,
      Bool.true_and, decide_eq_true_eq]
    linarith

/-- Room in the window from a time on is room at that time. -/
theorem fits_of_available {p : Reservation → Bool} {time : String} {guests : Int}
    (wf : WellFormed T) (positive : (0 : JsNumber).lt cfg.reservationDuration = true)
    (room : isSlotAvailable ((T.reservations.filter p).map Reservation.toBooking)
      (convertToMinutes time) (convertToMinutes time + cfg.reservationDuration) cfg.totalSeats
      (guests : JsNumber) = true) :
    ((load (fun r => p r && r.time = time) T.reservations + guests : Int) : JsNumber).le
      cfg.totalSeats = true := by
  rw [isSlotAvailable_filter] at room
  refine le_seats_of_le ?_ room
  have counted : load (fun r => p r && r.time = time) T.reservations ≤ load (fun r => p r &&
      r.startsIn (convertToMinutes time) (convertToMinutes time + cfg.reservationDuration))
        T.reservations := by
    refine load_mono wf.nonneg ?_
    intro r member same
    simp only [Bool.and_eq_true, decide_eq_true_eq] at same ⊢
    have within := startsIn_self (wf r member).1 positive
    rw [same.2] at within
    exact ⟨same.1, within⟩
  omega

/-- Room in the window is room in the slot. -/
theorem slot_fits_of_hasRoom {date time : String} {guests : Int} (wf : WellFormed T)
    (positive : (0 : JsNumber).lt cfg.reservationDuration = true)
    (room : hasRoom cfg T date time guests = true) :
    ((load (atSlot date time) T.reservations + guests : Int) : JsNumber).le cfg.totalSeats =
      true :=
  fits_of_available wf positive room

/-! ## What accepted inputs store -/

variable {isDateString : String → Bool}

theorem CreateReservationInput.valid_of_accepted {data : CreateReservationInput}
    (accepted : data.accepted isDateString = true) :
    isValidTimeString data.time = true ∧ 1 ≤ data.guests := by
  unfold CreateReservationInput.accepted at accepted
  simp only [Bool.and_eq_true, decide_eq_true_eq, createTimePattern_test] at accepted
  exact ⟨accepted.1.2.2, accepted.2⟩

/-- An accepted update of a stored row gives a row that may be stored. -/
theorem updated_valid {old new : Reservation} {data : UpdateReservationInput}
    (accepted : data.accepted isDateString = true) (saved : old.updated data = some new)
    (before : isValidTimeString old.time = true ∧ 1 ≤ old.guests) :
    isValidTimeString new.time = true ∧ 1 ≤ new.guests := by
  obtain ⟨id, name, date, time, guests⟩ := data
  simp only [UpdateReservationInput.accepted, Bool.and_eq_true] at accepted
  obtain ⟨⟨⟨-, -⟩, timeOk⟩, guestsOk⟩ := accepted
  unfold Reservation.updated at saved
  simp only [Option.bind_eq_bind, Option.bind_eq_some_iff, Option.some.injEq] at saved
  obtain ⟨newDate, -, newTime, timeSaved, newGuests, guestsSaved, rfl⟩ := saved
  refine ⟨Arg.of_assign (P := fun t => isValidTimeString t = true) timeSaved timeOk before.1 ?_,
    Arg.of_assign (P := fun g => 1 ≤ g) guestsSaved guestsOk before.2 ?_⟩
  · intro t ok
    rw [Bool.and_eq_true, createTimePattern_test] at ok
    exact ok.2
  · intro g ok
    exact of_decide_eq_true ok

theorem updated_id {old new : Reservation} {data : UpdateReservationInput}
    (saved : old.updated data = some new) : new.id = data.id := by
  unfold Reservation.updated at saved
  simp only [Option.bind_eq_bind, Option.bind_eq_some_iff, Option.some.injEq] at saved
  obtain ⟨_, _, _, _, _, _, rfl⟩ := saved
  rfl

/-! ## Rows and their ids -/

/-- No two rows have the same id, and the next generated id is still unused. -/
structure Tables.Numbered (T : Tables) : Prop where
  distinct : (T.reservations.map Reservation.id).Nodup
  unused : ∀ r ∈ T.reservations, r.id < T.nextReservation

/-- What `put` and `remove` do to the one row with an id. -/
theorem Tables.Numbered.split {old : Reservation} {id : Int} (numbered : T.Numbered)
    (found : T.find id = some old) :
    ∃ before after, T.reservations = before ++ old :: after ∧
      (T.remove id).reservations = before ++ after ∧
      ∀ new : Reservation, new.id = id → (T.put new).reservations = before ++ new :: after := by
  obtain ⟨sameId, before, after, rows, earlier⟩ := List.find?_eq_some_iff_append.mp found
  replace sameId : old.id = id := of_decide_eq_true sameId
  have other : ∀ r ∈ before ++ after, r.id ≠ id := by
    have distinct := numbered.distinct
    rw [rows, List.map_append, List.map_cons, List.nodup_middle, List.nodup_cons, sameId,
      ← List.map_append] at distinct
    intro r member same
    exact distinct.1 (same ▸ List.mem_map_of_mem member)
  refine ⟨before, after, rows, ?_, ?_⟩
  · have kept : (before ++ after).filter (fun r => r.id ≠ id) = before ++ after :=
      List.filter_eq_self.mpr fun r member => decide_eq_true (other r member)
    unfold Tables.remove
    rw [rows, List.filter_append, List.filter_cons_of_neg (by simp [sameId]), ← List.filter_append,
      kept]
  · intro new newId
    have present : T.reservations.any (fun row => row.id = new.id) = true := by
      rw [rows, List.any_append, List.any_cons, newId, sameId]
      simp
    have unchanged : ∀ rows : List Reservation, (∀ r ∈ rows, r.id ≠ id) →
        rows.map (fun row => if row.id = new.id then new else row) = rows := by
      intro rows others
      refine List.map_congr_left (g := fun row => row) ?_ |>.trans (List.map_id' rows)
      intro row member
      rw [if_neg (newId ▸ others row member)]
    unfold Tables.put
    rw [if_pos present, rows, List.map_append, List.map_cons, if_pos (sameId.trans newId.symm),
      unchanged before fun r member => other r (List.mem_append_left _ member),
      unchanged after fun r member => other r (List.mem_append_right _ member)]

end RestaurantAssistant
