import RestaurantAssistant.Mutations

/-!
# What the queries do

Both queries read through the cache: return what the key holds, or compute the
answer, store it under the key and return it (`Query.handle_eq`).  The answer is
a function of the reservations (`fresh_eq`), and an undisturbed query returns
the cached value or the fresh one (`eval_query`).
-/

namespace RestaurantAssistant

open Awaiting Js

variable {db : QueryEngine} {cfg : Config} {rounds : Nat}

/-! ## Computing the answers -/

/-- The answer to an availability query beside the given bookings of its date;
`none` if the search for slots does not end. -/
def availabilityOf (cfg : Config) (bookings : List Booking) (data : CheckAvailabilityInput) :
    Option CheckAvailabilityOutput :=
  match data.time.text, data.timeRange with
  | some time, _ =>
    let startTime := convertToMinutes time
    let isAvailable := isSlotAvailable bookings startTime (startTime + cfg.reservationDuration)
      cfg.totalSeats (data.guests : JsNumber)
    some
      { message := if isAvailable then "Time slot available" else "Time slot unavailable"
        availableSlots := if isAvailable then [time] else [] }
  | none, .given range =>
    (findAvailableSlots bookings (convertToMinutes range.start / cfg.slotDuration)
      (convertToMinutes range.stop / cfg.slotDuration) cfg.slotDuration cfg.totalSeats
      (data.guests : JsNumber) cfg.reservationDuration).map fun slots =>
        { message := if slots.length > 0 then "Available slots within range"
            else "No available slots in the given range"
          availableSlots := slots.map fun slot => convertToTime (slot * cfg.slotDuration) }
  | none, _ =>
    some
      { message := "Invalid request: Please provide either a specific time or a time range."
        availableSlots := [] }

/-- The answer of a query as a function of the reservations. -/
def Query.answer (db : QueryEngine) (cfg : Config) (reservations : List Reservation) :
    Query → Option QueryOutput
  | .getReservations filter pagination sort =>
    let query := listingQuery filter pagination sort
    some (.reservations ⟨db.getMany query reservations, ⟨db.getCount query reservations⟩⟩)
  | .checkAvailability data =>
    (availabilityOf cfg
      ((reservations.filter fun r => r.date = data.date).map Reservation.toBooking) data).map
        .availability

/-- The repository calls of a query and its answer. -/
def Query.compute (cfg : Config) : Query → Async api QueryOutput
  | .getReservations filter pagination sort => do
    let query := listingQuery filter pagination sort
    let items ← reservationRepo.getMany query
    let totalItems ← reservationRepo.getCount query
    pure (.reservations ⟨items, ⟨totalItems⟩⟩)
  | .checkAvailability data => do
    let rows ← reservationRepo.find data.date
    match availabilityOf cfg (rows.map Reservation.toBooking) data with
    | none => .diverge
    | some out => pure (.availability out)

/-- The exception a query fails with. -/
def Query.failure : Query → Exn
  | .getReservations _ _ _ => .internalServerError "Failed to fetch reservations"
  | .checkAvailability _ => .internalServerError "Failed to check availability"

/-- Return what the key holds, or compute the answer and store it. -/
def readThrough (key : String) (compute : Async api QueryOutput) (failure : Exn) :
    Async api QueryOutput :=
  Async.tryCatch (do
    match ← redisService.get key with
    | some cached => pure cached
    | none =>
      let result ← compute
      redisService.set key result 300
      pure result)
    fun _ => .throw failure

/-- A time query names a time, a range query does not. -/
theorem CheckAvailabilityInput.timed_cases {data : CheckAvailabilityInput}
    (timed : data.timed = true) :
    (∃ time, data.time = .given time ∧ isValidTimeString time = true ∧
      data.timeRange.toOption = none) ∨
    (∃ range, data.time.toOption = none ∧ data.timeRange = .given range ∧
      isValidTimeString range.start = true ∧ isValidTimeString range.stop = true) := by
  obtain ⟨date, time, range, guests⟩ := data
  unfold CheckAvailabilityInput.timed at timed
  rcases time with _ | _ | time <;> rcases range with _ | _ | range <;>
    simp only [queryTimePattern_test, Bool.false_eq_true, Bool.and_eq_true] at timed
  · exact .inr ⟨range, rfl, rfl, timed⟩
  · exact .inr ⟨range, rfl, rfl, timed⟩
  · exact .inl ⟨time, rfl, timed, rfl⟩
  · exact .inl ⟨time, rfl, timed, rfl⟩

/-- **Every query reads through the cache.** -/
theorem Query.handle_eq {q : Query} (conform : q.conform = true) :
    q.handle cfg = readThrough q.key (q.compute cfg) q.failure := by
  cases q with
  | getReservations filter pagination sort =>
    unfold Query.handle RestaurantAssistant.getReservations readThrough Query.compute
    simp only [Async.bind_assoc]
    rfl
  | checkAvailability data =>
    unfold Query.handle RestaurantAssistant.checkAvailability readThrough Query.compute
      availabilityOf
    simp only [Async.bind_assoc]
    congr 2
    funext cached
    cases cached with
    | some value => rfl
    | none =>
      simp only
      congr 1
      funext rows
      rcases data.timed_cases conform with ⟨time, given, valid, _⟩ | ⟨range, absent, given, _⟩
      · rw [given, text_of_valid valid]
        rfl
      · rw [given, text_of_toOption absent]
        simp only
        generalize findAvailableSlots _ _ _ _ _ _ _ = found
        cases found <;> rfl

/-! ## The answers -/

/-- Without a cache an availability query computes its answer, whatever its times. -/
theorem direct_checkAvailability {T : Tables} {data : CheckAvailabilityInput} :
    direct db (checkAvailability cfg data) T =
      (availabilityOf cfg (T.bookingsOn data.date) data).map fun out =>
        (.ok (.availability out), T) := by
  unfold checkAvailability availabilityOf Tables.bookingsOn
  simp only [redisService.get, reservationRepo.find, Async.call, Async.await_bind,
    Async.tryCatch_await, direct_get, direct_db, Tables.answer, ofExcept_ok, Async.pure_bind]
  rcases data.time.text with _ | time
  · rcases data.timeRange with _ | _ | range
    · rfl
    · rfl
    · simp only
      generalize findAvailableSlots _ _ _ _ _ _ _ = found
      cases found <;> rfl
  · rfl

/-- Without a cache a query computes its answer and leaves the tables alone. -/
theorem direct_query {T : Tables} {q : Query} :
    direct db (q.handle cfg) T =
      (q.answer db cfg T.reservations).map fun out => (.ok out, T) := by
  cases q with
  | getReservations filter pagination sort => rfl
  | checkAvailability data =>
    unfold Query.handle Query.answer
    rw [direct_checkAvailability, Option.map_map]
    rfl

/-- The fresh answer looks at the reservations only. -/
theorem fresh_eq {T : Tables} {q : Query} :
    fresh db cfg T q = q.answer db cfg T.reservations := by
  unfold fresh
  rw [direct_query]
  cases q.answer db cfg T.reservations <;> rfl

theorem fresh_availability {T : Tables} {data : CheckAvailabilityInput} :
    fresh db cfg T (.checkAvailability data) =
      (availabilityOf cfg (T.bookingsOn data.date) data).map .availability := fresh_eq

/-- An undisturbed query returns what the cache holds, or caches and returns the
fresh answer. -/
theorem eval_query {q : Query} (conform : q.conform = true) {w w' : World}
    {out : Except Exn QueryOutput} :
    Eval (interp db) (q.handle cfg) w out w' ↔
      (∃ v, w.redis.get q.key = some v ∧ out = .ok v ∧ w' = w) ∨
      (w.redis.get q.key = none ∧ ∃ v, fresh db cfg w.tables q = some v ∧ out = .ok v ∧
        w' = { w with redis := w.redis.set q.key v }) := by
  rw [Query.handle_eq conform, fresh_eq]
  simp only [readThrough, redisService.get, Async.call, Async.await_bind, Async.tryCatch_await,
    eval_get, ofExcept_ok, Async.pure_bind]
  cases w.redis.get q.key with
  | some v => simp [Eval.pure_iff]
  | none =>
    simp only [reduceCtorEq, false_and, exists_false, false_or, true_and]
    cases q with
    | getReservations filter pagination sort =>
      simp [Query.compute, Tables.answer, Query.answer, Eval.pure_iff]
    | checkAvailability data =>
      simp only [Query.compute, reservationRepo.find, Async.call, Async.await_bind,
        Async.tryCatch_await, eval_db, Tables.answer, ofExcept_ok, Async.pure_bind, Query.answer,
        Tables.on]
      generalize availabilityOf _ _ _ = found
      cases found with
      | none => simp [Eval.not_diverge]
      | some out => simp [Eval.pure_iff]

end RestaurantAssistant
