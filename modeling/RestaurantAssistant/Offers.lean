import RestaurantAssistant.CacheTransparency
import RestaurantAssistant.Loops
import RestaurantAssistant.SequentialCapacity

/-!
# Offered times are honoured

A start time that `checkAvailability` or the suggestions of `createReservation`
offer is a time of day, and a reservation for it is stored if it comes next.

The searches test windows of whole slots, from slot numbers that need not be
whole; a reservation tests the window of its exact duration from the time as it
was written out.  The time read back is the start of the slot, and its window
lies in the one the search tested (`room_of_slotFree`).
-/

namespace RestaurantAssistant

open Awaiting Js

variable {db : QueryEngine} {cfg : Config} {rounds : Nat} {w w' : World} {T : Tables}
  {S D : Nat} {date time : String} {guests : Int}

/-- The time is a time of day with room for the guests. -/
def Honoured (cfg : Config) (T : Tables) (date : String) (guests : Int) (time : String) : Prop :=
  isValidTimeString time = true ∧ hasRoom cfg T date time guests = true

/-! ## From slots to times -/

/-- Whole slots cover the duration. -/
theorem duration_le_slots (positive : 0 < S) : (D : ℚ) ≤ ⌈(D : ℚ) / S⌉ * S := by
  have pos : (0 : ℚ) < S := Nat.cast_pos.mpr positive
  calc (D : ℚ) = D / S * S := (div_mul_cancel₀ _ pos.ne').symm
    _ ≤ ⌈(D : ℚ) / S⌉ * S := mul_le_mul_of_nonneg_right (Int.le_ceil _) pos.le

/-- What a search counts for the slot that starts at minute `m`. -/
theorem slotFree_eq {m : Nat} {x : ℚ} (slots : cfg.slotDuration = (S : JsNumber))
    (positive : 0 < S) (duration : cfg.reservationDuration = (D : JsNumber)) (start : x * S = m) :
    slotFree (T.bookingsOn date) cfg.slotDuration cfg.totalSeats (guests : JsNumber)
        (cfg.reservationDuration / cfg.slotDuration).ceil (.finite x) =
      ((load (startsOn date (.finite m) (.finite (m + ⌈(D : ℚ) / S⌉ * S))) T.reservations + guests :
        Int) : JsNumber).le cfg.totalSeats := by
  have pos : (S : ℚ) ≠ 0 := Nat.cast_ne_zero.mpr positive.ne'
  have minutes : JsNumber.finite x * cfg.slotDuration = .finite m := by
    rw [slots, JsNumber.natCast_eq, JsNumber.finite_mul, start]
  have window : (JsNumber.finite x + (cfg.reservationDuration / cfg.slotDuration).ceil) *
      cfg.slotDuration = .finite (m + ⌈(D : ℚ) / S⌉ * S) := by
    rw [slots, duration, JsNumber.natCast_eq, JsNumber.natCast_eq, JsNumber.finite_div pos,
      JsNumber.ceil_finite, JsNumber.finite_add, JsNumber.finite_mul, add_mul, start]
  unfold slotFree
  rw [window, minutes, isSlotAvailable_bookingsOn]

/-- What the check of a reservation at minute `m` counts. -/
theorem hasRoom_convertToTime {m : Nat} (duration : cfg.reservationDuration = (D : JsNumber)) :
    hasRoom cfg T date (convertToTime (.finite m)) guests =
      ((load (startsOn date (.finite m) (.finite (m + D))) T.reservations + guests : Int) :
        JsNumber).le cfg.totalSeats := by
  rw [hasRoom_eq, convertToMinutes_convertToTime, duration, JsNumber.natCast_eq,
    JsNumber.finite_add]

/-- A free slot that starts at a minute of the day is a time with room. -/
theorem room_of_slotFree {m : Nat} {x : ℚ} (slots : cfg.slotDuration = (S : JsNumber))
    (positive : 0 < S) (duration : cfg.reservationDuration = (D : JsNumber))
    (wf : WellFormed T) (start : x * S = m) (day : m < 1440)
    (free : slotFree (T.bookingsOn date) cfg.slotDuration cfg.totalSeats (guests : JsNumber)
      (cfg.reservationDuration / cfg.slotDuration).ceil (.finite x) = true) :
    Honoured cfg T date guests (convertToTime (.finite x * cfg.slotDuration)) := by
  have minutes : JsNumber.finite x * cfg.slotDuration = .finite m := by
    rw [slots, JsNumber.natCast_eq, JsNumber.finite_mul, start]
  rw [slotFree_eq slots positive duration start] at free
  rw [minutes]
  refine ⟨isValidTimeString_iff.mpr ⟨m, day, rfl⟩, ?_⟩
  rw [hasRoom_convertToTime duration]
  refine le_seats_of_le ?_ free
  have counted : load (startsOn date (.finite m) (.finite (m + D))) T.reservations ≤
      load (startsOn date (.finite m) (.finite (m + ⌈(D : ℚ) / S⌉ * S))) T.reservations := by
    refine load_mono wf.nonneg ?_
    intro r member within
    obtain ⟨u, -, starts⟩ := convertToMinutes_of_valid (wf r member).1
    simp only [startsOn, Bool.and_eq_true, startsIn_finite starts] at within ⊢
    have rounded := duration_le_slots (D := D) positive
    exact ⟨within.1, within.2.1, by linarith [within.2.2]⟩
  omega

/-- The slot of a time, some slots later. -/
theorem start_of_later {a k : Nat} (positive : 0 < S) :
    ((a : ℚ) / S + k) * S = (a + k * S : Nat) := by
  have pos : (S : ℚ) ≠ 0 := Nat.cast_ne_zero.mpr positive.ne'
  rw [add_mul, div_mul_cancel₀ _ pos]
  push_cast
  rfl

/-- The slot of a time, some slots earlier, if it is not before midnight. -/
theorem start_of_earlier {a k : Nat} (positive : 0 < S) (nonneg : 0 ≤ (a : ℚ) / S - k) :
    ∃ m ≤ a, ((a : ℚ) / S - k) * S = (m : Nat) := by
  have pos : (0 : ℚ) < S := Nat.cast_pos.mpr positive
  have within : k * S ≤ a := by
    have scaled : (k : ℚ) * S ≤ a := by
      have quotient : (k : ℚ) ≤ a / S := by linarith
      exact (le_div_iff₀ pos).mp quotient
    exact_mod_cast scaled
  refine ⟨a - k * S, Nat.sub_le _ _, ?_⟩
  rw [sub_mul, div_mul_cancel₀ _ pos.ne', Nat.cast_sub within, Nat.cast_mul]

/-- A bound in slots is a bound in minutes. -/
theorem minutes_lt {a b : Nat} {x : ℚ} (positive : 0 < S) (start : x * S = a)
    (below : x < (b : ℚ) / S) : a < b := by
  have pos : (0 : ℚ) < S := Nat.cast_pos.mpr positive
  have scaled : (a : ℚ) < b := by
    rw [← start]
    exact (lt_div_iff₀ pos).mp below
  exact_mod_cast scaled

/-! ## The searches -/

/-- Every slot of a range search is a time with room. -/
theorem honoured_of_findAvailableSlots {x : JsNumber} {found : List JsNumber} {start stop : String}
    (slots : cfg.slotDuration = (S : JsNumber)) (positive : 0 < S)
    (duration : cfg.reservationDuration = (D : JsNumber)) (wf : WellFormed T)
    (validStart : isValidTimeString start = true) (validStop : isValidTimeString stop = true)
    (search : findAvailableSlots (T.bookingsOn date) (convertToMinutes start / cfg.slotDuration)
      (convertToMinutes stop / cfg.slotDuration) cfg.slotDuration cfg.totalSeats
      (guests : JsNumber) cfg.reservationDuration = some found) (member : x ∈ found) :
    Honoured cfg T date guests (convertToTime (x * cfg.slotDuration)) := by
  obtain ⟨a, -, first⟩ := convertToMinutes_of_valid validStart
  obtain ⟨b, day, last⟩ := convertToMinutes_of_valid validStop
  unfold findAvailableSlots at search
  rw [first, last, slot_of_minute slots positive, slot_of_minute slots positive] at search
  obtain ⟨k, rfl, below, free⟩ := mem_of_collectUp search member
  rw [JsNumber.lt_finite, decide_eq_true_eq] at below
  have minutes := start_of_later (a := a) (k := k) positive
  have earlier := minutes_lt positive minutes below
  exact room_of_slotFree slots positive duration wf minutes (by omega) free

/-- Both neighbours the nearest search finds are times with room. -/
theorem honoured_of_findNearestAvailableSlots {x : JsNumber} {found : List JsNumber}
    {requested : String} (slots : cfg.slotDuration = (S : JsNumber)) (positive : 0 < S)
    (duration : cfg.reservationDuration = (D : JsNumber)) (wf : WellFormed T)
    (valid : isValidTimeString requested = true)
    (search : findNearestAvailableSlots (T.bookingsOn date)
      (convertToMinutes requested / cfg.slotDuration) cfg.slotDuration cfg.totalSeats
      (guests : JsNumber) cfg.reservationDuration = some found) (member : x ∈ found) :
    Honoured cfg T date guests (convertToTime (x * cfg.slotDuration)) := by
  obtain ⟨a, day, minutes⟩ := convertToMinutes_of_valid valid
  have one : (1 : JsNumber) = .finite 1 := by rw [JsNumber.ofNat_eq, Nat.cast_one]
  unfold findNearestAvailableSlots at search
  rw [minutes, slot_of_minute slots positive, slots_of_day slots positive, one, JsNumber.finite_add,
    JsNumber.finite_sub] at search
  simp only [Option.bind_eq_bind, Option.bind_eq_some_iff, Option.some.injEq] at search
  obtain ⟨later, up, earlier, down, rfl⟩ := search
  rcases List.mem_append.mp member with member | member
  · rw [Option.mem_toList.mp member] at up
    obtain ⟨k, rfl, below, free, -⟩ := of_firstUp up
    rw [JsNumber.lt_finite, decide_eq_true_eq] at below
    have start : ((a : ℚ) / S + 1 + k) * S = (a + (k + 1) * S : Nat) := by
      rw [← start_of_later positive]
      push_cast
      ring
    exact room_of_slotFree slots positive duration wf start (minutes_lt positive start below) free
  · rw [Option.mem_toList.mp member] at down
    obtain ⟨k, rfl, nonneg, free, -⟩ := of_firstDown down
    have shift : (a : ℚ) / S - 1 - k = a / S - (k + 1 : Nat) := by
      push_cast
      ring
    rw [shift] at free nonneg ⊢
    rw [JsNumber.ofNat_eq, JsNumber.le_finite, decide_eq_true_eq, Nat.cast_zero] at nonneg
    obtain ⟨m, before, start⟩ := start_of_earlier positive nonneg
    exact room_of_slotFree slots positive duration wf start (by omega) free

/-! ## The requests -/

/-- The request meets the constraints its input type declares. -/
def Request.declared (isDateString : String → Bool) : Request → Bool
  | .query (.checkAvailability data) => data.declared isDateString
  | .query (.getReservations _ _ _) => true
  | .mutation m => (Request.mutation m).mutates isDateString

theorem Request.conform_of_declared {isDateString : String → Bool} {r : Request}
    (declared : r.declared isDateString = true) : r.conform = true := by
  rcases r with (⟨filter, pagination, sort⟩ | data) | m
  · rfl
  · simp only [Request.declared, CheckAvailabilityInput.declared, Bool.and_eq_true] at declared
    exact declared.1.2
  · rfl

/-- The response to the request offers the start time for a date and a number of
guests. -/
inductive Offered : Request → Response → String → Int → String → Prop
  | available {data : CheckAvailabilityInput} {out : CheckAvailabilityOutput} {time : String} :
      time ∈ out.availableSlots →
      Offered (.query (.checkAvailability data)) (.queried (.availability out)) data.date
        data.guests time
  | suggested {data : CreateReservationInput} {out : CreateReservationOutput} {time : String} :
      time ∈ out.availableSlots →
      Offered (.mutation (.createReservation data)) (.created out) data.date data.guests time

/-- What an availability answer offers. -/
theorem honoured_of_availabilityOf {data : CheckAvailabilityInput} {out : CheckAvailabilityOutput}
    (slots : cfg.slotDuration = (S : JsNumber)) (positive : 0 < S)
    (duration : cfg.reservationDuration = (D : JsNumber)) (wf : WellFormed T)
    (timed : data.timed = true)
    (answer : availabilityOf cfg (T.bookingsOn data.date) data = some out)
    (offered : time ∈ out.availableSlots) : Honoured cfg T data.date data.guests time := by
  unfold availabilityOf at answer
  rcases data.timed_cases timed with ⟨asked, given, valid, -⟩ |
    ⟨range, absent, given, validStart, validStop⟩
  · rw [given, text_of_valid valid] at answer
    cases answer
    simp only at offered
    split at offered
    · rename_i room
      cases List.mem_singleton.mp offered
      exact ⟨valid, room⟩
    · cases offered
  · rw [given, text_of_toOption absent] at answer
    obtain ⟨found, search, rfl⟩ := Option.map_eq_some_iff.mp answer
    obtain ⟨x, member, rfl⟩ := List.mem_map.mp offered
    exact honoured_of_findAvailableSlots slots positive duration wf validStart validStop search
      member

/-- What `createReservation` offers. -/
theorem honoured_of_create {data : CreateReservationInput} {out : CreateReservationOutput}
    {T' : Tables} (slots : cfg.slotDuration = (S : JsNumber)) (positive : 0 < S)
    (duration : cfg.reservationDuration = (D : JsNumber)) (wf : WellFormed T)
    (valid : isValidTimeString data.time = true)
    (answer : direct db (createReservation cfg rounds data) T = some (.ok out, T'))
    (offered : time ∈ out.availableSlots) : Honoured cfg T' data.date data.guests time := by
  have same := T.customerFor_reservations data.customerName
  have wf' : WellFormed (T.customerFor data.customerName).2 := by
    unfold WellFormed
    rw [same]
    exact wf
  rw [direct_create, direct_createFor] at answer
  split at answer
  · cases answer
    cases offered
  · generalize search : findNearestAvailableSlots _ _ _ _ _ _ = nearest at answer
    rcases nearest with _ | _ | ⟨x, found⟩
    · cases answer
    · cases answer
    · cases answer
      obtain ⟨x', member, rfl⟩ := List.mem_map.mp offered
      exact honoured_of_findNearestAvailableSlots slots positive duration wf' valid search member

/-- `createReservation` runs through, and however it does, it stores the reservation
and returns it. -/
def Stores (db : QueryEngine) (cfg : Config) (rounds : Nat) (w : World)
    (data : CreateReservationInput) : Prop :=
  (∃ out w', Eval (interp db) ((Mutation.createReservation data).handle cfg rounds) w out w') ∧
  ∀ out w', Eval (interp db) ((Mutation.createReservation data).handle cfg rounds) w out w' →
    ∃ saved : Reservation, saved ∈ w'.tables.reservations ∧ saved.date = data.date ∧
      saved.time = data.time ∧ saved.guests = data.guests ∧
      out = .ok (.created ⟨"Reservation successfully created!", [], some saved⟩)

theorem stores_of_hasRoom {data : CreateReservationInput}
    (room : hasRoom cfg w.tables data.date data.time data.guests = true) :
    Stores db cfg rounds w data := by
  have same := w.tables.customerFor_reservations data.customerName
  have done : direct db (createReservation cfg rounds data) w.tables = _ := direct_create
  rw [direct_createFor, hasRoom_congr same, if_pos room] at done
  replace done := direct_bind (fun out => .pure (Response.created out)) done
  refine ⟨?_, ?_⟩
  · obtain ⟨w', run, -⟩ := (CacheBlind.mutation (.createReservation data) w _ _).mp
      (eval_cacheless_iff.mpr done)
    exact ⟨_, w', run⟩
  · intro out w' run
    have other := eval_cacheless_iff.mp
      ((CacheBlind.mutation (.createReservation data) w out w'.tables).mpr ⟨w', run, rfl⟩)
    obtain ⟨outs, tables⟩ := Prod.mk.inj (Option.some.inj (done.symm.trans other))
    rw [← outs, ← tables]
    refine ⟨_, ?_, rfl, rfl, rfl, rfl⟩
    exact List.mem_append_right _ (List.mem_singleton.mpr rfl)

/-- **One request.**  What the response to a request offers has room once it is
served. -/
theorem honoured_of_request {r : Request} {response : Response} {isDateString : String → Bool}
    (slots : cfg.slotDuration = (S : JsNumber)) (positive : 0 < S)
    (duration : cfg.reservationDuration = (D : JsNumber)) (wf : WellFormed w.tables)
    (coherent : Coherent db cfg w) (declared : r.declared isDateString = true)
    (served : Eval (interp db) (r.handle cfg rounds) w (.ok response) w')
    (offered : Offered r response date guests time) :
    Honoured cfg w'.tables date guests time := by
  have conform := r.conform_of_declared declared
  have done := (request_transparent conform coherent served).1
  cases offered with
  | @available data out _ member =>
    obtain ⟨out', run, same⟩ := Eval.map_iff.mp (eval_cacheless_iff.mpr done)
    cases out' with
    | error e => cases same
    | ok value =>
      cases same
      replace conform : (Query.checkAvailability data).conform = true := conform
      replace done := eval_cacheless_iff.mp run
      rw [direct_query] at done
      obtain ⟨value, answer, same⟩ := Option.map_eq_some_iff.mp done
      obtain ⟨outs, tables⟩ := Prod.mk.inj same
      cases outs
      obtain ⟨out, answer, same⟩ := Option.map_eq_some_iff.mp answer
      cases same
      rw [← tables]
      exact honoured_of_availabilityOf slots positive duration wf conform answer member
  | @suggested data out _ member =>
    obtain ⟨out', run, same⟩ := Eval.map_iff.mp (eval_cacheless_iff.mpr done)
    cases out' with
    | error e => cases same
    | ok value =>
      cases same
      have valid := (CreateReservationInput.valid_of_accepted declared).1
      exact honoured_of_create slots positive duration wf valid (eval_cacheless_iff.mp run) member

theorem WellFormed.request {r : Request} {out : Except Exn Response} {isDateString : String → Bool}
    (wf : WellFormed w.tables) (declared : r.declared isDateString = true)
    (served : Eval (interp db) (r.handle cfg rounds) w out w') : WellFormed w'.tables := by
  rcases r with q | data | id | data
  · obtain ⟨out', run, -⟩ := Eval.map_iff.mp served
    have conform := Request.conform_of_declared declared
    rcases (eval_query conform).mp run with ⟨v, -, -, rfl⟩ | ⟨-, v, -, -, rfl⟩
    · exact wf
    · exact wf
  · exact wf.create declared served
  · exact wf.cancel cfg served
  · exact wf.update declared cfg served

/-- **Offered times are honoured.**  Every start time offered in the last response of
a sequential run is a time of day, and a reservation of the same date and number
of guests for that time, in any name, is stored if it comes next. -/
theorem offered_times_are_honoured {log : List (Request × Except Exn Response)} {r : Request}
    {response : Response} {isDateString : String → Bool}
    (slots : cfg.slotDuration = (S : JsNumber)) (positive : 0 < S)
    (duration : cfg.reservationDuration = (D : JsNumber))
    (session : (server db cfg rounds).Session (fun _ r => r.declared isDateString = true) .empty
      (log ++ [(r, .ok response)]) w)
    (offered : Offered r response date guests time) (customerName : String) :
    isValidTimeString time = true ∧ Stores db cfg rounds w ⟨customerName, date, time, guests⟩ := by
  have kept : Coherent db cfg w ∧ WellFormed w.tables ∧
      ∀ r' response' date' guests' time',
        (log ++ [(r, Except.ok response)]).getLast? = some (r', .ok response') →
        Offered r' response' date' guests' time' → Honoured cfg w.tables date' guests' time' := by
    refine session.preserves (fun log w => Coherent db cfg w ∧ WellFormed w.tables ∧
      ∀ r' response' date' guests' time', log.getLast? = some (r', Except.ok response') →
        Offered r' response' date' guests' time' → Honoured cfg w.tables date' guests' time')
      ?_ ?_ ⟨?_, ?_, ?_⟩
    · intro log w r out w' held declared served
      obtain ⟨coherent, wf, -⟩ := held
      have conform := r.conform_of_declared declared
      refine ⟨(request_transparent conform coherent served).2, wf.request declared served, ?_⟩
      intro r' response' date' guests' time' last offered
      rw [List.getLast?_concat] at last
      cases last
      exact honoured_of_request slots positive duration wf coherent declared served offered
    · intro log w key held
      obtain ⟨coherent, rest⟩ := held
      exact ⟨fun e member => coherent e (Redis.mem_del.mp member).1, rest⟩
    · intro e member
      cases member
    · intro r member
      cases member
    · intro r' response' date' guests' time' last
      cases last
  obtain ⟨valid, room⟩ := kept.2.2 r response date guests time List.getLast?_concat offered
  exact ⟨valid, stores_of_hasRoom room⟩

/-- With 18:00 full, the second party of ten is offered 18:30, and gets it. -/
theorem half_past_six_is_honoured :
    ∃ log response w, (server .inMemory .default 0).Session
        (fun _ r => r.declared isoDateString = true) .empty
        (log ++ [(tenAt "18:00", .ok response)]) w ∧
      Offered (tenAt "18:00") response "2025-03-10" 10 "18:30" ∧
      Stores .inMemory .default 0 w ⟨"Eve", "2025-03-10", "18:30", 10⟩ := by
  let offer : CreateReservationOutput :=
    ⟨"Requested time is unavailable. Suggested available times:", ["18:30", "17:00"], none⟩
  have asked : ((server .inMemory .default 0).checkedRespond (fun _ r => r.declared isoDateString)
      scanAll [tenAt "18:00", tenAt "18:00"] .empty).any (fun done =>
        done.1.drop 1 = [.ok (.created offer)]) = true := by
    decide +kernel
  obtain ⟨⟨outs, w⟩, served, last⟩ := (Option.any_eq_true _ _).mp asked
  have start : (server .inMemory .default 0).Session
      (fun _ r => r.declared isoDateString = true) .empty [] .empty := .nil
  have session := start.append_respond (fun _ _ declared => declared) served
  rcases outs with _ | ⟨first, outs⟩
  · cases of_decide_eq_true last
  · replace last : outs = [.ok (.created offer)] := of_decide_eq_true last
    rw [last] at session
    replace session : (server .inMemory .default 0).Session
        (fun _ r => r.declared isoDateString = true) .empty
        ([(tenAt "18:00", first)] ++ [(tenAt "18:00", .ok (.created offer))]) w := session
    have offered : Offered (tenAt "18:00") (.created offer) "2025-03-10" 10 "18:30" :=
      .suggested (by decide)
    have honoured := offered_times_are_honoured (S := 30) (D := 60) rfl (by decide) rfl session
      offered "Eve"
    exact ⟨_, _, w, session, offered, honoured.2⟩

end RestaurantAssistant
