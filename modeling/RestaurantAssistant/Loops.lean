import RestaurantAssistant.Capacity
import RestaurantAssistant.Queries
import RestaurantAssistant.Validation

/-!
# The slot loops

What the loops of `findAvailableSlots` and `findNearestAvailableSlots` have looked at when
they end, and that between finite bounds they do, with the steps `stepsUp` and `stepsDown`
allow (`collectUp_isSome`, `firstUp_isSome`, `firstDown_isSome`).

From one time of day to another, with slots of whole minutes, the bounds are finite and every
search comes back (`findAvailableSlots_isSome`, `findNearestAvailableSlots_isSome`).
-/

namespace RestaurantAssistant

open Awaiting Js

variable {free : JsNumber → Bool} {fuel : Nat} {a b : ℚ}

/-! ## Between finite bounds -/

/-- After as many steps as lie between its bounds, the counter is past the upper one. -/
theorem past_iff {k : Nat} :
    ((· + 1)^[k] (JsNumber.finite a)).lt (.finite b) = false ↔ b ≤ a + k := by
  rw [iterate_add_one, JsNumber.lt_finite, decide_eq_false_iff_not, not_lt]

/-- After as many steps as lie above zero, the counter is below it. -/
theorem below_iff {k : Nat} :
    (0 : JsNumber).le ((· - 1)^[k] (JsNumber.finite a)) = false ↔ a < k := by
  rw [iterate_sub_one, JsNumber.ofNat_eq, JsNumber.le_finite, decide_eq_false_iff_not, not_le,
    Nat.cast_zero, sub_neg]

/-- With as many steps as lie between its bounds, the range loop ends. -/
theorem collectUp_isSome (enough : b ≤ a + fuel) :
    (collectUp free (.finite b) fuel (.finite a)).isSome = true := by
  rw [collectUp_eq]
  exact forCollect_isSome (past_iff.mpr enough) le_rfl

/-- The range loop misses no free slot. -/
theorem mem_collectUp {slots : List JsNumber} {k : Nat}
    (found : collectUp free (.finite b) fuel (.finite a) = some slots) (below : a + k < b)
    (here : free (.finite (a + k)) = true) : .finite (a + k) ∈ slots := by
  rw [collectUp_eq] at found
  obtain ⟨n, stops, rfl⟩ := of_forCollect found
  have past := past_iff.mp stops.stopped
  have earlier : (k : ℚ) < n := by linarith
  refine List.mem_filter.mpr ⟨List.mem_map.mpr ⟨k, ?_, iterate_add_one a k⟩, here⟩
  exact List.mem_range.mpr (Nat.cast_lt.mp earlier)

/-- With as many steps as lie between its bounds, the search for a later slot ends. -/
theorem firstUp_isSome (enough : b ≤ a + fuel) :
    (firstUp free (.finite b) fuel (.finite a)).isSome = true := by
  rw [firstUp_eq]
  exact forFirst_isSome (past_iff.mpr enough) le_rfl

/-- It misses no free slot. -/
theorem not_free_of_firstUp {k : Nat}
    (found : firstUp free (.finite b) fuel (.finite a) = some none) (below : a + k < b) :
    free (.finite (a + k)) = false := by
  rw [firstUp_eq] at found
  obtain ⟨n, stops, full⟩ := of_forFirst_none found
  have past := past_iff.mp stops.stopped
  have earlier : (k : ℚ) < n := by linarith
  rw [← iterate_add_one]
  exact full k (Nat.cast_lt.mp earlier)

/-- With as many steps as lie above zero, the search for an earlier slot ends. -/
theorem firstDown_isSome (enough : a < fuel) :
    (firstDown free fuel (.finite a)).isSome = true := by
  rw [firstDown_eq]
  exact forFirst_isSome (below_iff.mpr enough) le_rfl

/-- It misses no free slot. -/
theorem not_free_of_firstDown {k : Nat}
    (found : firstDown free fuel (.finite a) = some none) (above : 0 ≤ a - k) :
    free (.finite (a - k)) = false := by
  rw [firstDown_eq] at found
  obtain ⟨n, stops, full⟩ := of_forFirst_none found
  have below := below_iff.mp stops.stopped
  have later : (k : ℚ) < n := by linarith
  rw [← iterate_sub_one]
  exact full k (Nat.cast_lt.mp later)

/-- It comes back with nothing if there is no free slot. -/
theorem firstUp_eq_none_iff {found : Option JsNumber}
    (up : firstUp free (.finite b) fuel (.finite a) = some found) :
    found = none ↔ ∀ k : Nat, a + k < b → free (.finite (a + k)) = false := by
  cases found with
  | none => exact iff_of_true rfl fun k below => not_free_of_firstUp up below
  | some x =>
    refine iff_of_false nofun ?_
    intro full
    obtain ⟨k, rfl, below, here, -⟩ := of_firstUp up
    rw [JsNumber.lt_finite, decide_eq_true_eq] at below
    rw [full k below] at here
    cases here

theorem firstDown_eq_none_iff {found : Option JsNumber}
    (down : firstDown free fuel (.finite a) = some found) :
    found = none ↔ ∀ k : Nat, 0 ≤ a - k → free (.finite (a - k)) = false := by
  cases found with
  | none => exact iff_of_true rfl fun k above => not_free_of_firstDown down above
  | some x =>
    refine iff_of_false nofun ?_
    intro full
    obtain ⟨k, rfl, above, here, -⟩ := of_firstDown down
    rw [JsNumber.ofNat_eq, JsNumber.le_finite, decide_eq_true_eq, Nat.cast_zero] at above
    rw [full k above] at here
    cases here

theorem le_stepsUp (a b : ℚ) : b ≤ a + stepsUp (.finite a) (.finite b) := by
  have ceil := Int.le_ceil (b - a)
  have toNat : ((⌈b - a⌉ : Int) : ℚ) ≤ (⌈b - a⌉.toNat : ℚ) := by
    exact_mod_cast Int.self_le_toNat ⌈b - a⌉
  unfold stepsUp
  linarith

theorem lt_stepsDown (a : ℚ) : a < stepsDown (.finite a) := by
  have floor := Int.lt_floor_add_one a
  have toNat : ((⌊a⌋ + 1 : Int) : ℚ) ≤ ((⌊a⌋ + 1).toNat : ℚ) := by
    exact_mod_cast Int.self_le_toNat (⌊a⌋ + 1)
  unfold stepsDown
  push_cast at toNat
  linarith

/-! ## Slots of whole minutes -/

variable {cfg : Config} {S : Nat} {bookings : List Booking}

/-- The slot of a minute, which need not be whole. -/
theorem slot_of_minute (slots : cfg.slotDuration = (S : JsNumber)) (positive : 0 < S) (a : Nat) :
    JsNumber.finite a / cfg.slotDuration = .finite (a / S) := by
  have pos : (S : ℚ) ≠ 0 := Nat.cast_ne_zero.mpr positive.ne'
  rw [slots, JsNumber.natCast_eq, JsNumber.finite_div pos]

theorem minutes_of_day : (24 * 60 : JsNumber) = .finite (1440 : Nat) := by
  rw [JsNumber.ofNat_eq, JsNumber.ofNat_eq, JsNumber.finite_mul]
  norm_num

theorem slots_of_day (slots : cfg.slotDuration = (S : JsNumber)) (positive : 0 < S) :
    (24 * 60 : JsNumber) / cfg.slotDuration = .finite ((1440 : Nat) / S) := by
  rw [minutes_of_day, slot_of_minute slots positive]

/-- The search between finite slots ends. -/
theorem findAvailableSlots_ends (a b : ℚ) {slotDuration totalSeats guests duration : JsNumber} :
    (findAvailableSlots bookings (.finite a) (.finite b) slotDuration totalSeats guests
      duration).isSome = true := collectUp_isSome (le_stepsUp a b)

/-- The search in a range of two times of day ends. -/
theorem findAvailableSlots_isSome {start stop : String} {totalSeats guests duration : JsNumber}
    (slots : cfg.slotDuration = (S : JsNumber)) (positive : 0 < S)
    (validStart : isValidTimeString start = true) (validStop : isValidTimeString stop = true) :
    (findAvailableSlots bookings (convertToMinutes start / cfg.slotDuration)
      (convertToMinutes stop / cfg.slotDuration) cfg.slotDuration totalSeats guests
      duration).isSome = true := by
  obtain ⟨a, -, first⟩ := convertToMinutes_of_valid validStart
  obtain ⟨b, -, last⟩ := convertToMinutes_of_valid validStop
  rw [first, last, slot_of_minute slots positive, slot_of_minute slots positive]
  exact findAvailableSlots_ends _ _

/-- The searches around a time of day end. -/
theorem findNearestAvailableSlots_isSome {time : String} {totalSeats guests duration : JsNumber}
    (slots : cfg.slotDuration = (S : JsNumber)) (positive : 0 < S)
    (valid : isValidTimeString time = true) :
    (findNearestAvailableSlots bookings (convertToMinutes time / cfg.slotDuration)
      cfg.slotDuration totalSeats guests duration).isSome = true := by
  obtain ⟨a, -, minutes⟩ := convertToMinutes_of_valid valid
  unfold findNearestAvailableSlots
  rw [minutes, slots_of_day slots positive, slot_of_minute slots positive, finite_add_one,
    finite_sub_one]
  dsimp only
  generalize slotFree bookings cfg.slotDuration totalSeats guests _ = free
  have up : (firstUp free (.finite ((1440 : Nat) / S)) _ (.finite ((a : ℚ) / S + 1))).isSome =
      true := firstUp_isSome (le_stepsUp _ _)
  have down : (firstDown free _ (.finite ((a : ℚ) / S - 1))).isSome = true :=
    firstDown_isSome (lt_stepsDown _)
  obtain ⟨later, up⟩ := Option.isSome_iff_exists.mp up
  obtain ⟨earlier, down⟩ := Option.isSome_iff_exists.mp down
  simp only [up, down]
  rfl

/-! ## Requests -/

/-- Do the pipes let the request through? -/
def Request.accepted (isDateString : String → Bool) : Request → Bool
  | .query (.getReservations _ _ _) => true
  | .query (.checkAvailability data) => data.accepted isDateString
  | .mutation (.createReservation data) => data.accepted isDateString
  | .mutation (.cancelReservation _) => true
  | .mutation (.updateReservation data) => data.accepted isDateString

/-- The times the request searches from and to are times of day. -/
def Request.TimesOfDay : Request → Prop
  | .query (.checkAvailability data) => data.time.text = none → ∀ range,
    data.timeRange = .given range →
      isValidTimeString range.start = true ∧ isValidTimeString range.stop = true
  | .mutation (.createReservation data) => isValidTimeString data.time = true
  | _ => True

/-- Is there room in a slot, as the searches of a request look at it? -/
def slotHasRoom (cfg : Config) (T : Tables) (date : String) (guests : Int) : JsNumber → Bool :=
  slotFree (T.bookingsOn date) cfg.slotDuration cfg.totalSeats (guests : JsNumber)
    (cfg.reservationDuration / cfg.slotDuration).ceil

/-- A query between times of day has an answer. -/
theorem availabilityOf_isSome {data : CheckAvailabilityInput}
    (slots : cfg.slotDuration = (S : JsNumber)) (positive : 0 < S)
    (times : (Request.query (.checkAvailability data)).TimesOfDay) :
    (availabilityOf cfg bookings data).isSome = true := by
  unfold availabilityOf
  cases text : data.time.text with
  | some time => rfl
  | none =>
    cases given : data.timeRange with
    | undefined => rfl
    | null => rfl
    | given range =>
      obtain ⟨start, stop⟩ := times text range given
      simp only [Option.isSome_map]
      exact findAvailableSlots_isSome slots positive start stop

/-- The searches of an availability query as declared are between times of day. -/
theorem Request.timesOfDay_of_conform {q : Query} (conform : q.conform = true) :
    (Request.query q).TimesOfDay := by
  cases q with
  | getReservations filter pagination sort => trivial
  | checkAvailability data =>
    intro absent range given
    rcases data.timed_cases conform with ⟨time, timed, valid, -⟩ | ⟨range', -, ranged, start, stop⟩
    · rw [timed, text_of_valid valid] at absent
      cases absent
    · rw [given] at ranged
      cases ranged
      exact ⟨start, stop⟩

/-- A query as declared has an answer. -/
theorem exists_fresh {db : QueryEngine} {T : Tables} {q : Query} (conform : q.conform = true)
    (slots : cfg.slotDuration = (S : JsNumber)) (positive : 0 < S) :
    ∃ answer, fresh db cfg T q = some answer := by
  apply Option.isSome_iff_exists.mp
  cases q with
  | getReservations filter pagination sort =>
    rw [fresh_eq]
    rfl
  | checkAvailability data =>
    rw [fresh_availability, Option.isSome_map]
    exact availabilityOf_isSome slots positive (Request.timesOfDay_of_conform conform)

end RestaurantAssistant
