import RestaurantAssistant.Loops
import RestaurantAssistant.Offers

/-!
# The windows of the checks

A reservation checks the window of its exact duration `D`, the searches check
windows of `⌈D / s⌉` whole slots of `s` minutes.

* `refused_when_full`: the exact window refuses nothing needlessly.  At its last
  minute everything that was counted is in progress.
* `paths_agree_iff`: the two kinds of windows give the same verdicts exactly if the
  slots divide the duration, or the duration exceeds the day.
-/

namespace RestaurantAssistant

open Awaiting Js

/-! ## No needless refusal -/

/-- The booking is in progress at minute `t`. -/
def Booking.inProgress (duration t : JsNumber) (b : Booking) : Bool :=
  (convertToMinutes b.time).le t && t.lt (convertToMinutes b.time + duration)

/-- The guests of the bookings in progress at minute `t`. -/
def seatsTaken (bookings : List Booking) (duration t : JsNumber) : Int :=
  ((bookings.filter (Booking.inProgress duration t)).map Booking.guests).sum

/-- What starts within a duration from `s` on is in progress at the last minute. -/
theorem inProgress_of_startsIn {b : Booking} {s D : Nat} (positive : 0 < D)
    (valid : isValidTimeString b.time = true)
    (counted : b.startsIn (.finite s) (.finite (s + D)) = true) :
    b.inProgress (D : JsNumber) ((s + D - 1 : Nat) : JsNumber) = true := by
  obtain ⟨u, -, start⟩ := convertToMinutes_of_valid valid
  rw [startsIn_finite start] at counted
  have after : s ≤ u := by exact_mod_cast counted.1
  have before : u < s + D := by exact_mod_cast counted.2
  unfold Booking.inProgress
  simp only [start, JsNumber.natCast_eq, JsNumber.finite_add, JsNumber.le_finite,
    JsNumber.lt_finite, Bool.and_eq_true, decide_eq_true_eq]
  refine ⟨?_, ?_⟩
  · have le : u ≤ s + D - 1 := by omega
    exact_mod_cast le
  · have lt : s + D - 1 < u + D := by omega
    exact_mod_cast lt

/-- What is not at most some seats is more than them, if they are a number. -/
theorem lt_of_le_eq_false {n : Int} {totalSeats : JsNumber} (number : totalSeats ≠ .nan)
    (full : (n : JsNumber).le totalSeats = false) : totalSeats.lt (n : JsNumber) = true := by
  rw [JsNumber.intCast_eq] at full ⊢
  cases totalSeats with
  | nan => exact absurd rfl number
  | infinity s =>
    cases s with
    | false => cases full
    | true => rfl
  | finite q =>
    rw [JsNumber.le_finite, decide_eq_false_iff_not, not_le] at full
    rw [JsNumber.lt_finite, decide_eq_true_eq]
    exact full

variable {db : QueryEngine} {cfg : Config} {rounds : Nat} {T : Tables} {S D : Nat}
  {date time : String} {guests : Int}

/-- The query for one time reports it available. -/
def ReportsAvailable (db : QueryEngine) (cfg : Config) (T : Tables) (date : String) (guests : Int)
    (time : String) : Prop :=
  fresh db cfg T (.checkAvailability ⟨date, .given time, .undefined, guests⟩) =
    some (.availability ⟨"Time slot available", [time]⟩)

theorem reportsAvailable_iff (valid : isValidTimeString time = true) :
    ReportsAvailable db cfg T date guests time ↔ hasRoom cfg T date time guests = true := by
  unfold ReportsAvailable
  rw [fresh_availability]
  simp only [availabilityOf, text_of_valid valid]
  change some (QueryOutput.availability
    ⟨if hasRoom cfg T date time guests then _ else _, if hasRoom cfg T date time guests then _
      else _⟩) = _ ↔ _
  cases hasRoom cfg T date time guests <;> simp

/-- A reservation is stored, were it made now. -/
def WouldStore (db : QueryEngine) (cfg : Config) (rounds : Nat) (T : Tables)
    (data : CreateReservationInput) : Prop :=
  ∃ out T', direct db (createReservation cfg rounds data) T = some (.ok out, T') ∧
    out.reservation.isSome = true

theorem wouldStore_iff {data : CreateReservationInput} :
    WouldStore db cfg rounds T data ↔
      hasRoom cfg T data.date data.time data.guests = true := by
  have same := T.customerFor_reservations data.customerName
  unfold WouldStore
  rw [direct_create, direct_createFor, hasRoom_congr same]
  constructor
  · intro run
    obtain ⟨out, T', done, stored⟩ := run
    split at done
    · assumption
    · generalize findNearestAvailableSlots _ _ _ _ _ _ = nearest at done
      rcases nearest with _ | _ | _
      · cases done
      · cases done
      · cases done
        cases stored
  · intro room
    rw [if_pos room]
    exact ⟨_, _, rfl, rfl⟩

/-- The reservation is refused, and nothing is suggested. -/
def Refused (db : QueryEngine) (cfg : Config) (rounds : Nat) (T : Tables)
    (data : CreateReservationInput) : Prop :=
  ∃ T', direct db (createReservation cfg rounds data) T = some (.error (.badRequest
    ("No availability for " ++ String.ofList (JsNumber.integerText data.guests) ++ " guests on " ++
      data.date)), T')

/-- The point path and the search paths agree on a table: a range query lists the
times of its grid that a time query reports, and a reservation is refused when no
other time of its grid would be stored. -/
structure PathsAgree (db : QueryEngine) (cfg : Config) (rounds : Nat) (T : Tables) (S : Nat) :
    Prop where
  range : ∀ (date start stop : String) (guests : Int) (a b : Nat), 1 ≤ guests →
    isValidTimeString start = true → isValidTimeString stop = true →
    convertToMinutes start = (a : JsNumber) → convertToMinutes stop = (b : JsNumber) →
    ∃ out, fresh db cfg T (.checkAvailability ⟨date, .undefined, .given ⟨start, stop⟩, guests⟩) =
        some (.availability out) ∧
      ∀ text, text ∈ out.availableSlots ↔ ∃ k : Nat, a + k * S < b ∧
        text = convertToTime ((a + k * S : Nat) : JsNumber) ∧
        ReportsAvailable db cfg T date guests text
  refusal : ∀ (data : CreateReservationInput) (r : Nat), 1 ≤ data.guests →
    isValidTimeString data.time = true → convertToMinutes data.time = (r : JsNumber) →
    hasRoom cfg T data.date data.time data.guests = false →
    (Refused db cfg rounds T data ↔ ∀ t : Nat, t < 1440 →
      (∃ k : Int, k ≠ 0 ∧ (t : Int) = r + k * S) →
      ¬ WouldStore db cfg rounds T { data with time := convertToTime (t : JsNumber) })

/-! ## When the windows agree -/

/-- The window of whole slots and the window of the duration hold the same rows. -/
def SameWindows (T : Tables) (S D : Nat) : Prop :=
  ∀ r ∈ T.reservations, ∀ m : Nat, r.startsIn (.finite m) (.finite (m + ⌈(D : ℚ) / S⌉ * S)) =
    r.startsIn (.finite m) (.finite (m + D))

theorem sameWindows_of_dvd (positive : 0 < S) (divides : S ∣ D) : SameWindows T S D := by
  obtain ⟨n, rfl⟩ := divides
  have pos : (S : ℚ) ≠ 0 := Nat.cast_ne_zero.mpr positive.ne'
  have whole : ⌈((S * n : Nat) : ℚ) / S⌉ * (S : ℚ) = (S * n : Nat) := by
    have quotient : ((S * n : Nat) : ℚ) / S = n := by
      rw [Nat.cast_mul, mul_div_cancel_left₀ _ pos]
    rw [quotient, Int.ceil_natCast, Int.cast_natCast, Nat.cast_mul, mul_comm]
  intro r _ m
  rw [whole]

/-- A window that lasts to the end of the day misses nothing. -/
theorem sameWindows_of_day (positive : 0 < S) (wf : WellFormed T) (day : 1440 ≤ D) :
    SameWindows T S D := by
  intro r member m
  obtain ⟨u, within, starts⟩ := convertToMinutes_of_valid (wf r member).1
  have rounded := duration_le_slots (D := D) positive
  have before : (u : ℚ) < m + D := by
    have lt : u < m + D := by omega
    exact_mod_cast lt
  rw [Bool.eq_iff_iff, startsIn_finite starts, startsIn_finite starts]
  refine and_congr_right fun _ => iff_of_true ?_ before
  linarith

/-- Then a search finds room exactly where a reservation would. -/
theorem slotHasRoom_eq {m : Nat} {x : ℚ} (slots : cfg.slotDuration = (S : JsNumber))
    (positive : 0 < S) (duration : cfg.reservationDuration = (D : JsNumber))
    (same : SameWindows T S D) (start : x * S = m) :
    slotHasRoom cfg T date guests (.finite x) =
      hasRoom cfg T date (convertToTime (m : JsNumber)) guests := by
  unfold slotHasRoom
  rw [slotFree_eq slots positive duration start, JsNumber.natCast_eq,
    hasRoom_convertToTime duration]
  have rows : load (startsOn date (.finite m) (.finite (m + ⌈(D : ℚ) / S⌉ * S))) T.reservations =
      load (startsOn date (.finite m) (.finite (m + D))) T.reservations := by
    unfold load
    congr 2
    refine List.filter_congr fun r member => ?_
    unfold startsOn
    rw [same r member m]
  rw [rows]

/-- Minutes and slots. -/
theorem slot_lt_iff {a b k : Nat} (positive : 0 < S) :
    (a : ℚ) / S + k < (b : ℚ) / S ↔ a + k * S < b := by
  have pos : (0 : ℚ) < S := Nat.cast_pos.mpr positive
  rw [lt_div_iff₀ pos, start_of_later positive, Nat.cast_lt]

/-- A range query between two minutes searches the slots between them. -/
theorem fresh_range (db : QueryEngine) (T : Tables) (date : String) (guests : Int)
    (slots : cfg.slotDuration = (S : JsNumber)) (positive : 0 < S)
    {start stop : String} {a b : Nat} (first : convertToMinutes start = (a : JsNumber))
    (last : convertToMinutes stop = (b : JsNumber)) :
    ∃ fuel found message, collectUp (slotHasRoom cfg T date guests) (.finite (b / S)) fuel
        (.finite (a / S)) = some found ∧
      fresh db cfg T (.checkAvailability ⟨date, .undefined, .given ⟨start, stop⟩, guests⟩) =
        some (.availability
          ⟨message, found.map fun slot => convertToTime (slot * cfg.slotDuration)⟩) := by
  have startSlot : convertToMinutes start / cfg.slotDuration = .finite (a / S) := by
    rw [first, JsNumber.natCast_eq, slot_of_minute slots positive]
  have endSlot : convertToMinutes stop / cfg.slotDuration = .finite (b / S) := by
    rw [last, JsNumber.natCast_eq, slot_of_minute slots positive]
  have ended : (findAvailableSlots (T.bookingsOn date) (.finite (a / S)) (.finite (b / S))
      cfg.slotDuration cfg.totalSeats (guests : JsNumber) cfg.reservationDuration).isSome = true :=
    findAvailableSlots_ends _ _
  obtain ⟨found, search⟩ := Option.isSome_iff_exists.mp ended
  refine ⟨_, found, if found.length > 0 then "Available slots within range"
    else "No available slots in the given range", search, ?_⟩
  rw [fresh_availability]
  simp only [availabilityOf, Arg.text, startSlot, endSlot, search, Option.map_some]

/-- A range query lists what time queries report. -/
theorem range_agrees (slots : cfg.slotDuration = (S : JsNumber)) (positive : 0 < S)
    (duration : cfg.reservationDuration = (D : JsNumber)) (same : SameWindows T S D)
    {start stop : String} {a b : Nat} (day : b < 1440)
    (first : convertToMinutes start = (a : JsNumber))
    (last : convertToMinutes stop = (b : JsNumber)) :
    ∃ out, fresh db cfg T (.checkAvailability ⟨date, .undefined, .given ⟨start, stop⟩, guests⟩) =
        some (.availability out) ∧
      ∀ text, text ∈ out.availableSlots ↔ ∃ k : Nat, a + k * S < b ∧
        text = convertToTime ((a + k * S : Nat) : JsNumber) ∧
        ReportsAvailable db cfg T date guests text := by
  obtain ⟨fuel, found, message, search, answer⟩ :=
    fresh_range db T date guests slots positive first last
  refine ⟨_, answer, fun text => ?_⟩
  have minutes : ∀ k : Nat, JsNumber.finite ((a : ℚ) / S + k) * cfg.slotDuration =
      ((a + k * S : Nat) : JsNumber) := by
    intro k
    rw [slots, JsNumber.natCast_eq, JsNumber.finite_mul, start_of_later positive,
      JsNumber.natCast_eq]
  have verdict : ∀ k : Nat, a + k * S < b →
      (ReportsAvailable db cfg T date guests (convertToTime ((a + k * S : Nat) : JsNumber)) ↔
        slotHasRoom cfg T date guests (.finite ((a : ℚ) / S + k)) = true) := by
    intro k below
    rw [slotHasRoom_eq slots positive duration same (start_of_later positive)]
    exact reportsAvailable_iff (isValidTimeString_iff.mpr ⟨a + k * S, by omega, rfl⟩)
  constructor
  · intro listed
    obtain ⟨x, member, rfl⟩ := List.mem_map.mp listed
    obtain ⟨k, rfl, below, free⟩ := mem_of_collectUp search member
    rw [JsNumber.lt_finite, decide_eq_true_eq, slot_lt_iff positive] at below
    rw [minutes]
    exact ⟨k, below, rfl, (verdict k below).mpr free⟩
  · intro listed
    obtain ⟨k, below, rfl, reported⟩ := listed
    have member := mem_collectUp search ((slot_lt_iff positive).mpr below)
      ((verdict k below).mp reported)
    rw [← minutes]
    exact List.mem_map_of_mem member

/-- A reservation without room is refused if both searches come back with nothing. -/
theorem refused_iff {data : CreateReservationInput}
    (full : hasRoom cfg T data.date data.time data.guests = false) :
    Refused db cfg rounds T data ↔ findNearestAvailableSlots (T.bookingsOn data.date)
      (convertToMinutes data.time / cfg.slotDuration) cfg.slotDuration cfg.totalSeats
      (data.guests : JsNumber) cfg.reservationDuration = some [] := by
  have same := T.customerFor_reservations data.customerName
  have rows : (T.customerFor data.customerName).2.bookingsOn data.date =
      T.bookingsOn data.date := by
    unfold Tables.bookingsOn Tables.on
    rw [same]
  unfold Refused
  rw [direct_create, direct_createFor, hasRoom_congr same, full, rows]
  simp only [Bool.false_eq_true, if_false]
  generalize findNearestAvailableSlots _ _ _ _ _ _ = nearest
  rcases nearest with _ | _ | ⟨slot, rest⟩
  · simp
  · simp
  · simp

/-- Both searches come back with nothing if no slot they look at has room. -/
theorem findNearest_eq_nil_iff {r : Nat} (slots : cfg.slotDuration = (S : JsNumber))
    (positive : 0 < S) :
    findNearestAvailableSlots (T.bookingsOn date) (.finite r / cfg.slotDuration) cfg.slotDuration
      cfg.totalSeats (guests : JsNumber) cfg.reservationDuration = some [] ↔
    (∀ k : Nat, (r : ℚ) / S + 1 + k < (1440 : Nat) / S →
      slotHasRoom cfg T date guests (.finite (r / S + 1 + k)) = false) ∧
    ∀ k : Nat, 0 ≤ (r : ℚ) / S - 1 - k →
      slotHasRoom cfg T date guests (.finite (r / S - 1 - k)) = false := by
  have upEnds : (firstUp (slotHasRoom cfg T date guests) (.finite ((1440 : Nat) / S)) _
      (.finite ((r : ℚ) / S + 1))).isSome = true := firstUp_isSome (le_stepsUp _ _)
  have downEnds : (firstDown (slotHasRoom cfg T date guests) _
      (.finite ((r : ℚ) / S - 1))).isSome = true := firstDown_isSome (lt_stepsDown _)
  obtain ⟨later, up⟩ := Option.isSome_iff_exists.mp upEnds
  obtain ⟨earlier, down⟩ := Option.isSome_iff_exists.mp downEnds
  rw [← firstUp_eq_none_iff up, ← firstDown_eq_none_iff down]
  unfold findNearestAvailableSlots
  rw [slot_of_minute slots positive, slots_of_day slots positive, finite_add_one, finite_sub_one]
  unfold slotHasRoom at up down
  simp only [up, down, Option.bind_eq_bind, Option.bind_some, Option.some.injEq,
    List.append_eq_nil_iff, Option.toList_eq_nil_iff]

/-- The slots after a minute. -/
theorem later_slot {r n : Nat} (positive : 0 < S) :
    ((r : ℚ) / S + 1 + n) * S = (r + (n + 1) * S : Nat) := by
  rw [← start_of_later positive]
  push_cast
  ring

/-- The slots before a minute. -/
theorem earlier_slot {r n t : Nat} (positive : 0 < S) (before : t + (n + 1) * S = r) :
    ((r : ℚ) / S - 1 - n) * S = t := by
  have pos : (S : ℚ) ≠ 0 := Nat.cast_ne_zero.mpr positive.ne'
  have cast : (t : ℚ) + (n + 1) * S = r := by exact_mod_cast before
  rw [sub_mul, sub_mul, div_mul_cancel₀ _ pos, ← cast]
  ring

/-- A reservation is refused if no other time of its grid would be stored. -/
theorem refusal_agrees (slots : cfg.slotDuration = (S : JsNumber)) (positive : 0 < S)
    (duration : cfg.reservationDuration = (D : JsNumber)) (same : SameWindows T S D)
    {data : CreateReservationInput} {r : Nat} (today : r < 1440)
    (minutes : convertToMinutes data.time = (r : JsNumber))
    (full : hasRoom cfg T data.date data.time data.guests = false) :
    Refused db cfg rounds T data ↔ ∀ t : Nat, t < 1440 →
      (∃ k : Int, k ≠ 0 ∧ (t : Int) = r + k * S) →
      ¬ WouldStore db cfg rounds T { data with time := convertToTime (t : JsNumber) } := by
  have pos : (0 : ℚ) < S := Nat.cast_pos.mpr positive
  have verdict : ∀ {x : ℚ} {t : Nat}, x * S = t →
      (slotHasRoom cfg T data.date data.guests (.finite x) = false ↔
        ¬ WouldStore db cfg rounds T { data with time := convertToTime (t : JsNumber) }) := by
    intro x t start
    rw [wouldStore_iff, slotHasRoom_eq slots positive duration same start, Bool.not_eq_true]
  rw [refused_iff full, minutes, JsNumber.natCast_eq, findNearest_eq_nil_iff slots positive]
  constructor
  · rintro ⟨later, earlier⟩ t day ⟨k, nonzero, grid⟩
    rcases Int.lt_or_gt_of_ne nonzero with negative | ahead
    · obtain ⟨n, rfl⟩ := Int.eq_negSucc_of_lt_zero negative
      have before : t + (n + 1) * S = r := by
        rw [Int.negSucc_eq] at grid
        have cast : ((t + (n + 1) * S : Nat) : Int) = r := by
          push_cast
          linarith
        exact_mod_cast cast
      have start := earlier_slot positive before
      refine (verdict start).mp (earlier n ?_)
      have scaled : 0 ≤ ((r : ℚ) / S - 1 - n) * S := by
        rw [start]
        exact Nat.cast_nonneg t
      exact nonneg_of_mul_nonneg_left scaled pos
    · obtain ⟨n, rfl⟩ := Int.eq_succ_of_zero_lt ahead
      have after : r + (n + 1) * S = t := by exact_mod_cast grid.symm
      have start := later_slot (r := r) (n := n) positive
      rw [after] at start
      refine (verdict start).mp (later n ?_)
      rw [lt_div_iff₀ pos, start]
      exact_mod_cast day
  · intro none
    refine ⟨?_, ?_⟩
    · intro n below
      have start := later_slot (r := r) (n := n) positive
      refine (verdict start).mpr (none _ (minutes_lt positive start below) ⟨n + 1, by omega, ?_⟩)
      push_cast
      ring
    · intro n above
      have within : (n + 1) * S ≤ r := by
        have scaled : ((n : ℚ) + 1) * S ≤ r := by
          rw [← le_div_iff₀ pos]
          linarith
        exact_mod_cast scaled
      have before : r - (n + 1) * S + (n + 1) * S = r := Nat.sub_add_cancel within
      refine (verdict (earlier_slot positive before)).mpr
        (none _ (by omega) ⟨-(n + 1), by omega, ?_⟩)
      push_cast [Nat.cast_sub within]
      ring

theorem minute_of_valid (valid : isValidTimeString time = true) {m : Nat}
    (minutes : convertToMinutes time = (m : JsNumber)) : m < 1440 := by
  obtain ⟨m', day, minutes'⟩ := convertToMinutes_of_valid valid
  rw [minutes', JsNumber.natCast_eq, JsNumber.finite.injEq, Nat.cast_inj] at minutes
  omega

theorem pathsAgree_of_sameWindows (slots : cfg.slotDuration = (S : JsNumber)) (positive : 0 < S)
    (duration : cfg.reservationDuration = (D : JsNumber)) (same : SameWindows T S D) :
    PathsAgree db cfg rounds T S := by
  refine ⟨?_, ?_⟩
  · intro date start stop guests a b _ _ valid first last
    exact range_agrees slots positive duration same (minute_of_valid valid last) first last
  · intro data r _ valid minutes full
    exact refusal_agrees slots positive duration same (minute_of_valid valid minutes) minutes full

/-! ## Where they differ -/

/-- One seat, and one guest who comes when a reservation from midnight on is over. -/
def afterMidnight (D : Nat) : Tables :=
  ⟨[⟨⟨convertToTime (D : JsNumber), 1⟩, 1, "2025-03-10", ⟨1, "Ada"⟩⟩], [⟨1, "Ada"⟩], 2, 2⟩

def oneSeat (S D : Nat) : Config := ⟨1, (S : JsNumber), (D : JsNumber)⟩

/-- The window of whole slots reaches beyond the duration. -/
theorem duration_lt_slots (positive : 0 < S) (indivisible : ¬ S ∣ D) :
    (D : ℚ) < ⌈(D : ℚ) / S⌉ * S := by
  have pos : (S : ℚ) ≠ 0 := Nat.cast_ne_zero.mpr positive.ne'
  refine lt_of_le_of_ne (duration_le_slots positive) ?_
  intro same
  refine indivisible (Int.natCast_dvd_natCast.mp ⟨⌈(D : ℚ) / S⌉, ?_⟩)
  have cast : ((D : Int) : ℚ) = (S * ⌈(D : ℚ) / S⌉ : Int) := by
    push_cast
    rw [mul_comm]
    exact same
  exact_mod_cast cast

/-- The guest counts in the windows that end later. -/
theorem load_afterMidnight {e : ℚ} :
    load (startsOn "2025-03-10" (.finite (0 : Nat)) (.finite e)) (afterMidnight D).reservations =
      if (D : ℚ) < e then 1 else 0 := by
  have starts : convertToMinutes (convertToTime (D : JsNumber)) = .finite D :=
    convertToMinutes_convertToTime D
  have row : startsOn "2025-03-10" (.finite (0 : Nat)) (.finite e)
      ⟨⟨convertToTime (D : JsNumber), 1⟩, 1, "2025-03-10", ⟨1, "Ada"⟩⟩ = true ↔ (D : ℚ) < e := by
    simp [startsOn, Booking.startsIn, starts]
  unfold afterMidnight
  rw [load_cons, load_nil, add_zero]
  simp only [row]

/-- From midnight on there is room for one guest, but the search does not say so. -/
theorem not_pathsAgree (positive : 0 < S) (indivisible : ¬ S ∣ D) :
    ¬ PathsAgree db (oneSeat S D) rounds (afterMidnight D) S := by
  intro agree
  have first : convertToMinutes "00:00" = ((0 : Nat) : JsNumber) := by decide +kernel
  have last : convertToMinutes "00:01" = ((1 : Nat) : JsNumber) := by decide +kernel
  obtain ⟨out, answer, listed⟩ := agree.range "2025-03-10" "00:00" "00:01" 1 0 1 (by decide)
    (by decide +kernel) (by decide +kernel) first last
  have slots : (oneSeat S D).slotDuration = (S : JsNumber) := rfl
  have duration : (oneSeat S D).reservationDuration = (D : JsNumber) := rfl
  have room : hasRoom (oneSeat S D) (afterMidnight D) "2025-03-10"
      (convertToTime ((0 + 0 * S : Nat) : JsNumber)) 1 = true := by
    have midnight : 0 + 0 * S = 0 := by omega
    have past : ¬ (D : ℚ) < ((0 : Nat) : ℚ) + D := by simp
    rw [midnight, JsNumber.natCast_eq, hasRoom_convertToTime duration, load_afterMidnight,
      if_neg past]
    have fits : ((0 + 1 : Int) : ℚ) ≤ (1 : Nat) := by norm_num
    exact decide_eq_true fits
  have valid : isValidTimeString (convertToTime ((0 + 0 * S : Nat) : JsNumber)) = true :=
    isValidTimeString_iff.mpr ⟨0 + 0 * S, by omega, rfl⟩
  have member := (listed _).mpr ⟨0, by omega, rfl, (reportsAvailable_iff valid).mpr room⟩
  -- but the search has counted the guest
  obtain ⟨fuel, found, message, search, answer'⟩ := fresh_range db (afterMidnight D) "2025-03-10" 1
    slots positive first last
  rw [answer] at answer'
  cases answer'
  obtain ⟨x, inFound, -⟩ := List.mem_map.mp member
  obtain ⟨k, rfl, below, free⟩ := mem_of_collectUp search inFound
  rw [JsNumber.lt_finite, decide_eq_true_eq, slot_lt_iff positive] at below
  have start : (((0 : Nat) : ℚ) / S + k) * S = (0 : Nat) := by
    have zero : 0 + k * S = 0 := by omega
    rw [start_of_later positive, zero]
  have reaches : (D : ℚ) < ((0 : Nat) : ℚ) + ⌈(D : ℚ) / S⌉ * S := by
    rw [Nat.cast_zero, zero_add]
    exact duration_lt_slots positive indivisible
  unfold slotHasRoom at free
  rw [slotFree_eq slots positive duration start, load_afterMidnight, if_pos reaches] at free
  have fits : ((1 + 1 : Int) : ℚ) ≤ (1 : Nat) := of_decide_eq_true free
  norm_num at fits

/-- **Points and searches.**  On every table the point path and the search paths
agree exactly if the slots divide the duration; on every table of times of day, also
if the duration exceeds the day. -/
theorem paths_agree_iff (positive : 0 < S) :
    ((∀ db cfg rounds T, cfg.slotDuration = (S : JsNumber) →
      cfg.reservationDuration = (D : JsNumber) →
      PathsAgree db cfg rounds T S) ↔ S ∣ D) ∧
    ((∀ db cfg rounds T, cfg.slotDuration = (S : JsNumber) →
      cfg.reservationDuration = (D : JsNumber) →
      WellFormed T → PathsAgree db cfg rounds T S) ↔ S ∣ D ∨ 1440 ≤ D) := by
  refine ⟨⟨?_, ?_⟩, ⟨?_, ?_⟩⟩
  · intro agree
    by_contra indivisible
    exact not_pathsAgree positive indivisible (agree .inMemory _ 0 _ rfl rfl)
  · intro divides db cfg rounds T slots duration
    exact pathsAgree_of_sameWindows slots positive duration (sameWindows_of_dvd positive divides)
  · intro agree
    by_contra neither
    obtain ⟨indivisible, short⟩ := not_or.mp neither
    have wf : WellFormed (afterMidnight D) := by
      intro r member
      cases List.mem_singleton.mp member
      exact ⟨isValidTimeString_iff.mpr ⟨D, by omega, rfl⟩, le_refl 1⟩
    exact not_pathsAgree positive indivisible (agree .inMemory _ 0 _ rfl rfl wf)
  · intro condition db cfg rounds T slots duration wf
    refine pathsAgree_of_sameWindows slots positive duration ?_
    rcases condition with divides | day
    · exact sameWindows_of_dvd positive divides
    · exact sameWindows_of_day positive wf day

/-- By default a reservation takes two slots, and the paths agree. -/
theorem paths_agree_by_default : PathsAgree .inMemory .default 0 (afterMidnight 45) 30 := by
  have agree := (paths_agree_iff (S := 30) (D := 60) (by decide)).1.mpr (by decide)
  exact agree .inMemory .default 0 (afterMidnight 45) rfl rfl

/-- A reservation of three quarters of an hour is searched for a whole one. -/
theorem paths_differ_at_three_quarters :
    ¬ ∀ (S D : Nat) (db : QueryEngine) (cfg : Config) (rounds : Nat) (T : Tables), 0 < S → 0 < D →
      cfg.slotDuration = (S : JsNumber) → cfg.reservationDuration = (D : JsNumber) → WellFormed T →
      PathsAgree db cfg rounds T S := by
  intro claim
  have wf : WellFormed (afterMidnight 45) := by
    intro r member
    cases List.mem_singleton.mp member
    exact ⟨isValidTimeString_iff.mpr ⟨45, by decide, rfl⟩, le_refl 1⟩
  exact not_pathsAgree (by decide) (by decide)
    (claim 30 45 .inMemory (oneSeat 30 45) 0 _ (by decide) (by decide) rfl rfl wf)

end RestaurantAssistant
