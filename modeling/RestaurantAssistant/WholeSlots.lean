import RestaurantAssistant.Loops
import RestaurantAssistant.Outcomes
import RestaurantAssistant.TimeCodec

/-!
# Whole slots

Whole numbers that are not too large are added, multiplied and compared in binary64 as they
are.  With settings in whole minutes and a search from a whole slot on, a request is therefore
answered as in exact arithmetic (`answered_exactly`): the loops of the two go `Together`.

The other modules compute exactly.  What they show of such requests is true of the numbers
the code computes with.
-/

namespace RestaurantAssistant.Binary64

open Js

/-- Settings in whole seats and minutes. -/
structure WholeSettings where
  totalSeats : ℕ
  slotDuration : ℕ
  reservationDuration : ℕ
  positive : 0 < slotDuration
  seats_le : totalSeats ≤ 2 ^ 52
  slot_le : slotDuration ≤ 2 ^ 50
  duration_le : reservationDuration ≤ 2 ^ 50

namespace WholeSettings

def config (c : WholeSettings) : Config :=
  ⟨.ofInt c.totalSeats, .ofInt c.slotDuration, .ofInt c.reservationDuration⟩

def exact (c : WholeSettings) : RestaurantAssistant.Config :=
  ⟨(c.totalSeats : JsNumber), (c.slotDuration : JsNumber), (c.reservationDuration : JsNumber)⟩

/-- What the service takes for settings that are not configured. -/
def default : WholeSettings :=
  ⟨10, 30, 60, by decide, by norm_num, by norm_num, by norm_num⟩

example : default.config = .default := rfl

example : default.exact = .default := rfl

end WholeSettings

/-- Bookings at times of day, of so few guests that binary64 adds them up exactly. -/
structure FewGuests (bookings : List Booking) (guests : Int) : Prop where
  valid : ∀ res ∈ bookings, isValidTimeString res.time = true
  nonneg : ∀ res ∈ bookings, 0 ≤ res.guests
  few : (bookings.map Booking.guests).sum ≤ 2 ^ 52
  party : |guests| ≤ 2 ^ 52

variable {bookings : List Booking} {guests a b i : ℤ} {c : WholeSettings}

/-! ## The seats -/

theorem startsIn_ofInt {res : Booking} (low : |a| ≤ 2 ^ 53) (high : |b| ≤ 2 ^ 53)
    (valid : isValidTimeString res.time = true) :
    startsIn (.ofInt a) (.ofInt b) res = res.startsIn (.finite a) (.finite b) := by
  obtain ⟨m, day, exact, double⟩ := convertToMinutes_of_valid valid
  have digits : |(m : ℤ)| ≤ 2 ^ 53 := by
    rw [Nat.abs_cast]
    omega
  unfold startsIn Booking.startsIn
  rw [exact, double]
  dsimp only
  rw [Double.ofInt_le low digits, Double.ofInt_lt digits high, JsNumber.le_finite,
    JsNumber.lt_finite]
  have first : a ≤ (m : ℤ) ↔ (a : ℚ) ≤ (m : ℚ) := by exact_mod_cast Iff.rfl
  have last : (m : ℤ) < b ↔ (m : ℚ) < (b : ℚ) := by exact_mod_cast Iff.rfl
  rw [decide_eq_decide.mpr first, decide_eq_decide.mpr last]

/-- The sums of the guests are exact. -/
theorem foldl_guests (low : |a| ≤ 2 ^ 53) (high : |b| ≤ 2 ^ 53)
    (valid : ∀ res ∈ bookings, isValidTimeString res.time = true)
    (nonneg : ∀ res ∈ bookings, 0 ≤ res.guests) {acc : ℤ} (positive : 0 ≤ acc)
    (few : acc + (bookings.map Booking.guests).sum ≤ 2 ^ 52) :
    bookings.foldl (fun sum res =>
        if startsIn (.ofInt a) (.ofInt b) res then sum + (res.guests : Double) else sum)
      (.ofInt acc) = .ofInt (acc + occupiedSeats bookings (.finite a) (.finite b)) := by
  induction bookings generalizing acc with
  | nil => simp [occupiedSeats]
  | cons res rest ih =>
    obtain ⟨validRes, validRest⟩ := List.forall_mem_cons.mp valid
    obtain ⟨some_, nonnegRest⟩ := List.forall_mem_cons.mp nonneg
    have rest_nonneg : 0 ≤ (rest.map Booking.guests).sum := by
      apply List.sum_nonneg
      intro x member
      obtain ⟨r, inRest, rfl⟩ := List.mem_map.mp member
      exact nonnegRest r inRest
    rw [List.map_cons, List.sum_cons] at few
    rw [List.foldl_cons, startsIn_ofInt low high validRes]
    by_cases counted : res.startsIn (.finite a) (.finite b) = true
    · have sum : Double.ofInt acc + (res.guests : Double) = .ofInt (acc + res.guests) := by
        apply Double.ofInt_add
        · rw [abs_of_nonneg positive]
          omega
        · rw [abs_of_nonneg some_]
          omega
      rw [if_pos counted, sum, ih validRest nonnegRest (by omega) (by omega), occupiedSeats,
        occupiedSeats, List.filter_cons_of_pos counted, List.map_cons, List.sum_cons, add_assoc]
    · rw [if_neg counted, ih validRest nonnegRest positive (by omega), occupiedSeats, occupiedSeats,
        List.filter_cons_of_neg counted]

/-- Between whole minutes the check is exact. -/
theorem isSlotAvailable_ofInt {seats : ℕ} (few : FewGuests bookings guests)
    (low : |a| ≤ 2 ^ 53) (high : |b| ≤ 2 ^ 53) (seats_le : seats ≤ 2 ^ 52) :
    isSlotAvailable bookings (.ofInt a) (.ofInt b) (.ofInt seats) (guests : Double) =
      RestaurantAssistant.isSlotAvailable bookings (.finite a) (.finite b) (seats : JsNumber)
        (guests : JsNumber) := by
  have total := few.few
  have party := abs_le.mp few.party
  have least : 0 ≤ occupiedSeats bookings (.finite a) (.finite b) := by
    apply List.sum_nonneg
    intro x member
    obtain ⟨res, selected, rfl⟩ := List.mem_map.mp member
    exact few.nonneg res (List.mem_filter.mp selected).1
  have most : occupiedSeats bookings (.finite a) (.finite b) ≤
      (bookings.map Booking.guests).sum := by
    have all := sum_filter_mono (p := Booking.startsIn (.finite a) (.finite b)) (q := fun _ => true)
      few.nonneg fun _ _ _ => rfl
    rwa [List.filter_true] at all
  have sum := foldl_guests low high few.valid few.nonneg le_rfl (by rwa [zero_add])
  rw [zero_add] at sum
  rw [RestaurantAssistant.isSlotAvailable_eq, JsNumber.intCast_add, JsNumber.intCast_eq,
    JsNumber.natCast_eq, JsNumber.le_finite]
  have zero : (0 : Double) = .ofInt 0 := rfl
  unfold isSlotAvailable
  dsimp only
  rw [zero, sum, Double.intCast_eq, Double.ofInt_add, Double.ofInt_le]
  · apply decide_eq_decide.mpr
    exact_mod_cast Iff.rfl
  · rw [abs_le]
    omega
  · rw [Nat.abs_cast]
    omega
  · rw [abs_of_nonneg least]
    omega
  · rw [abs_le]
    omega

/-! ## The slots -/

/-- The slots that a reservation takes. -/
def WholeSettings.slots (c : WholeSettings) : ℤ :=
  ⌈(c.reservationDuration : ℚ) / c.slotDuration⌉

theorem WholeSettings.slots_nonneg (c : WholeSettings) : 0 ≤ c.slots :=
  Int.ceil_nonneg (by positivity)

/-- They are less than a slot longer than the reservation. -/
theorem WholeSettings.slots_lt (c : WholeSettings) :
    c.slots * c.slotDuration < c.reservationDuration + c.slotDuration := by
  have divisor : (0 : ℚ) < c.slotDuration := Nat.cast_pos.mpr c.positive
  have ceil : (c.slots : ℚ) < c.reservationDuration / c.slotDuration + 1 :=
    Int.ceil_lt_add_one _
  have scaled := mul_lt_mul_of_pos_right ceil divisor
  rw [add_mul, div_mul_cancel₀ _ divisor.ne', one_mul] at scaled
  exact_mod_cast scaled

theorem WholeSettings.slot_of_minute (c : WholeSettings) (m : ℕ) :
    JsNumber.finite m / c.exact.slotDuration = .finite (m / c.slotDuration) :=
  RestaurantAssistant.slot_of_minute rfl c.positive m

theorem WholeSettings.slots_of_day (c : WholeSettings) :
    (24 * 60 : JsNumber) / c.exact.slotDuration = .finite ((1440 : ℕ) / c.slotDuration) :=
  RestaurantAssistant.slots_of_day rfl c.positive

/-- The slots of the day. -/
structure InDay (c : WholeSettings) (i : ℤ) : Prop where
  nonneg : 0 ≤ i
  minute : i * c.slotDuration < 1440

theorem le_mul_slot (nonneg : 0 ≤ i) : i ≤ i * c.slotDuration :=
  le_mul_of_one_le_right nonneg (by exact_mod_cast c.positive)

theorem InDay.digits (day : InDay c i) : |i| ≤ 2 ^ 53 := by
  have := le_mul_slot (c := c) day.nonneg
  have := day.minute
  rw [abs_of_nonneg day.nonneg]
  omega

theorem slotDuration_digits : |(c.slotDuration : ℤ)| ≤ 2 ^ 53 := by
  have := c.slot_le
  rw [Nat.abs_cast]
  omega

/-- The start of a slot of the day. -/
theorem ofInt_mul_slot (day : InDay c i) :
    Double.ofInt i * c.config.slotDuration = .ofInt (i * c.slotDuration) :=
  Double.ofInt_mul day.digits slotDuration_digits

theorem finite_mul_slot :
    JsNumber.finite i * c.exact.slotDuration = .finite (i * c.slotDuration : ℤ) := by
  change JsNumber.finite i * (c.slotDuration : JsNumber) = _
  rw [JsNumber.natCast_eq, JsNumber.finite_mul, Int.cast_mul, Int.cast_natCast]

theorem ceil_config : (c.config.reservationDuration / c.config.slotDuration).ceil =
    .ofInt c.slots := by
  have digits : |(c.reservationDuration : ℤ)| ≤ 2 ^ 53 := by
    have := c.duration_le
    rw [Nat.abs_cast]
    omega
  have small : c.slotDuration ≤ 2 ^ 53 := c.slot_le.trans (by norm_num)
  exact Double.ofInt_div_ceil digits c.positive small

theorem ceil_exact : (c.exact.reservationDuration / c.exact.slotDuration).ceil =
    .finite c.slots := by
  have divisor : (c.slotDuration : ℚ) ≠ 0 := Nat.cast_ne_zero.mpr c.positive.ne'
  change ((c.reservationDuration : JsNumber) / (c.slotDuration : JsNumber)).ceil = _
  rw [JsNumber.natCast_eq, JsNumber.natCast_eq, JsNumber.finite_div divisor, JsNumber.ceil_finite]
  rfl

/-- The check of a slot is exact. -/
theorem slotFree_ofInt (few : FewGuests bookings guests) (day : InDay c i) :
    slotFree bookings c.config.slotDuration c.config.totalSeats (guests : Double)
        (c.config.reservationDuration / c.config.slotDuration).ceil (.ofInt i) =
      RestaurantAssistant.slotFree bookings c.exact.slotDuration c.exact.totalSeats
        (guests : JsNumber) (c.exact.reservationDuration / c.exact.slotDuration).ceil
        (.finite i) := by
  have slots := c.slots_nonneg
  have longer := c.slots_lt
  have duration := c.duration_le
  have slot := c.slot_le
  have some_ := le_mul_slot (c := c) slots
  have nonneg := day.nonneg
  have minute := day.minute
  have before := le_mul_slot (c := c) nonneg
  have many : |c.slots| ≤ 2 ^ 53 := by
    rw [abs_of_nonneg slots]
    omega
  have after : |i + c.slots| ≤ 2 ^ 53 := by
    rw [abs_of_nonneg (by omega)]
    omega
  have stop : (Double.ofInt i + .ofInt c.slots) * c.config.slotDuration =
      .ofInt ((i + c.slots) * c.slotDuration) := by
    rw [Double.ofInt_add day.digits many]
    exact Double.ofInt_mul after slotDuration_digits
  have stop' : (JsNumber.finite i + .finite c.slots) * c.exact.slotDuration =
      .finite ((i + c.slots) * c.slotDuration : ℤ) := by
    rw [JsNumber.finite_add, ← Int.cast_add]
    exact finite_mul_slot
  unfold slotFree RestaurantAssistant.slotFree
  rw [ceil_config, ceil_exact, ofInt_mul_slot day, finite_mul_slot, stop, stop']
  apply isSlotAvailable_ofInt few _ _ c.seats_le
  · rw [abs_of_nonneg (by omega)]
    omega
  · rw [add_mul, abs_of_nonneg (by omega)]
    omega

/-- The text of a slot is exact. -/
theorem convertToTime_slot (day : InDay c i) :
    convertToTime (.ofInt i * c.config.slotDuration) =
      RestaurantAssistant.convertToTime (.finite i * c.exact.slotDuration) := by
  have nonneg : 0 ≤ i * c.slotDuration := day.nonneg.trans (le_mul_slot day.nonneg)
  have minute := day.minute
  rw [ofInt_mul_slot day, finite_mul_slot]
  obtain ⟨m, same⟩ := Int.eq_ofNat_of_zero_le nonneg
  rw [same, Int.cast_natCast]
  exact convertToTime_day (by omega)

/-! ## The searches -/

/-- The start times of slots. -/
def slotTimes (cfg : Config) (slots : List Double) : List String :=
  slots.map fun slot => convertToTime (slot * cfg.slotDuration)

def exactSlotTimes (cfg : RestaurantAssistant.Config) (slots : List JsNumber) : List String :=
  slots.map fun slot => RestaurantAssistant.convertToTime (slot * cfg.slotDuration)

/-- Both counters are at the same slot. -/
def SameSlot (within : ℤ → Prop) (x : Double) (y : JsNumber) : Prop :=
  ∃ i : ℤ, within i ∧ x = .ofInt i ∧ y = .finite i

theorem sameSlot_add_one (day : InDay c i) :
    SameSlot (fun i => 0 ≤ i ∧ i ≤ 1440) (.ofInt i + 1) (.finite i + 1) := by
  have nonneg := day.nonneg
  have minute := day.minute
  have before := le_mul_slot (c := c) nonneg
  refine ⟨i + 1, ⟨by omega, by omega⟩, Double.ofInt_add day.digits (by norm_num), ?_⟩
  rw [finite_add_one, Int.cast_add, Int.cast_one]

theorem sameSlot_sub_one (day : InDay c i) :
    SameSlot (fun i => -1 ≤ i ∧ i * c.slotDuration < 1440) (.ofInt i - 1) (.finite i - 1) := by
  have nonneg := day.nonneg
  have minute := day.minute
  refine ⟨i - 1, ⟨by omega, ?_⟩, Double.ofInt_sub day.digits (by norm_num), ?_⟩
  · rw [sub_mul]
    omega
  · rw [finite_sub_one, Int.cast_sub, Int.cast_one]

section Searches

variable {n : ℕ}

/-- The searches upwards go together. -/
theorem together_up (day : n ≤ 1440) (free : Double → Bool) (free' : JsNumber → Bool)
    (same : ∀ i, InDay c i → free (.ofInt i) = free' (.finite i)) :
    Together (SameSlot fun i => 0 ≤ i ∧ i ≤ 1440)
      (fun x : Double => x.lt (.ofInt n / c.config.slotDuration)) free (· + 1)
      (fun x => convertToTime (x * c.config.slotDuration))
      (fun y : JsNumber => y.lt (.finite n / c.exact.slotDuration)) free' (· + 1)
      (fun y => RestaurantAssistant.convertToTime (y * c.exact.slotDuration)) := by
  have divisor : (0 : ℚ) < c.slotDuration := Nat.cast_pos.mpr c.positive
  have bound := c.slot_of_minute n
  -- the loop runs on in the day only
  have inDay : ∀ {i : ℤ}, 0 ≤ i → (JsNumber.finite i).lt (.finite n / c.exact.slotDuration) =
      true → InDay c i := by
    intro i nonneg runs
    rw [bound, JsNumber.lt_finite, decide_eq_true_eq, lt_div_iff₀ divisor] at runs
    have minute : i * c.slotDuration < n := by exact_mod_cast runs
    exact ⟨nonneg, by omega⟩
  constructor
  · rintro _ _ ⟨i, ⟨nonneg, last⟩, rfl, rfl⟩
    have digits : |i| ≤ 2 ^ 53 := by
      rw [abs_of_nonneg nonneg]
      omega
    have minutes : |(n : ℤ)| ≤ 2 ^ 53 := by
      rw [Nat.abs_cast]
      omega
    have small : c.slotDuration ≤ 2 ^ 53 := c.slot_le.trans (by norm_num)
    rw [bound, JsNumber.lt_finite]
    exact Double.ofInt_lt_div digits minutes c.positive small
  · rintro _ _ ⟨i, ⟨nonneg, -⟩, rfl, rfl⟩ runs
    exact same i (inDay nonneg runs)
  · rintro _ _ ⟨i, ⟨nonneg, -⟩, rfl, rfl⟩ runs
    exact convertToTime_slot (inDay nonneg runs)
  · rintro _ _ ⟨i, ⟨nonneg, -⟩, rfl, rfl⟩ runs
    exact sameSlot_add_one (inDay nonneg runs)

/-- The searches downwards go together. -/
theorem together_down (free : Double → Bool) (free' : JsNumber → Bool)
    (same : ∀ i, InDay c i → free (.ofInt i) = free' (.finite i)) :
    Together (SameSlot fun i => -1 ≤ i ∧ i * c.slotDuration < 1440)
      (0 : Double).le free (· - 1) (fun x => convertToTime (x * c.config.slotDuration))
      (0 : JsNumber).le free' (· - 1)
      (fun y => RestaurantAssistant.convertToTime (y * c.exact.slotDuration)) := by
  have inDay : ∀ {i : ℤ}, i * c.slotDuration < 1440 → (0 : JsNumber).le (.finite i) = true →
      InDay c i := by
    intro i minute runs
    rw [JsNumber.ofNat_eq, JsNumber.le_finite, decide_eq_true_eq] at runs
    exact ⟨by exact_mod_cast runs, minute⟩
  constructor
  · rintro _ _ ⟨i, ⟨low, minute⟩, rfl, rfl⟩
    have digits : |i| ≤ 2 ^ 53 := by
      rcases lt_or_ge i 0 with negative | nonneg
      · rw [abs_of_neg negative]
        omega
      · exact InDay.digits ⟨nonneg, minute⟩
    have zero : (0 : Double) = .ofInt 0 := rfl
    rw [zero, Double.ofInt_le (by norm_num) digits, JsNumber.ofNat_eq, JsNumber.le_finite]
    apply decide_eq_decide.mpr
    exact_mod_cast Iff.rfl
  · rintro _ _ ⟨i, ⟨-, minute⟩, rfl, rfl⟩ runs
    exact same i (inDay minute runs)
  · rintro _ _ ⟨i, ⟨-, minute⟩, rfl, rfl⟩ runs
    exact convertToTime_slot (inDay minute runs)
  · rintro _ _ ⟨i, ⟨-, minute⟩, rfl, rfl⟩ runs
    exact sameSlot_sub_one (inDay minute runs)

/-- The search for a later and an earlier slot is exact. -/
theorem nearest_exact (few : FewGuests bookings guests) (day : InDay c i) (times : List String) :
    (∃ fuel, (findNearestAvailableSlots fuel bookings (.ofInt i) c.config.slotDuration
        c.config.totalSeats (guests : Double) c.config.reservationDuration).map
          (slotTimes c.config) = some times) ↔
      (RestaurantAssistant.findNearestAvailableSlots bookings (.finite i) c.exact.slotDuration
        c.exact.totalSeats (guests : JsNumber) c.exact.reservationDuration).map
          (exactSlotTimes c.exact) = some times := by
  have same := fun i (day : InDay c i) => slotFree_ofInt few day
  generalize isFree : slotFree bookings _ _ _ _ = free at same
  generalize isFree' : RestaurantAssistant.slotFree bookings _ _ _ _ = free' at same
  have up := together_up le_rfl free free' same
  have down := together_down free free' same
  -- the exact searches come back
  obtain ⟨later', upEnds⟩ : ∃ later, firstUp free' ((24 * 60 : JsNumber) / c.exact.slotDuration)
      (stepsUp (.finite i + 1) ((24 * 60 : JsNumber) / c.exact.slotDuration)) (.finite i + 1) =
        some later := by
    rw [c.slots_of_day, finite_add_one]
    exact Option.isSome_iff_exists.mp (firstUp_isSome (le_stepsUp _ _))
  obtain ⟨earlier', downEnds⟩ : ∃ earlier, firstDown free' (stepsDown (.finite i - 1))
      (.finite i - 1) = some earlier := by
    rw [finite_sub_one]
    exact Option.isSome_iff_exists.mp (firstDown_isSome (lt_stepsDown _))
  have exact : RestaurantAssistant.findNearestAvailableSlots bookings (.finite i)
      c.exact.slotDuration c.exact.totalSeats (guests : JsNumber) c.exact.reservationDuration =
        some (later'.toList ++ earlier'.toList) := by
    simp only [RestaurantAssistant.findNearestAvailableSlots, isFree', upEnds, downEnds]
    rfl
  rw [firstUp_eq, RestaurantAssistant.minutes_of_day] at upEnds
  rw [firstDown_eq] at downEnds
  obtain ⟨later, found, sameLater⟩ := up.exists_found (sameSlot_add_one day) upEnds
  obtain ⟨earlier, found', sameEarlier⟩ := down.exists_found (sameSlot_sub_one day) downEnds
  rw [← minutes_of_day] at found
  have texts : slotTimes c.config (later.toList ++ earlier.toList) =
      exactSlotTimes c.exact (later'.toList ++ earlier'.toList) := by
    unfold slotTimes exactSlotTimes
    rw [List.map_append, List.map_append, ← Option.toList_map, ← Option.toList_map,
      ← Option.toList_map, ← Option.toList_map, sameLater, sameEarlier]
  have search := findNearestAvailableSlots_eq_some_iff isFree found found'
  rw [exact, Option.map_some, ← texts]
  constructor
  · rintro ⟨fuel, answered⟩
    obtain ⟨slots, searched, rfl⟩ := Option.map_eq_some_iff.mp answered
    rw [(search slots).mp ⟨fuel, searched⟩]
  · intro answered
    obtain ⟨fuel, searched⟩ := (search _).mpr rfl
    refine ⟨fuel, ?_⟩
    rw [searched, Option.map_some, answered]

/-- The search of a range is exact. -/
theorem range_exact (few : FewGuests bookings guests) (day : InDay c i) (last : n ≤ 1440)
    (times : List String) :
    (∃ fuel, (findAvailableSlots fuel bookings (.ofInt i) (.ofInt n / c.config.slotDuration)
        c.config.slotDuration c.config.totalSeats (guests : Double)
        c.config.reservationDuration).map (slotTimes c.config) = some times) ↔
      (RestaurantAssistant.findAvailableSlots bookings (.finite i)
        (.finite n / c.exact.slotDuration) c.exact.slotDuration c.exact.totalSeats
        (guests : JsNumber) c.exact.reservationDuration).map
          (exactSlotTimes c.exact) = some times := by
  have same := fun i (day : InDay c i) => slotFree_ofInt few day
  have ends : (RestaurantAssistant.findAvailableSlots bookings (.finite i)
      (.finite (n / c.slotDuration)) c.exact.slotDuration c.exact.totalSeats (guests : JsNumber)
      c.exact.reservationDuration).isSome = true := findAvailableSlots_ends _ _
  rw [← c.slot_of_minute] at ends
  unfold findAvailableSlots
  unfold RestaurantAssistant.findAvailableSlots at ends ⊢
  dsimp only at ends ⊢
  rw [collectUp_eq] at ends ⊢
  have nonneg := day.nonneg
  have minute := day.minute
  have before := le_mul_slot (c := c) nonneg
  apply (together_up last _ _ same).collects_iff _ ends
  exact ⟨i, ⟨nonneg, by omega⟩, rfl, rfl⟩

end Searches

/-! ## The requests -/

/-- The time is the start of a slot. -/
def OnSlot (S : ℕ) (time : String) : Prop :=
  ∃ k : ℕ, RestaurantAssistant.convertToMinutes time = .finite (k * S : ℕ)

/-- Times of day and not too many guests; and what starts a search starts a slot. -/
def Ordinary (S : ℕ) : Request → Prop
  | .query (.checkAvailability data) => data.timed = true ∧ |data.guests| ≤ 2 ^ 52 ∧
    ∀ range, data.timeRange = .given range → OnSlot S range.start
  | .mutation (.createReservation data) => isValidTimeString data.time = true ∧
    |data.guests| ≤ 2 ^ 52 ∧ OnSlot S data.time
  | _ => True

/-- The request has an answer in exact arithmetic, and is answered with it and nothing else: with
the same availability, or by the same check and with the same suggestions. -/
def AnsweredExactly (c : WholeSettings) (T : Tables) : Request → Prop
  | .query (.checkAvailability data) =>
    ∃ answer, RestaurantAssistant.availabilityOf c.exact (T.bookingsOn data.date) data =
        some answer ∧
      ∀ out, (∃ fuel, availabilityOf fuel c.config (T.bookingsOn data.date) data = some out) ↔
        out = answer
  | .mutation (.createReservation data) =>
    hasRoom c.config (T.bookingsOn data.date) data =
        RestaurantAssistant.hasRoom c.exact T data.date data.time data.guests ∧
      (hasRoom c.config (T.bookingsOn data.date) data = false →
        ∃ slots, nearestSlots c.exact T data = some slots ∧
          ∀ times, (∃ fuel, suggestionsOf fuel c.config (T.bookingsOn data.date) data =
            some times) ↔ times = exactSlotTimes c.exact slots)
  | _ => True

variable {time : String} {T : Tables}

theorem slot_of_time (valid : isValidTimeString time = true) (onSlot : OnSlot c.slotDuration time) :
    ∃ i, InDay c i ∧ convertToMinutes time / c.config.slotDuration = .ofInt i ∧
      RestaurantAssistant.convertToMinutes time / c.exact.slotDuration = .finite i := by
  obtain ⟨m, day, exact, double⟩ := convertToMinutes_of_valid valid
  obtain ⟨k, same⟩ := onSlot
  rw [exact] at same
  obtain rfl : m = k * c.slotDuration := Nat.cast_injective (JsNumber.finite.inj same)
  have inDay : InDay c k := ⟨Int.natCast_nonneg k, by exact_mod_cast day⟩
  refine ⟨k, inDay, ?_, ?_⟩
  · have digits : |(k : ℤ) * c.slotDuration| ≤ 2 ^ 53 := by
      have minute := inDay.minute
      rw [abs_of_nonneg (by positivity)]
      omega
    rw [double, Nat.cast_mul]
    exact Double.ofInt_mul_div digits inDay.digits c.positive (c.slot_le.trans (by norm_num))
  · have divisor : (c.slotDuration : ℚ) ≠ 0 := Nat.cast_ne_zero.mpr c.positive.ne'
    rw [exact, c.slot_of_minute, Nat.cast_mul, mul_div_cancel_right₀ _ divisor, Int.cast_natCast]

/-- The check of a reservation is exact. -/
theorem window_exact (few : FewGuests bookings guests) (valid : isValidTimeString time = true) :
    isSlotAvailable bookings (convertToMinutes time)
        (convertToMinutes time + c.config.reservationDuration) c.config.totalSeats
        (guests : Double) =
      RestaurantAssistant.isSlotAvailable bookings (RestaurantAssistant.convertToMinutes time)
        (RestaurantAssistant.convertToMinutes time + c.exact.reservationDuration)
        c.exact.totalSeats (guests : JsNumber) := by
  obtain ⟨m, day, exact, double⟩ := convertToMinutes_of_valid valid
  have duration := c.duration_le
  have minute : |(m : ℤ)| ≤ 2 ^ 53 := by
    rw [Nat.abs_cast]
    omega
  have digits : |(c.reservationDuration : ℤ)| ≤ 2 ^ 53 := by
    rw [Nat.abs_cast]
    omega
  have stop : Double.ofInt m + c.config.reservationDuration =
      .ofInt ((m : ℤ) + c.reservationDuration) := Double.ofInt_add minute digits
  have stop' : JsNumber.finite m + c.exact.reservationDuration =
      .finite (((m : ℤ) + c.reservationDuration : ℤ) : ℚ) := by
    change JsNumber.finite m + (c.reservationDuration : JsNumber) = _
    rw [JsNumber.natCast_eq, JsNumber.finite_add]
    push_cast
    rfl
  rw [exact, double, stop, stop', ← Int.cast_natCast (R := ℚ) m]
  apply isSlotAvailable_ofInt few minute _ c.seats_le
  rw [abs_of_nonneg (by positivity)]
  omega

theorem fewGuests_of_wellFormed {date : String} (wf : WellFormed T)
    (few : ((T.bookingsOn date).map Booking.guests).sum ≤ 2 ^ 52) (party : |guests| ≤ 2 ^ 52) :
    FewGuests (T.bookingsOn date) guests := by
  have stored : ∀ res ∈ T.bookingsOn date, isValidTimeString res.time = true ∧ 1 ≤ res.guests := by
    intro res member
    obtain ⟨r, onDate, rfl⟩ := List.mem_map.mp member
    exact wf r (List.mem_filter.mp onDate).1
  exact ⟨fun res member => (stored res member).1, fun res member => by
    have := (stored res member).2
    omega, few, party⟩

/-- The answer of a range query with these times. -/
def rangeAnswer (times : List String) : CheckAvailabilityOutput where
  message := if times.length > 0 then "Available slots within range"
    else "No available slots in the given range"
  availableSlots := times

theorem map_rangeOutput {cfg : Config} {slots : Option (List Double)} :
    slots.map (rangeOutput cfg) =
      (slots.map (slotTimes cfg)).map rangeAnswer := by
  cases slots with
  | none => rfl
  | some slots => simp only [Option.map_some, rangeOutput, rangeAnswer, slotTimes, List.length_map]

theorem availabilityOf_range_exact {cfg : RestaurantAssistant.Config}
    {data : CheckAvailabilityInput} {range : TimeRangeInput} (absent : data.time.text = none)
    (given : data.timeRange = .given range) :
    RestaurantAssistant.availabilityOf cfg bookings data =
      ((RestaurantAssistant.findAvailableSlots bookings
        (RestaurantAssistant.convertToMinutes range.start / cfg.slotDuration)
        (RestaurantAssistant.convertToMinutes range.stop / cfg.slotDuration) cfg.slotDuration
        cfg.totalSeats (data.guests : JsNumber) cfg.reservationDuration).map
          (exactSlotTimes cfg)).map rangeAnswer := by
  unfold RestaurantAssistant.availabilityOf
  rw [absent, given]
  dsimp only
  generalize RestaurantAssistant.findAvailableSlots _ _ _ _ _ _ _ = slots
  cases slots with
  | none => rfl
  | some slots => simp only [Option.map_some, rangeAnswer, exactSlotTimes, List.length_map]

/-- An availability query has the exact answer. -/
theorem availability_exact {data : CheckAvailabilityInput} (timed : data.timed = true)
    (few : FewGuests bookings data.guests)
    (onSlot : ∀ range, data.timeRange = .given range → OnSlot c.slotDuration range.start)
    {out : CheckAvailabilityOutput} :
    (∃ fuel, availabilityOf fuel c.config bookings data = some out) ↔
      RestaurantAssistant.availabilityOf c.exact bookings data = some out := by
  rcases data.timed_cases timed with ⟨time, given, valid, -⟩ | ⟨range, absent, given, start, stop⟩
  · have text : data.time.text = some time := by rw [given, text_of_valid valid]
    simp only [availabilityOf_time text, window_exact few valid, exists_const,
      RestaurantAssistant.availabilityOf, text]
    split <;> rfl
  · have text := text_of_toOption absent
    obtain ⟨i, day, first, first'⟩ := slot_of_time start (onSlot range given)
    obtain ⟨n, last, minutes, minutes'⟩ := convertToMinutes_of_valid stop
    have search := range_exact few day last.le
    rw [availabilityOf_range_exact text given, first', minutes]
    simp only [availabilityOf_range text given, map_rangeOutput, slotsIn, first, minutes']
    constructor
    · rintro ⟨fuel, answered⟩
      obtain ⟨times, searched, rfl⟩ := Option.map_eq_some_iff.mp answered
      rw [(search times).mp ⟨fuel, searched⟩]
      rfl
    · intro answered
      obtain ⟨times, searched, rfl⟩ := Option.map_eq_some_iff.mp answered
      obtain ⟨fuel, searched⟩ := (search times).mpr searched
      refine ⟨fuel, ?_⟩
      rw [searched]
      rfl

/-- **The numbers make no difference.**  Where times start slots of whole minutes, a request is
answered in binary64 as in exact arithmetic. -/
theorem answered_exactly (c : WholeSettings) {r : Request} (wf : WellFormed T)
    (few : ∀ date, ((T.bookingsOn date).map Booking.guests).sum ≤ 2 ^ 52)
    (ordinary : Ordinary c.slotDuration r) : AnsweredExactly c T r := by
  rcases r with (_ | data) | data | id | data
  · trivial
  · obtain ⟨timed, party, onSlot⟩ := ordinary
    have few := fewGuests_of_wellFormed wf (few data.date) party
    have times := Request.timesOfDay_of_conform (q := .checkAvailability data) timed
    have ends : (RestaurantAssistant.availabilityOf c.exact (T.bookingsOn data.date)
        data).isSome = true := availabilityOf_isSome rfl c.positive times
    obtain ⟨answer, answered⟩ := Option.isSome_iff_exists.mp ends
    refine ⟨answer, answered, ?_⟩
    intro out
    rw [availability_exact timed few onSlot, answered, Option.some.injEq, eq_comm]
  · obtain ⟨valid, party, onSlot⟩ := ordinary
    have few := fewGuests_of_wellFormed wf (few data.date) party
    refine ⟨window_exact few valid, ?_⟩
    intro full
    have ends : (nearestSlots c.exact T data).isSome = true :=
      findNearestAvailableSlots_isSome rfl c.positive valid
    obtain ⟨slots, found⟩ := Option.isSome_iff_exists.mp ends
    refine ⟨slots, found, ?_⟩
    intro times
    obtain ⟨i, day, slot, slot'⟩ := slot_of_time valid onSlot
    unfold nearestSlots at found
    rw [slot'] at found
    have search := nearest_exact few day times
    rw [found, Option.map_some, Option.some.injEq] at search
    simp only [suggestionsOf, full, Bool.false_eq_true, if_false, slot]
    exact search.trans eq_comm
  · trivial
  · trivial

/-- Four more guests at six, where all seats are taken. -/
theorem answered_exactly_full : AnsweredExactly .default oneFull
    (.mutation (.createReservation ⟨"Bob", "2025-03-10", "18:00", 4⟩)) := by
  apply answered_exactly
  · intro r member
    cases List.mem_singleton.mp member
    exact ⟨by decide +kernel, by decide⟩
  · intro date
    unfold Tables.bookingsOn Tables.on oneFull
    by_cases same : "2025-03-10" = date
    · simp [same]
    · simp [same]
  · exact ⟨by decide +kernel, by decide, 36, by decide +kernel⟩

end RestaurantAssistant.Binary64
