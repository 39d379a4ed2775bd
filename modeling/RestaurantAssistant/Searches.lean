import Mathlib.Order.Bounds.Basic
import RestaurantAssistant.Loops

/-!
# What the slot searches find

`findNearestAvailableSlots` returns the nearest free slot on either side of the
requested one: the least of `laterSlots` and the greatest of `earlierSlots`
(`nearest_of_search`).

Both searches only ask which slots are free, and a slot that is free beside some
bookings is free beside fewer of them, for fewer guests and with more seats
(`searchFree_mono`).  So the answers compare in the same way, and the order of the
rows does not matter.
-/

namespace RestaurantAssistant

open Js

/-! ## The nearest slots -/

section Nearest

variable {free : JsNumber → Bool} {fuel : Nat} {a b q : ℚ}

/-- The free slots some steps above `q` and below the bound. -/
def laterSlots (free : JsNumber → Bool) (q b : ℚ) : Set ℚ :=
  {x | ∃ k : Nat, 1 ≤ k ∧ x = q + k ∧ x < b ∧ free (.finite x) = true}

/-- The free slots some steps below `q`, down to zero. -/
def earlierSlots (free : JsNumber → Bool) (q : ℚ) : Set ℚ :=
  {x | ∃ k : Nat, 1 ≤ k ∧ x = q - k ∧ 0 ≤ x ∧ free (.finite x) = true}

/-- The best element of a set of slots, if it has one. -/
def IsBest (slots : Set ℚ) (best : ℚ → Prop) (found : Option ℚ) : Prop :=
  (found = none ↔ slots = ∅) ∧ ∀ x, found = some x ↔ best x

theorem isBest_none {slots : Set ℚ} {best : ℚ → Prop} (member : ∀ x, best x → x ∈ slots)
    (empty : slots = ∅) : IsBest slots best none := by
  refine ⟨iff_of_true rfl empty, fun x => iff_of_false nofun ?_⟩
  intro found
  have here := member x found
  rw [empty] at here
  exact here

theorem isBest_some {slots : Set ℚ} {best : ℚ → Prop} {x : ℚ}
    (member : ∀ x, best x → x ∈ slots) (unique : ∀ y, best y → x = y) (here : best x) :
    IsBest slots best (some x) := by
  refine ⟨iff_of_false nofun (Set.nonempty_iff_ne_empty.mp ⟨x, member x here⟩), fun y => ?_⟩
  constructor
  · intro same
    cases same
    exact here
  · intro other
    rw [unique y other]

theorem IsBest.exists_of_mem {slots : Set ℚ} {best : ℚ → Prop} {found : Option ℚ} {x : ℚ}
    (isBest : IsBest slots best found) (member : x ∈ slots) : ∃ y, found = some y ∧ best y := by
  cases found with
  | none =>
    rw [isBest.1.mp rfl] at member
    exact member.elim
  | some y => exact ⟨y, rfl, (isBest.2 y).mp rfl⟩

/-- The search for a later slot leaves with the least one, if there is any. -/
theorem later_of_firstUp {found : Option JsNumber}
    (up : firstUp free (.finite b) fuel (.finite (q + 1)) = some found) :
    ∃ later : Option ℚ, found = later.map .finite ∧
      IsBest (laterSlots free q b) (IsLeast (laterSlots free q b)) later := by
  have shift : ∀ k : Nat, q + ((k + 1 : Nat) : ℚ) = q + 1 + k := by
    intro k
    push_cast
    ring
  cases found with
  | none =>
    refine ⟨none, rfl, isBest_none (fun _ least => least.1) ?_⟩
    apply Set.eq_empty_of_forall_notMem
    rintro x ⟨k, positive, rfl, below, here⟩
    obtain ⟨k, rfl⟩ : ∃ j, k = j + 1 := ⟨k - 1, by omega⟩
    rw [shift] at below here
    rw [not_free_of_firstUp up below] at here
    cases here
  | some y =>
    obtain ⟨k, rfl, below, here, before⟩ := of_firstUp up
    rw [JsNumber.lt_finite, decide_eq_true_eq] at below
    have least : IsLeast (laterSlots free q b) (q + 1 + k) := by
      refine ⟨⟨k + 1, by omega, (shift k).symm, below, here⟩, ?_⟩
      rintro x ⟨j, positive, rfl, _, free'⟩
      obtain ⟨j, rfl⟩ : ∃ i, j = i + 1 := ⟨j - 1, by omega⟩
      rw [shift] at free' ⊢
      have order : k ≤ j := by
        by_contra earlier
        rw [before j (by omega)] at free'
        cases free'
      have cast : (k : ℚ) ≤ j := Nat.cast_le.mpr order
      linarith
    exact ⟨some _, rfl, isBest_some (fun _ least => least.1) (fun _ => least.unique) least⟩

theorem earlier_of_firstDown {found : Option JsNumber}
    (down : firstDown free fuel (.finite (q - 1)) = some found) :
    ∃ earlier : Option ℚ, found = earlier.map .finite ∧
      IsBest (earlierSlots free q) (IsGreatest (earlierSlots free q)) earlier := by
  have shift : ∀ k : Nat, q - ((k + 1 : Nat) : ℚ) = q - 1 - k := by
    intro k
    push_cast
    ring
  cases found with
  | none =>
    refine ⟨none, rfl, isBest_none (fun _ greatest => greatest.1) ?_⟩
    apply Set.eq_empty_of_forall_notMem
    rintro x ⟨k, positive, rfl, above, here⟩
    obtain ⟨k, rfl⟩ : ∃ j, k = j + 1 := ⟨k - 1, by omega⟩
    rw [shift] at above here
    rw [not_free_of_firstDown down above] at here
    cases here
  | some y =>
    obtain ⟨k, rfl, above, here, before⟩ := of_firstDown down
    rw [JsNumber.ofNat_eq, JsNumber.le_finite, decide_eq_true_eq, Nat.cast_zero] at above
    have greatest : IsGreatest (earlierSlots free q) (q - 1 - k) := by
      refine ⟨⟨k + 1, by omega, (shift k).symm, above, here⟩, ?_⟩
      rintro x ⟨j, positive, rfl, _, free'⟩
      obtain ⟨j, rfl⟩ : ∃ i, j = i + 1 := ⟨j - 1, by omega⟩
      rw [shift] at free' ⊢
      have order : k ≤ j := by
        by_contra later
        rw [before j (by omega)] at free'
        cases free'
      have cast : (k : ℚ) ≤ j := Nat.cast_le.mpr order
      linarith
    exact ⟨some _, rfl,
      isBest_some (fun _ greatest => greatest.1) (fun _ => greatest.unique) greatest⟩

end Nearest

/-! ## The search around a slot -/

variable {reservations reservations' : List Booking}
  {slotDuration totalSeats totalSeats' guests guests' reservationDuration : JsNumber}

/-- The slots both searches take for free. -/
def searchFree (reservations : List Booking)
    (slotDuration totalSeats guests reservationDuration : JsNumber) : JsNumber → Bool :=
  slotFree reservations slotDuration totalSeats guests (reservationDuration / slotDuration).ceil

/-- The search returns the nearest slots on either side, the later one first. -/
theorem nearest_of_search {q b : ℚ} {free : JsNumber → Bool}
    (finite : (24 * 60 : JsNumber) / slotDuration = .finite b)
    (sees : searchFree reservations slotDuration totalSeats guests reservationDuration = free) :
    ∃ later earlier : Option ℚ,
      findNearestAvailableSlots reservations (.finite q) slotDuration totalSeats guests
        reservationDuration = some ((later.toList ++ earlier.toList).map .finite) ∧
      IsBest (laterSlots free q b) (IsLeast (laterSlots free q b)) later ∧
      IsBest (earlierSlots free q) (IsGreatest (earlierSlots free q)) earlier := by
  unfold searchFree at sees
  obtain ⟨found, up⟩ : ∃ found, firstUp free (.finite b)
      (stepsUp (.finite (q + 1)) (.finite b)) (.finite (q + 1)) = some found :=
    Option.isSome_iff_exists.mp (firstUp_isSome (le_stepsUp (q + 1) b))
  obtain ⟨found', down⟩ : ∃ found, firstDown free (stepsDown (.finite (q - 1)))
      (.finite (q - 1)) = some found :=
    Option.isSome_iff_exists.mp (firstDown_isSome (lt_stepsDown (q - 1)))
  obtain ⟨later, rfl, least⟩ := later_of_firstUp up
  obtain ⟨earlier, rfl, greatest⟩ := earlier_of_firstDown down
  refine ⟨later, earlier, ?_, least, greatest⟩
  simp only [findNearestAvailableSlots, sees, finite, finite_add_one, finite_sub_one, up, down,
    Option.bind_eq_bind, Option.bind_some]
  cases later <;> cases earlier <;> rfl

/-- A day in slots. -/
theorem day_div_finite {slot : ℚ} (positive : 0 < slot) :
    (24 * 60 : JsNumber) / .finite slot = .finite (1440 / slot) := by
  have day : (24 * 60 : JsNumber) = .finite ((24 : Nat) * (60 : Nat)) := rfl
  rw [day, JsNumber.finite_div positive.ne']
  norm_num

/-- The window of a slot, in minutes. -/
theorem searchFree_finite {slot : ℚ} (positive : 0 < slot) (duration x : ℚ) :
    searchFree reservations (.finite slot) totalSeats guests (.finite duration) (.finite x) =
      isSlotAvailable reservations (.finite (x * slot)) (.finite ((x + ⌈duration / slot⌉) * slot))
        totalSeats guests := by
  rw [searchFree, slotFree, JsNumber.finite_div positive.ne', JsNumber.ceil_finite,
    JsNumber.finite_add, JsNumber.finite_mul, JsNumber.finite_mul]

theorem lt_of_mem_laterSlots {free : JsNumber → Bool} {q b x : ℚ}
    (member : x ∈ laterSlots free q b) :
    q < x := by
  obtain ⟨k, one, rfl, -⟩ := member
  have cast : (1 : ℚ) ≤ k := Nat.one_le_cast.mpr one
  linarith

theorem lt_of_mem_earlierSlots {free : JsNumber → Bool} {q x : ℚ}
    (member : x ∈ earlierSlots free q) :
    x < q := by
  obtain ⟨k, one, rfl, -⟩ := member
  have cast : (1 : ℚ) ≤ k := Nat.one_le_cast.mpr one
  linarith

/-- The nearest free slot on each side, and nothing else: first the least free slot some
steps above the requested one within the day, then the greatest one some steps below it.
A slot is free if its window, the reservation's duration in whole slots, has room. -/
theorem nearest_slots_exact {slot : ℚ} (positive : 0 < slot) (q duration : ℚ)
    (reservations : List Booking) (totalSeats guests : JsNumber) :
    (∀ x : ℚ, searchFree reservations (.finite slot) totalSeats guests (.finite duration)
      (.finite x) =
      isSlotAvailable reservations (.finite (x * slot)) (.finite ((x + ⌈duration / slot⌉) * slot))
        totalSeats guests) ∧
    ∃ later earlier : Option ℚ,
      findNearestAvailableSlots reservations (.finite q) (.finite slot) totalSeats guests
        (.finite duration) = some ((later.toList ++ earlier.toList).map .finite) ∧
      (∀ x, later = some x ↔ IsLeast (laterSlots (searchFree reservations (.finite slot)
        totalSeats guests (.finite duration)) q (1440 / slot)) x) ∧
      (∀ x, earlier = some x ↔ IsGreatest (earlierSlots (searchFree reservations (.finite slot)
        totalSeats guests (.finite duration)) q) x) ∧
      (later.toList ++ earlier.toList = [] ↔
        laterSlots (searchFree reservations (.finite slot) totalSeats guests (.finite duration)) q
          (1440 / slot) = ∅ ∧
        earlierSlots
          (searchFree reservations (.finite slot) totalSeats guests (.finite duration)) q = ∅) ∧
      ∀ x ∈ later.toList ++ earlier.toList, x ≠ q := by
  refine ⟨searchFree_finite positive duration, ?_⟩
  obtain ⟨later, earlier, found, ⟨none, least⟩, none', greatest⟩ :=
    nearest_of_search (q := q) (day_div_finite positive)
      (rfl : searchFree reservations (.finite slot) totalSeats guests (.finite duration) = _)
  refine ⟨later, earlier, found, least, greatest, ?_, ?_⟩
  · rw [List.append_eq_nil_iff, Option.toList_eq_nil_iff, Option.toList_eq_nil_iff, none, none']
  · intro x member
    rw [List.mem_append, Option.mem_toList, Option.mem_toList] at member
    rcases member with above | below
    · exact (lt_of_mem_laterSlots ((least x).mp above).1).ne'
    · exact (lt_of_mem_earlierSlots ((greatest x).mp below).1).ne

/-- Beside forty guests at half past six, twenty find room half an hour later and an hour
earlier. -/
theorem nearest_slots_around_half_past_six :
    (0 : ℚ) < 30 ∧
    findNearestAvailableSlots [⟨"18:30", 40⟩] (.finite 37) (.finite 30) 50 20 (.finite 60) =
      some [.finite 38, .finite 35] ∧
    ∃ later earlier : Option ℚ,
      findNearestAvailableSlots [⟨"18:30", 40⟩] (.finite 37) (.finite 30) 50 20 (.finite 60) =
        some ((later.toList ++ earlier.toList).map .finite) ∧
      (∀ x, later = some x ↔ IsLeast (laterSlots
        (searchFree [⟨"18:30", 40⟩] (.finite 30) 50 20 (.finite 60)) 37 (1440 / 30)) x) ∧
      ∀ x, earlier = some x ↔ IsGreatest (earlierSlots
        (searchFree [⟨"18:30", 40⟩] (.finite 30) 50 20 (.finite 60)) 37) x := by
  obtain ⟨-, later, earlier, found, least, greatest, -⟩ :=
    nearest_slots_exact (show (0 : ℚ) < 30 by norm_num) 37 60 [⟨"18:30", 40⟩] 50 20
  exact ⟨by norm_num, by decide +kernel, later, earlier, found, least, greatest⟩

/-! ## Fewer bookings, fewer guests, more seats -/

/-- Fewer rows, in any order, occupy no more seats. -/
theorem occupiedSeats_mono {startTime endTime : JsNumber}
    (fewer : reservations.Subperm reservations')
    (nonneg : ∀ res ∈ reservations', 0 ≤ res.guests) :
    occupiedSeats reservations startTime endTime ≤
      occupiedSeats reservations' startTime endTime := by
  obtain ⟨rows, perm, sublist⟩ := fewer
  have same : occupiedSeats reservations startTime endTime = occupiedSeats rows startTime endTime :=
    ((perm.symm.filter _).map _).sum_eq
  rw [same]
  refine List.Sublist.sum_le_sum ((sublist.filter _).map _) ?_
  intro n member
  obtain ⟨res, selected, rfl⟩ := List.mem_map.mp member
  exact nonneg res (List.mem_filter.mp selected).1

/-- **A free slot stays free** when bookings go, the party gets smaller or seats are
added. -/
theorem searchFree_mono (fewer : reservations.Subperm reservations')
    (nonneg : ∀ res ∈ reservations', 0 ≤ res.guests) (smaller : guests.le guests' = true)
    (seats : totalSeats'.le totalSeats = true) {i : JsNumber}
    (free : searchFree reservations' slotDuration totalSeats' guests' reservationDuration
      i = true) :
    searchFree reservations slotDuration totalSeats guests reservationDuration i = true := by
  unfold searchFree slotFree at *
  rw [isSlotAvailable_eq] at *
  refine JsNumber.le_trans ?_ (JsNumber.le_trans free seats)
  exact JsNumber.intCast_add_le (occupiedSeats_mono fewer nonneg) smaller

/-- Rows in another order occupy the same seats. -/
theorem searchFree_perm (perm : reservations.Perm reservations') :
    searchFree reservations slotDuration totalSeats guests reservationDuration =
      searchFree reservations' slotDuration totalSeats guests reservationDuration := by
  funext i
  unfold searchFree slotFree
  rw [isSlotAvailable_eq, isSlotAvailable_eq, occupiedSeats, occupiedSeats,
    ((perm.filter _).map _).sum_eq]

section Monotone

variable (fewer : reservations.Subperm reservations')
  (nonneg : ∀ res ∈ reservations', 0 ≤ res.guests) (smaller : guests.le guests' = true)
  (seats : totalSeats'.le totalSeats = true)

include fewer nonneg smaller seats

/-- The range search finds a part of the slots. -/
theorem findAvailableSlots_mono (startSlot endSlot : ℚ) : ∃ slots slots',
    findAvailableSlots reservations (.finite startSlot) (.finite endSlot) slotDuration totalSeats
      guests reservationDuration = some slots ∧
    findAvailableSlots reservations' (.finite startSlot) (.finite endSlot) slotDuration totalSeats'
      guests' reservationDuration = some slots' ∧
    slots'.Sublist slots := by
  have ends : ∀ {reservations : List Booking} {totalSeats guests : JsNumber},
      ∃ slots, findAvailableSlots reservations (.finite startSlot) (.finite endSlot) slotDuration
        totalSeats guests reservationDuration = some slots :=
    Option.isSome_iff_exists.mp (findAvailableSlots_ends startSlot endSlot)
  obtain ⟨slots, found⟩ := ends
  obtain ⟨slots', found'⟩ := ends
  refine ⟨slots, slots', found, found', ?_⟩
  unfold findAvailableSlots at found found'
  rw [collectUp_eq] at found found'
  exact forCollect_sublist (fun i => searchFree_mono fewer nonneg smaller seats) found found'

/-- The search around a slot finds nothing nearer. -/
theorem findNearestAvailableSlots_mono {b : ℚ}
    (finite : (24 * 60 : JsNumber) / slotDuration = .finite b) (q : ℚ) :
    ∃ slots slots' : List ℚ,
      findNearestAvailableSlots reservations (.finite q) slotDuration totalSeats guests
        reservationDuration = some (slots.map .finite) ∧
      findNearestAvailableSlots reservations' (.finite q) slotDuration totalSeats' guests'
        reservationDuration = some (slots'.map .finite) ∧
      (∀ x ∈ slots', q < x → ∃ y ∈ slots, q < y ∧ y ≤ x) ∧
      ∀ x ∈ slots', x < q → ∃ y ∈ slots, x ≤ y ∧ y < q := by
  have imp : ∀ i, searchFree reservations' slotDuration totalSeats' guests' reservationDuration i =
      true → searchFree reservations slotDuration totalSeats guests reservationDuration i = true :=
    fun i => searchFree_mono fewer nonneg smaller seats
  obtain ⟨later, earlier, found, least, greatest⟩ := nearest_of_search (q := q) finite
    (rfl : searchFree reservations slotDuration totalSeats guests reservationDuration = _)
  obtain ⟨later', earlier', found', least', greatest'⟩ := nearest_of_search (q := q) finite
    (rfl : searchFree reservations' slotDuration totalSeats' guests' reservationDuration = _)
  refine ⟨_, _, found, found', ?_, ?_⟩
  · intro x member above
    rw [List.mem_append, Option.mem_toList, Option.mem_toList] at member
    rcases member with here | there
    · obtain ⟨k, one, rfl, below, free⟩ := ((least'.2 x).mp here).1
      obtain ⟨y, same, first⟩ := least.exists_of_mem ⟨k, one, rfl, below, imp _ free⟩
      refine ⟨y, ?_, lt_of_mem_laterSlots first.1, first.2 ⟨k, one, rfl, below, imp _ free⟩⟩
      exact List.mem_append_left _ (Option.mem_toList.mpr same)
    · have below := lt_of_mem_earlierSlots ((greatest'.2 x).mp there).1
      exact absurd above below.not_gt
  · intro x member below
    rw [List.mem_append, Option.mem_toList, Option.mem_toList] at member
    rcases member with there | here
    · have above := lt_of_mem_laterSlots ((least'.2 x).mp there).1
      exact absurd below above.not_gt
    · obtain ⟨k, one, rfl, above, free⟩ := ((greatest'.2 x).mp here).1
      obtain ⟨y, same, last⟩ := greatest.exists_of_mem ⟨k, one, rfl, above, imp _ free⟩
      refine ⟨y, ?_, last.2 ⟨k, one, rfl, above, imp _ free⟩, lt_of_mem_earlierSlots last.1⟩
      exact List.mem_append_right _ (Option.mem_toList.mpr same)

end Monotone

/-- Rows in another order give the same answers. -/
theorem searches_perm {rows rows' : List Booking} (perm : rows.Perm rows')
    (q startSlot endSlot slotDuration totalSeats guests reservationDuration : JsNumber) :
    findAvailableSlots rows startSlot endSlot slotDuration totalSeats guests reservationDuration =
      findAvailableSlots rows' startSlot endSlot slotDuration totalSeats guests
        reservationDuration ∧
    findNearestAvailableSlots rows q slotDuration totalSeats guests reservationDuration =
      findNearestAvailableSlots rows' q slotDuration totalSeats guests reservationDuration := by
  have same : slotFree rows slotDuration totalSeats guests
      (reservationDuration / slotDuration).ceil = slotFree rows' slotDuration totalSeats guests
        (reservationDuration / slotDuration).ceil := searchFree_perm perm
  simp only [findAvailableSlots, findNearestAvailableSlots, same, and_self]

theorem day_div_positive (positive : (0 : JsNumber).lt slotDuration = true) :
    ∃ b, (24 * 60 : JsNumber) / slotDuration = .finite b := by
  cases slotDuration with
  | nan =>
    rw [JsNumber.lt_nan] at positive
    cases positive
  | infinity s => exact ⟨0, rfl⟩
  | finite slot =>
    rw [JsNumber.ofNat_eq, JsNumber.lt_finite, decide_eq_true_eq, Nat.cast_zero] at positive
    exact ⟨_, day_div_finite positive⟩

/-- Availability is monotone and does not depend on the order of the rows.  With more
bookings, a larger party and fewer seats the range search finds a part of the slots, in
the same order, and the search around a slot finds nothing nearer. -/
theorem availability_monotone (fewer : reservations.Subperm reservations')
    (nonneg : ∀ res ∈ reservations', 0 ≤ res.guests) (smaller : guests.le guests' = true)
    (seats : totalSeats'.le totalSeats = true) (positive : (0 : JsNumber).lt slotDuration = true) :
    (∀ startSlot endSlot : ℚ, ∃ slots slots',
      findAvailableSlots reservations (.finite startSlot) (.finite endSlot) slotDuration totalSeats
        guests reservationDuration = some slots ∧
      findAvailableSlots reservations' (.finite startSlot) (.finite endSlot) slotDuration
        totalSeats' guests' reservationDuration = some slots' ∧
      slots'.Sublist slots) ∧
    (∀ q : ℚ, ∃ slots slots' : List ℚ,
      findNearestAvailableSlots reservations (.finite q) slotDuration totalSeats guests
        reservationDuration = some (slots.map .finite) ∧
      findNearestAvailableSlots reservations' (.finite q) slotDuration totalSeats' guests'
        reservationDuration = some (slots'.map .finite) ∧
      (∀ x ∈ slots', q < x → ∃ y ∈ slots, q < y ∧ y ≤ x) ∧
      ∀ x ∈ slots', x < q → ∃ y ∈ slots, x ≤ y ∧ y < q) ∧
    ∀ rows rows' : List Booking, rows.Perm rows' →
      ∀ q startSlot endSlot slotDuration totalSeats guests reservationDuration,
        findAvailableSlots rows startSlot endSlot slotDuration totalSeats guests
            reservationDuration =
          findAvailableSlots rows' startSlot endSlot slotDuration totalSeats guests
            reservationDuration ∧
        findNearestAvailableSlots rows q slotDuration totalSeats guests reservationDuration =
          findNearestAvailableSlots rows' q slotDuration totalSeats guests reservationDuration := by
  obtain ⟨b, finite⟩ := day_div_positive positive
  exact ⟨findAvailableSlots_mono fewer nonneg smaller seats,
    findNearestAvailableSlots_mono fewer nonneg smaller seats finite, fun _ _ => searches_perm⟩

/-- A cancellation, a smaller party and five more seats leave every suggestion in
place. -/
theorem availability_after_cancellation :
    ([⟨"18:00", 20⟩] : List Booking).Subperm [⟨"18:30", 40⟩, ⟨"18:00", 20⟩] ∧
    (10 : JsNumber).le 20 = true ∧ (50 : JsNumber).le 55 = true ∧ (0 : JsNumber).lt 30 = true ∧
    ∀ startSlot endSlot : ℚ, ∃ slots slots',
      findAvailableSlots [⟨"18:00", 20⟩] (.finite startSlot) (.finite endSlot) 30 55 10 60 =
        some slots ∧
      findAvailableSlots [⟨"18:30", 40⟩, ⟨"18:00", 20⟩] (.finite startSlot) (.finite endSlot) 30 50
        20 60 = some slots' ∧
      slots'.Sublist slots := by
  have fewer : ([⟨"18:00", 20⟩] : List Booking).Subperm [⟨"18:30", 40⟩, ⟨"18:00", 20⟩] :=
    List.Subperm.cons_self
  have smaller : (10 : JsNumber).le 20 = true := by decide +kernel
  have seats : (50 : JsNumber).le 55 = true := by decide +kernel
  have positive : (0 : JsNumber).lt 30 = true := by decide +kernel
  refine ⟨fewer, smaller, seats, positive, ?_⟩
  exact (availability_monotone fewer (by decide) smaller seats positive).1

end RestaurantAssistant
