import RestaurantAssistant.ConcurrentUpdates

/-!
# What an update stores

`updateReservation` copies the properties of its input onto the row with
`Object.assign` and saves the row.  `date`, `time` and `guests` are columns, and
what the input gives of them is stored.  `customerName` is validated like the
others, but the entity has no such column: the row keeps its customer
(`update_stores_given_fields_iff`).
-/

namespace RestaurantAssistant

open Awaiting Js

variable {db : QueryEngine} {rounds : Nat} {data : UpdateReservationInput} {old : Reservation}
  {w w' : World}

/-- The row of the input's id has the values the input gives and its old ones
otherwise, and the other rows are as before. -/
structure StoresGiven (data : UpdateReservationInput) (old : Reservation) (T T' : Tables) :
    Prop where
  row : ∃ new, T'.find data.id = some new ∧ new.date = data.date.overlay old.date ∧
    new.time = data.time.overlay old.time ∧ new.guests = data.guests.overlay old.guests ∧
    new.customer.name = data.customerName.overlay old.customer.name
  others : T'.reservations.filter (fun r => r.id ≠ data.id) =
    T.reservations.filter fun r => r.id ≠ data.id

/-- Writing a row leaves the rows of other ids. -/
theorem Tables.others_put (T : Tables) (r : Reservation) :
    (T.put r).reservations.filter (fun row => row.id ≠ r.id) =
      T.reservations.filter fun row => row.id ≠ r.id := by
  unfold Tables.put
  simp only
  split
  · generalize T.reservations = rows
    induction rows with
    | nil => rfl
    | cons row rows ih =>
      rw [List.map_cons]
      by_cases same : row.id = r.id
      · rw [if_pos same, List.filter_cons_of_neg (by simp),
          List.filter_cons_of_neg (by simpa using same)]
        exact ih
      · rw [if_neg same, List.filter_cons_of_pos (by simpa using same),
          List.filter_cons_of_pos (by simpa using same), ih]
  · rw [List.filter_append, List.filter_cons_of_neg (by simp), List.filter_nil, List.append_nil]

/-- An undisturbed update succeeds unless a `null` is refused, and then it has written the
row with the columns of the input. -/
theorem eval_update_ok (found : w.tables.find data.id = some old) {reservation : Reservation}
    {T : Tables} :
    (∃ w', Eval (interp db) (updateReservation rounds data) w (.ok reservation) w' ∧
      w'.tables = T) ↔
      data.refused = false ∧ reservation = old.overwrite data ∧
        T = w.tables.put (old.overwrite data) := by
  rw [← CacheBlind.update w (.ok reservation) T, eval_cacheless_iff, direct_update]
  simp only [found, updated_eq]
  by_cases refused : data.refused = true
  · rw [if_pos refused]
    simp [refused]
  · rw [if_neg refused]
    simp only [Option.some.injEq, Prod.mk.injEq, Except.ok.injEq, refused, true_and]
    exact ⟨fun same => ⟨same.1.symm, same.2.symm⟩, fun same => ⟨same.1.symm, same.2.symm⟩⟩

/-- The row that is written has the columns of the input and the old customer. -/
theorem storesGiven_put {T : Tables} (fine : data.refused = false) :
    StoresGiven data old T (T.put (old.overwrite data)) ↔
      data.customerName.overlay old.customer.name = old.customer.name := by
  have row : old.overwrite data = ⟨⟨data.time.overlay old.time, data.guests.overlay old.guests⟩,
      data.id, data.date.overlay old.date, old.customer⟩ := by
    rw [Reservation.overwrite, if_neg (by simp [fine])]
  have id : data.id = (old.overwrite data).id := by rw [row]
  have stored : (T.put (old.overwrite data)).find data.id = some (old.overwrite data) := by
    rw [id, Tables.find_put]
  constructor
  · intro stores
    obtain ⟨new, found, -, -, -, name⟩ := stores.row
    rw [stored] at found
    cases found
    rw [← name, row]
  · intro name
    refine ⟨⟨_, stored, ?_⟩, ?_⟩
    · rw [row]
      exact ⟨rfl, rfl, rfl, name.symm⟩
    · rw [id]
      exact T.others_put (old.overwrite data)

/-- An update stores what it was given, exactly if it is refused and stores nothing, or
if the customer's name it gives, if any, is the one the row already has. -/
theorem update_stores_given_fields_iff (db : QueryEngine) (rounds : Nat)
    (found : w.tables.find data.id = some old) :
    (∀ reservation w', Eval (interp db) (updateReservation rounds data) w (.ok reservation) w' →
      StoresGiven data old w.tables w'.tables) ↔
    data.refused = true ∨ data.customerName.overlay old.customer.name = old.customer.name := by
  constructor
  · intro stores
    by_cases refused : data.refused = true
    · exact .inl refused
    · have fine := Bool.eq_false_of_not_eq_true refused
      obtain ⟨w', run, after⟩ := (eval_update_ok found).mpr ⟨fine, rfl, rfl⟩
      have given := stores _ w' run
      rw [after] at given
      exact .inr ((storesGiven_put fine).mp given)
  · intro condition reservation w' run
    obtain ⟨fine, -, after⟩ := (eval_update_ok found).mp ⟨w', run, rfl⟩
    rw [after, storesGiven_put fine]
    rcases condition with refused | name
    · rw [fine] at refused
      cases refused
    · exact name

/-- One reservation of Ada's. -/
def adaAtSix : World where
  tables := ⟨[⟨⟨"18:00", 4⟩, 1, "2025-03-10", ⟨1, "Ada"⟩⟩], [⟨1, "Ada"⟩], 2, 2⟩
  redis := .empty

/-- The update that gives it to Bob, with two guests. -/
def toBob : UpdateReservationInput := ⟨1, .given "Bob", .undefined, .undefined, .given 2⟩

/-- The update is accepted and succeeds; the two guests are stored, and the customer is
still Ada. -/
theorem new_name_is_not_stored :
    toBob.accepted isoDateString = true ∧
    ¬ ∀ reservation w', Eval (interp .inMemory) (updateReservation 0 toBob) adaAtSix
      (.ok reservation) w' →
        ∃ new, w'.tables.find 1 = some new ∧ new.guests = 2 ∧ new.customer.name = "Bob" := by
  refine ⟨by decide +kernel, ?_⟩
  intro claim
  have found : adaAtSix.tables.find toBob.id =
    some ⟨⟨"18:00", 4⟩, 1, "2025-03-10", ⟨1, "Ada"⟩⟩ := rfl
  obtain ⟨w', run, after⟩ := (eval_update_ok found).mpr ⟨rfl, rfl, rfl⟩
  obtain ⟨new, stored, -, name⟩ := claim _ w' run
  rw [after] at stored
  cases stored
  exact absurd name (by decide)

/-- An update of the guests alone stores them and keeps the rest. -/
theorem stores_two_guests :
    adaAtSix.tables.find 1 = some ⟨⟨"18:00", 4⟩, 1, "2025-03-10", ⟨1, "Ada"⟩⟩ ∧
    ∀ reservation w', Eval (interp .inMemory) (updateReservation 0 onlyTwoGuests) adaAtSix
      (.ok reservation) w' →
        StoresGiven onlyTwoGuests ⟨⟨"18:00", 4⟩, 1, "2025-03-10", ⟨1, "Ada"⟩⟩ adaAtSix.tables
          w'.tables := by
  refine ⟨rfl, ?_⟩
  exact (update_stores_given_fields_iff .inMemory 0 (w := adaAtSix) rfl).mpr (.inr rfl)

end RestaurantAssistant
