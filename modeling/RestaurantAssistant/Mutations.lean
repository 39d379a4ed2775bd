import RestaurantAssistant.World

/-!
# What the mutations do

The mutations never read the cache: `CacheBlind` says that a program does the
same to the tables, with the same outcome, with and without a cache, and the
three mutations are built from blind parts.  What they do is then read off
`direct`: `direct_create`, `direct_cancel` and `direct_update`.
-/

namespace RestaurantAssistant

open Awaiting Js

variable {db : QueryEngine} {cfg : Config} {rounds : Nat} {α β : Type}

/-- With a cache and without one, the program has the same outcomes and leaves
the same tables. -/
def CacheBlind (db : QueryEngine) (p : Async api α) : Prop :=
  ∀ w out T, Eval (cacheless db) p w.tables out T ↔
    ∃ w', Eval (interp db) p w out w' ∧ w'.tables = T

namespace CacheBlind

theorem pure (a : α) : CacheBlind db (.pure a) := by
  intro w out T
  simp only [Eval.pure_iff]
  constructor
  · rintro ⟨rfl, rfl⟩
    exact ⟨w, ⟨rfl, rfl⟩, rfl⟩
  · rintro ⟨w', ⟨rfl, rfl⟩, rfl⟩
    exact ⟨rfl, rfl⟩

theorem throw (e : Exn) : CacheBlind db (.throw e : Async api α) := by
  intro w out T
  simp only [Eval.throw_iff]
  constructor
  · rintro ⟨rfl, rfl⟩
    exact ⟨w, ⟨rfl, rfl⟩, rfl⟩
  · rintro ⟨w', ⟨rfl, rfl⟩, rfl⟩
    exact ⟨rfl, rfl⟩

theorem diverge : CacheBlind db (.diverge : Async api α) := by
  intro w out T
  simp [Eval.not_diverge]

theorem call (call : DbCall) : CacheBlind db (Async.call (σ := api) (.db call)) := by
  intro w out T
  simp only [Async.call, eval_cacheless_db, eval_db]
  cases (w.tables.answer db call).1 with
  | ok reply => exact CacheBlind.pure reply ⟨_, w.redis⟩ out T
  | error e => exact CacheBlind.throw e ⟨_, w.redis⟩ out T

theorem bind {p : Async api α} {f : α → Async api β} (first : CacheBlind db p)
    (rest : ∀ a, CacheBlind db (f a)) : CacheBlind db (p >>= f) := by
  intro w out T
  simp only [Eval.bind_iff]
  constructor
  · rintro (⟨a, T₁, ran, later⟩ | ⟨e, ran, rfl⟩)
    · obtain ⟨w₁, ran₁, rfl⟩ := (first w _ _).mp ran
      obtain ⟨w', later, same⟩ := (rest a w₁ _ _).mp later
      exact ⟨w', .inl ⟨a, w₁, ran₁, later⟩, same⟩
    · obtain ⟨w', ran, same⟩ := (first w _ _).mp ran
      exact ⟨w', .inr ⟨e, ran, rfl⟩, same⟩
  · rintro ⟨w', ⟨a, w₁, ran, later⟩ | ⟨e, ran, rfl⟩, same⟩
    · exact .inl ⟨a, w₁.tables, (first w _ _).mpr ⟨w₁, ran, rfl⟩,
        (rest a w₁ _ _).mpr ⟨w', later, same⟩⟩
    · exact .inr ⟨e, (first w _ _).mpr ⟨w', ran, same⟩, rfl⟩

theorem tryCatch {p : Async api α} {h : Exn → Async api α} (body : CacheBlind db p)
    (handler : ∀ e, CacheBlind db (h e)) : CacheBlind db (p.tryCatch h) := by
  intro w out T
  simp only [Eval.tryCatch_iff]
  constructor
  · rintro (⟨a, ran, rfl⟩ | ⟨e, T₁, ran, later⟩)
    · obtain ⟨w', ran, same⟩ := (body w _ _).mp ran
      exact ⟨w', .inl ⟨a, ran, rfl⟩, same⟩
    · obtain ⟨w₁, ran₁, rfl⟩ := (body w _ _).mp ran
      obtain ⟨w', later, same⟩ := (handler e w₁ _ _).mp later
      exact ⟨w', .inr ⟨e, w₁, ran₁, later⟩, same⟩
  · rintro ⟨w', ⟨a, ran, rfl⟩ | ⟨e, w₁, ran, later⟩, same⟩
    · exact .inl ⟨a, (body w _ _).mpr ⟨w', ran, same⟩, rfl⟩
    · exact .inr ⟨e, w₁.tables, (body w _ _).mpr ⟨w₁, ran, rfl⟩,
        (handler e w₁ _ _).mpr ⟨w', later, same⟩⟩

end CacheBlind

/-! ## Clearing the cache -/

open redisService

variable {w w' : World} {out : Except Exn Unit} {pattern : String} {cursor : Cursor}

/-- What a turn does with its batch. -/
theorem scanTurn_eq {again : Cursor → Async api Unit} :
    scanTurn pattern cursor again = .await (.redis (.scan cursor pattern 100)) fun
      | .error e => .throw e
      | .ok (next, keys) =>
        if keys.length > 0 then .await (.redis (.del keys)) fun
          | .error e => .throw e
          | .ok _ => if next = none then .pure () else again next
        else if next = none then .pure () else again next := by
  unfold scanTurn
  simp only [scan, Async.call, Async.await_bind]
  congr 1
  funext r
  cases r with
  | error e => rfl
  | ok batch =>
    simp only [ofExcept_ok, Async.pure_bind]
    split
    · simp only [del, Async.call, Async.await_bind]
      congr 1
      funext r
      cases r <;> rfl
    · rfl

/-- One turn of the loop deletes a batch, and goes on with what the iteration owes. -/
theorem eval_scanTurn {again : Cursor → Async api Unit}
    (run : Eval (interp db) (scanTurn pattern cursor again) w out w') :
    ∃ next keys, (∀ key ∈ keys, globMatch pattern.toList key.toList = true) ∧
      (∀ k ∈ w.redis.owed pattern cursor, w.redis.live k = true →
        k.1 ∈ keys ∨ ∃ owed, next = some owed ∧ k ∈ owed) ∧
      Eval (interp db) (if next = none then .pure () else again next)
        { w with redis := w.redis.del keys } out w' := by
  rw [scanTurn_eq] at run
  obtain ⟨c, r, v, answered, rest⟩ := Eval.await_iff.mp run
  obtain ⟨next, keys, rfl, rfl, matching, kept⟩ := interp_scan answered
  refine ⟨next, keys, matching, kept, ?_⟩
  simp only at rest
  split at rest
  · obtain ⟨c', r', v', deleted, rest⟩ := Eval.await_iff.mp rest
    obtain ⟨-, rfl, rfl⟩ := interp_del.mp deleted
    exact rest
  · rename_i none
    obtain rfl : keys = [] := List.eq_nil_of_length_eq_zero (by omega)
    rw [Redis.del_nil]
    exact rest

/-- **A scan deletes what it owes.**  The loop deletes matching keys only, and at its
end nothing is left of what it owed when it began, although the keys go while the
iteration is running. -/
theorem eval_scanFrom (rounds : Nat)
    (run : Eval (interp db) (scanFrom pattern rounds cursor) w out w') :
    out = .ok () ∧ ∃ keys, (∀ key ∈ keys, globMatch pattern.toList key.toList = true) ∧
      w' = { w with redis := w.redis.del keys } ∧
      ∀ k ∈ w.redis.owed pattern cursor, w'.redis.live k = false := by
  have last : ∀ {cursor : Cursor} {w : World} {keys : List String},
      (∀ k ∈ w.redis.owed pattern cursor, w.redis.live k = true →
        k.1 ∈ keys ∨ ∃ owed, (none : Cursor) = some owed ∧ k ∈ owed) →
      ∀ k ∈ w.redis.owed pattern cursor, (w.redis.del keys).live k = false := by
    intro cursor w keys kept
    rw [← List.append_nil keys]
    exact Redis.gone_of_kept kept nofun
  induction rounds generalizing cursor w with
  | zero =>
    obtain ⟨next, keys, matching, kept, rest⟩ := eval_scanTurn run
    split at rest
    · rename_i ended
      rw [ended] at kept
      obtain ⟨rfl, rfl⟩ := Eval.pure_iff.mp rest
      exact ⟨rfl, keys, matching, rfl, last kept⟩
    · exact absurd rest Eval.not_diverge
  | succ rounds ih =>
    obtain ⟨next, keys, matching, kept, rest⟩ := eval_scanTurn run
    split at rest
    · rename_i ended
      rw [ended] at kept
      obtain ⟨rfl, rfl⟩ := Eval.pure_iff.mp rest
      exact ⟨rfl, keys, matching, rfl, last kept⟩
    · obtain ⟨rfl, keys', matching', rfl, gone⟩ := ih rest
      rw [Redis.del_del] at gone ⊢
      refine ⟨rfl, keys ++ keys', ?_, rfl, Redis.gone_of_kept kept ?_⟩
      · intro key member
        rcases List.mem_append.mp member with first | later
        · exact matching key first
        · exact matching' key later
      · rintro later rfl
        exact gone

theorem tables_of_scanFrom (rounds : Nat)
    (run : Eval (interp db) (scanFrom pattern rounds cursor) w out w') :
    out = .ok () ∧ w'.tables = w.tables := by
  obtain ⟨resolved, keys, -, rfl, -⟩ := eval_scanFrom rounds run
  exact ⟨resolved, rfl⟩

/-- A server that returns all matching keys at once ends the loop in its first
turn. -/
theorem eval_scanTurn_once (db : QueryEngine) (pattern : String)
    (again : Cursor → Async api Unit) (w : World) :
    ∃ w', Eval (interp db) (scanTurn pattern none again) w (.ok ()) w' := by
  let keys := (w.redis.entries.filter fun e => globMatch pattern.toList e.key.toList).map Entry.key
  have answered : (interp db).answer (.batch true keys) (.redis (.scan none pattern 100)) w =
      some (.ok (none, keys), w) := by
    have allowed : (keys.all (fun key => globMatch pattern.toList key.toList) &&
        (!true || ((w.redis.owed pattern none).filter fun k => k.1 ∉ keys).all
          fun k => !w.redis.live k)) = true := by
      simp only [keys, Redis.owed, Bool.and_eq_true, List.all_eq_true]
      refine ⟨?_, ?_⟩
      · intro key member
        obtain ⟨e, matching, rfl⟩ := List.mem_map.mp member
        exact (List.mem_filter.mp matching).2
      · simp only [Bool.not_true, Bool.false_or, List.all_eq_true]
        intro k member
        obtain ⟨owed, fresh⟩ := List.mem_filter.mp member
        obtain ⟨e, matching, rfl⟩ := List.mem_map.mp owed
        have returned := List.mem_map_of_mem (f := Entry.key) matching
        simp only [returned, not_true_eq_false, decide_false, Bool.false_eq_true] at fresh
    change (w.redis.answer (.batch true keys) (.scan none pattern 100)).map _ = _
    simp only [Redis.answer, allowed, if_true, Option.map_some]
  rw [scanTurn_eq]
  by_cases found : keys.length > 0
  · refine ⟨{ w with redis := w.redis.del keys }, .await _ answered ?_⟩
    simp only [if_pos found]
    exact .await Choice.reply rfl .pure
  · refine ⟨w, .await _ answered ?_⟩
    simp only [if_neg found]
    exact .pure

theorem direct_scanFrom {T : Tables} :
    direct db (scanFrom pattern rounds cursor) T = some (.ok (), T) := by
  cases rounds <;> rfl

theorem CacheBlind.scanAndDelete : CacheBlind db (scanAndDelete rounds pattern) := by
  intro w out T
  rw [eval_cacheless_iff, redisService.scanAndDelete, direct_scanFrom]
  constructor
  · intro same
    cases same
    cases rounds with
    | zero =>
      obtain ⟨w', run⟩ := eval_scanTurn_once db pattern (fun _ => .diverge) w
      exact ⟨w', run, (tables_of_scanFrom 0 run).2⟩
    | succ rounds =>
      obtain ⟨w', run⟩ := eval_scanTurn_once db pattern (scanFrom pattern rounds) w
      exact ⟨w', run, (tables_of_scanFrom (rounds + 1) run).2⟩
  · intro run
    obtain ⟨w', run, rfl⟩ := run
    obtain ⟨rfl, same⟩ := tables_of_scanFrom rounds run
    rw [same]

theorem CacheBlind.clearReservationCache : CacheBlind db (clearReservationCache rounds) :=
  .bind .scanAndDelete fun _ => .scanAndDelete

@[simp] theorem direct_clear {T : Tables} :
    direct db (clearReservationCache rounds) T = some (.ok (), T) := by
  unfold redisService.clearReservationCache redisService.scanAndDelete
  rw [direct_bind _ direct_scanFrom, direct_scanFrom]

/-! ## The three mutations -/

theorem CacheBlind.create {data : CreateReservationInput} :
    CacheBlind db (createReservation cfg rounds data) := by
  unfold createReservation findOrCreateCustomer createFor
  refine .tryCatch (.bind (.bind (.call _) fun found => ?_) fun customer =>
    .bind (.call _) fun rows => ?_) fun e => ?_
  · cases found with
    | some customer => exact .pure customer
    | none => exact .call _
  · dsimp only
    split
    · exact .bind (.call _) fun saved => .bind .clearReservationCache fun _ => .pure _
    · split
      · exact .diverge
      · exact .throw _
      · exact .pure _
  · cases e <;> exact .throw _

theorem CacheBlind.cancel {id : Int} : CacheBlind db (cancelReservation rounds id) := by
  unfold cancelReservation
  refine .tryCatch (.bind (.call _) fun affected => ?_) fun e => .throw _
  split
  · exact .throw _
  · exact .bind .clearReservationCache fun _ => .pure _

theorem CacheBlind.update {data : UpdateReservationInput} :
    CacheBlind db (updateReservation rounds data) := by
  unfold updateReservation
  refine .tryCatch (.bind (.call _) fun found => ?_) fun e => ?_
  · cases found with
    | none => exact .throw _
    | some reservation => exact .bind .clearReservationCache fun _ => .call _
  · cases e <;> exact .throw _

theorem CacheBlind.mutation (m : Mutation) : CacheBlind db (m.handle cfg rounds) := by
  cases m with
  | createReservation data => exact .bind .create fun _ => .pure _
  | cancelReservation id => exact .bind .cancel fun _ => .pure _
  | updateReservation data => exact .bind .update fun _ => .pure _

/-- The customer of a new reservation, and the tables once it exists. -/
def Tables.customerFor (T : Tables) (name : String) : Customer × Tables :=
  match T.customers.find? fun c => c.name = name with
  | some customer => (customer, T)
  | none => (⟨T.nextCustomer, name⟩, T.addCustomer name)

@[simp] theorem Tables.customerFor_reservations (T : Tables) (name : String) :
    (T.customerFor name).2.reservations = T.reservations := by
  unfold Tables.customerFor
  split <;> rfl

@[simp] theorem Tables.customerFor_nextReservation (T : Tables) (name : String) :
    (T.customerFor name).2.nextReservation = T.nextReservation := by
  unfold Tables.customerFor
  split <;> rfl

/-- The bookings on a date. -/
def Tables.bookingsOn (T : Tables) (date : String) : List Booking :=
  (T.on date).map Reservation.toBooking

/-- The check of a new reservation: is there room for the guests beside the
bookings of the date that start within the reservation's duration? -/
def hasRoom (cfg : Config) (T : Tables) (date time : String) (guests : Int) : Bool :=
  isSlotAvailable (T.bookingsOn date) (convertToMinutes time)
    (convertToMinutes time + cfg.reservationDuration) cfg.totalSeats (guests : JsNumber)

/-- The check looks at the reservations only. -/
theorem hasRoom_congr {T T' : Tables} (same : T'.reservations = T.reservations) :
    hasRoom cfg T' = hasRoom cfg T := by
  funext date time guests
  unfold hasRoom Tables.bookingsOn Tables.on
  rw [same]

/-- The availability check, then the reservation or other slots. -/
theorem direct_createFor {T : Tables} {data : CreateReservationInput} {customer : Customer} :
    direct db ((createFor cfg rounds data customer).tryCatch createFailed) T =
      if hasRoom cfg T data.date data.time data.guests then
        some (.ok
          { message := "Reservation successfully created!"
            availableSlots := []
            reservation := some
              ⟨⟨data.time, data.guests⟩, T.nextReservation, data.date, customer⟩ },
          T.insert data.date data.time data.guests customer)
      else
        match findNearestAvailableSlots (T.bookingsOn data.date)
            (convertToMinutes data.time / cfg.slotDuration) cfg.slotDuration cfg.totalSeats
            (data.guests : JsNumber) cfg.reservationDuration with
        | none => none
        | some [] => some (.error (.badRequest ("No availability for " ++
            String.ofList (JsNumber.integerText data.guests) ++ " guests on " ++ data.date)), T)
        | some slots => some (.ok
          { message := "Requested time is unavailable. Suggested available times:"
            availableSlots := slots.map fun slot => convertToTime (slot * cfg.slotDuration)
            reservation := none }, T) := by
  unfold createFor hasRoom Tables.bookingsOn
  simp only [reservationRepo.find, Async.call, Async.await_bind, Async.tryCatch_await, direct_db,
    Tables.answer, ofExcept_ok, Async.pure_bind]
  split
  · simp only [reservationRepo.save, Async.call, Async.await_bind, Async.tryCatch_await, direct_db,
      Tables.answer, ofExcept_ok, Async.pure_bind]
    exact direct_bind_tryCatch _ createFailed direct_clear
  · generalize findNearestAvailableSlots _ _ _ _ _ _ = nearest
    cases nearest with
    | none => rfl
    | some slots => cases slots <;> rfl

/-- Creating a reservation finds or creates the customer first. -/
theorem direct_create {T : Tables} {data : CreateReservationInput} :
    direct db (createReservation cfg rounds data) T =
      direct db ((createFor cfg rounds data (T.customerFor data.customerName).1).tryCatch
        createFailed) (T.customerFor data.customerName).2 := by
  unfold createReservation findOrCreateCustomer Tables.customerFor
  simp only [customerRepo.findOne, customerRepo.save, Async.call, Async.await_bind,
    Async.tryCatch_await, direct_db, Tables.answer, ofExcept_ok, Async.pure_bind]
  cases T.customers.find? fun c => c.name = data.customerName with
  | some customer => rfl
  | none => rfl

theorem Tables.id_of_find {T : Tables} {id : Int} {r : Reservation} (found : T.find id = some r) :
    r.id = id := by
  have same := List.find?_some found
  exact of_decide_eq_true same

theorem Tables.remove_of_missing {T : Tables} {id : Int} (missing : T.find id = none) :
    T.remove id = T := by
  have others : ∀ r ∈ T.reservations, decide (r.id ≠ id) = true := by
    intro r member
    have absent := List.find?_eq_none.mp missing r member
    simpa using absent
  unfold Tables.remove
  rw [List.filter_eq_self.mpr others]

theorem Tables.mem_put {T : Tables} {r s : Reservation} (member : s ∈ (T.put r).reservations) :
    s ∈ T.reservations ∨ s = r := by
  unfold Tables.put at member
  simp only at member
  split at member
  · obtain ⟨row, inTable, rfl⟩ := List.mem_map.mp member
    split
    · exact .inr rfl
    · exact .inl inTable
  · simpa using member

/-- A deletion affects no row if there is none with the id. -/
theorem Tables.count_eq_zero {T : Tables} {id : Int} :
    (T.reservations.countP fun r => r.id = id) = 0 ↔ T.find id = none := by
  unfold Tables.find
  rw [List.countP_eq_zero, List.find?_eq_none]

/-- Cancelling a reservation removes its row. -/
theorem direct_cancel {T : Tables} {id : Int} :
    direct db (cancelReservation rounds id) T =
      if T.find id = none then
        some (.error (.internalServerError "Failed to cancel reservation"), T)
      else some (.ok true, T.remove id) := by
  unfold cancelReservation
  simp only [reservationRepo.delete, Async.call, Async.await_bind, Async.tryCatch_await, direct_db,
    Tables.answer, ofExcept_ok, Async.pure_bind]
  by_cases missing : T.find id = none
  · rw [if_pos missing, if_pos (Tables.count_eq_zero.mpr missing), Tables.remove_of_missing missing]
    rfl
  · have count := mt Tables.count_eq_zero.mp missing
    rw [if_neg missing, if_neg count]
    exact direct_bind_tryCatch _ _ direct_clear

/-- The row an update saves over `old`, unless a `null` is refused. -/
def Reservation.updated (old : Reservation) (data : UpdateReservationInput) :
    Option Reservation := do
  let date ← data.date.assign old.date
  let time ← data.time.assign old.time
  let guests ← data.guests.assign old.guests
  some ⟨⟨time, guests⟩, data.id, date, old.customer⟩

theorem answer_save_assign {T : Tables} {old : Reservation} {data : UpdateReservationInput} :
    T.answer db (.saveReservation (assign old data)) =
      match old.updated data with
      | some new => (.ok new, T.put new)
      | none => (.error .queryFailed, T) := by
  unfold assign Reservation.updated
  cases data.date.assign old.date with
  | none => rfl
  | some date =>
    cases data.time.assign old.time with
    | none => rfl
    | some time => cases data.guests.assign old.guests <;> rfl

/-- Updating a reservation saves the changed row. -/
theorem direct_update {T : Tables} {data : UpdateReservationInput} :
    direct db (updateReservation rounds data) T =
      match T.find data.id with
      | none => some (.error (.notFound ("Reservation with ID " ++
          String.ofList (JsNumber.integerText data.id) ++ " not found")), T)
      | some old =>
        match old.updated data with
        | some new => some (.ok new, T.put new)
        | none => some (.error (.internalServerError "Failed to update reservation"), T) := by
  unfold updateReservation
  simp only [reservationRepo.findOne, Async.call, Async.await_bind, Async.tryCatch_await, direct_db,
    Tables.answer, ofExcept_ok, Async.pure_bind]
  cases T.find data.id with
  | none => rfl
  | some old =>
    simp only [direct_bind_tryCatch _ updateFailed direct_clear, reservationRepo.save, Async.call,
      Async.tryCatch_await, direct_db, answer_save_assign]
    cases old.updated data <;> rfl

/-! ## Their effect on the reservations -/

section Effects

variable {w w' : World} {out : Except Exn Response}

theorem tables_eq {o o' : Except Exn α} {T T' : Tables} (done : some (o, T) = some (o', T')) :
    T = T' := by
  cases done
  rfl

/-- A reservation is appended if there is room for it. -/
theorem eval_create {data : CreateReservationInput}
    (run : Eval (interp db) ((Mutation.createReservation data).handle cfg rounds) w out w') :
    w'.tables =
      if hasRoom cfg w.tables data.date data.time data.guests then
        (w.tables.customerFor data.customerName).2.insert data.date data.time data.guests
          (w.tables.customerFor data.customerName).1
      else (w.tables.customerFor data.customerName).2 := by
  obtain ⟨out', run, -⟩ := Eval.map_iff.mp run
  have done := eval_cacheless_iff.mp ((CacheBlind.create w out' w'.tables).mpr ⟨w', run, rfl⟩)
  have same := w.tables.customerFor_reservations data.customerName
  rw [direct_create, direct_createFor, hasRoom_congr same] at done
  split at done
  · rename_i room
    rw [if_pos room, tables_eq done]
  · rename_i full
    rw [if_neg full]
    generalize findNearestAvailableSlots _ _ _ _ _ _ = nearest at done
    rcases nearest with _ | _ | _
    · cases done
    · exact (tables_eq done).symm
    · exact (tables_eq done).symm

/-- The reservation with the id is gone. -/
theorem eval_cancel {id : Int}
    (run : Eval (interp db) ((Mutation.cancelReservation id).handle cfg rounds) w out w') :
    w'.tables = w.tables.remove id := by
  obtain ⟨out', run, -⟩ := Eval.map_iff.mp run
  have done := eval_cacheless_iff.mp ((CacheBlind.cancel w out' w'.tables).mpr ⟨w', run, rfl⟩)
  rw [direct_cancel] at done
  split at done
  · rename_i missing
    rw [Tables.remove_of_missing missing]
    exact (tables_eq done).symm
  · exact (tables_eq done).symm

/-- The row with the id is replaced, or nothing happens. -/
theorem eval_update {data : UpdateReservationInput}
    (run : Eval (interp db) ((Mutation.updateReservation data).handle cfg rounds) w out w') :
    w'.tables = w.tables ∨ ∃ old new, w.tables.find data.id = some old ∧
      old.updated data = some new ∧ w'.tables = w.tables.put new := by
  obtain ⟨out', run, -⟩ := Eval.map_iff.mp run
  have done := eval_cacheless_iff.mp ((CacheBlind.update w out' w'.tables).mpr ⟨w', run, rfl⟩)
  rw [direct_update] at done
  split at done
  · have after := tables_eq done
    exact .inl after.symm
  · rename_i old found
    split at done
    · rename_i new saved
      have after := tables_eq done
      exact .inr ⟨old, new, found, saved, after.symm⟩
    · have after := tables_eq done
      exact .inl after.symm

end Effects

end RestaurantAssistant
