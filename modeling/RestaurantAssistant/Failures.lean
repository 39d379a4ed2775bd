import RestaurantAssistant.Coherence

/-!
# What failed requests leave behind

A repository or Redis call may throw without effect.  `updateReservation` writes
last, so that an exception means that the reservations are as before;
`createReservation` and `cancelReservation` write before they clear the cache, and
a failed clearing is reported as a failed request (`error_leaves_reservations_iff`).

A reservation that is turned away leaves the reservations alone, but the customer
it was for may have been added (`rejected_leaves_customer`).
-/

namespace RestaurantAssistant

open Awaiting Js

variable {db : QueryEngine} {cfg : Config} {rounds : Nat} {α : Type} {database cache : Bool}
  {w w' : World}

/-! ## Calls that fail -/

/-- Which calls may fail: those to the database, and those to Redis. -/
def mayFail (database cache : Bool) : Call → Bool
  | .db _ => database
  | .redis _ => cache

/-- The calls, where those to the database or to Redis may throw without effect. -/
def unreliable (db : QueryEngine) (database cache : Bool) : Interp api World (Option Choice) :=
  (interp db).failing (mayFail database cache) .queryFailed

/-- A repository call is answered, or it fails. -/
theorem unreliable_call {call : DbCall} {out : Except Exn call.Reply} :
    Eval (unreliable db database cache) (Async.call (σ := api) (.db call)) w out w' ↔
      (out = (w.tables.answer db call).1 ∧ w' = { w with tables := (w.tables.answer db call).2 }) ∨
      database = true ∧ out = .error .queryFailed ∧ w' = w := by
  have ended : ∀ {r : Except Exn call.Reply} {v : World},
      Eval (unreliable db database cache) (Async.ofExcept (σ := api) r) v out w' ↔
        out = r ∧ w' = v := by
    intro r v
    cases r with
    | ok reply => exact Eval.pure_iff
    | error e => exact Eval.throw_iff
  unfold Async.call unreliable
  rw [Eval.failing_iff]
  constructor
  · intro run
    rcases run with ⟨c, r, v, answered, rest⟩ | ⟨fails, thrown⟩
    · obtain ⟨-, rfl, rfl⟩ := interp_db.mp answered
      exact .inl (ended.mp rest)
    · exact .inr ⟨fails, ended.mp thrown⟩
  · intro run
    rcases run with answer | ⟨fails, thrown⟩
    · exact .inl ⟨.reply, _, _, interp_db.mpr ⟨rfl, rfl, rfl⟩, ended.mpr answer⟩
    · exact .inr ⟨fails, ended.mpr thrown⟩

open redisService

/-- One turn of the loop leaves the tables alone and goes on, or a call to Redis
has failed. -/
theorem unreliable_scanTurn {pattern : String} {cursor : Cursor} {out : Except Exn Unit}
    {again : Cursor → Async api Unit}
    (run : Eval (unreliable db database cache) (scanTurn pattern cursor again) w out w') :
    (∃ next v, v.tables = w.tables ∧ Eval (unreliable db database cache)
      (if next = none then .pure () else again next) v out w') ∨
    cache = true ∧ w'.tables = w.tables := by
  rw [scanTurn_eq] at run
  rcases Eval.failing_iff.mp run with ⟨c, r, v, answered, scanned⟩ | ⟨fails, thrown⟩
  · obtain ⟨next, keys, rfl, rfl, -⟩ := interp_scan answered
    simp only at scanned
    split at scanned
    · rcases Eval.failing_iff.mp scanned with ⟨c', r', v', answered', deleted⟩ | ⟨fails, thrown⟩
      · obtain ⟨-, rfl, rfl⟩ := interp_del.mp answered'
        exact .inl ⟨next, { v with redis := v.redis.del keys }, rfl, deleted⟩
      · obtain ⟨-, rfl⟩ := Eval.throw_iff.mp thrown
        exact .inr ⟨fails, rfl⟩
    · exact .inl ⟨next, v, rfl, scanned⟩
  · obtain ⟨-, rfl⟩ := Eval.throw_iff.mp thrown
    exact .inr ⟨fails, rfl⟩

/-- The loop leaves the tables alone, and it only throws if a call to Redis may
fail. -/
theorem unreliable_scanFrom {pattern : String} {cursor : Cursor} {out : Except Exn Unit}
    (run : Eval (unreliable db database cache) (scanFrom pattern rounds cursor) w out w') :
    w'.tables = w.tables ∧ (out = .ok () ∨ cache = true) := by
  induction rounds generalizing cursor w with
  | zero =>
    rcases unreliable_scanTurn run with ⟨next, v, same, rest⟩ | ⟨fails, same⟩
    · split at rest
      · obtain ⟨rfl, rfl⟩ := Eval.pure_iff.mp rest
        exact ⟨same, .inl rfl⟩
      · exact absurd rest Eval.not_diverge
    · exact ⟨same, .inr fails⟩
  | succ rounds ih =>
    rcases unreliable_scanTurn run with ⟨next, v, same, rest⟩ | ⟨fails, same⟩
    · split at rest
      · obtain ⟨rfl, rfl⟩ := Eval.pure_iff.mp rest
        exact ⟨same, .inl rfl⟩
      · obtain ⟨same', ends⟩ := ih rest
        exact ⟨same'.trans same, ends⟩
    · exact ⟨same, .inr fails⟩

theorem unreliable_clear {out : Except Exn Unit}
    (run : Eval (unreliable db database cache) (clearReservationCache rounds) w out w') :
    w'.tables = w.tables ∧ (out = .ok () ∨ cache = true) := by
  rcases Eval.bind_iff.mp run with ⟨_, v, first, second⟩ | ⟨e, first, rfl⟩
  · obtain ⟨same, -⟩ := unreliable_scanFrom first
    obtain ⟨same', ends⟩ := unreliable_scanFrom second
    exact ⟨same'.trans same, ends⟩
  · obtain ⟨same, ends⟩ := unreliable_scanFrom first
    refine ⟨same, .inr (ends.resolve_left ?_)⟩
    intro resolved
    cases resolved

/-! ## The mutations -/

/-- An exception of a protected block whose handler throws on. -/
theorem eval_tryCatch_error {p : Async api α} {h : Exn → Async api α} {e : Exn}
    (rethrows : ∀ e', ∃ e'', h e' = .throw e'')
    (run : Eval (unreliable db database cache) (p.tryCatch h) w (.error e) w') :
    ∃ e', Eval (unreliable db database cache) p w (.error e') w' := by
  rcases Eval.tryCatch_iff.mp run with ⟨a, -, same⟩ | ⟨e', v, body, handler⟩
  · cases same
  · obtain ⟨e'', throws⟩ := rethrows e'
    rw [throws] at handler
    obtain ⟨-, rfl⟩ := Eval.throw_iff.mp handler
    exact ⟨e', body⟩

theorem createFailed_throws (e : Exn) : ∃ e', createFailed (α := α) e = .throw e' := by
  cases e <;> exact ⟨_, rfl⟩

theorem updateFailed_throws (e : Exn) : ∃ e', updateFailed (α := α) e = .throw e' := by
  cases e <;> exact ⟨_, rfl⟩

/-- Finding or creating the customer does not touch the reservations. -/
theorem unreliable_findOrCreateCustomer {name : String} {out : Except Exn Customer}
    (run : Eval (unreliable db database cache) (findOrCreateCustomer name) w out w') :
    w'.tables.reservations = w.tables.reservations := by
  rcases Eval.bind_iff.mp run with ⟨found, v, first, rest⟩ | ⟨e, first, -⟩
  · have same : v = w := by
      rcases unreliable_call.mp first with ⟨-, rfl⟩ | ⟨-, -, rfl⟩
      · rfl
      · rfl
    rw [same] at rest
    cases found with
    | some customer =>
      obtain ⟨-, rfl⟩ := Eval.pure_iff.mp rest
      rfl
    | none =>
      rcases unreliable_call.mp rest with ⟨-, rfl⟩ | ⟨-, -, rfl⟩
      · rfl
      · rfl
  · rcases unreliable_call.mp first with ⟨-, rfl⟩ | ⟨-, -, rfl⟩
    · rfl
    · rfl

/-- If storing the reservation throws, it was not stored, or there was room and a
call to Redis may fail. -/
theorem unreliable_createFor {data : CreateReservationInput} {customer : Customer} {e : Exn}
    (run : Eval (unreliable db database cache) (createFor cfg rounds data customer) w (.error e)
      w') :
    w'.tables.reservations = w.tables.reservations ∨
      cache = true ∧ hasRoom cfg w.tables data.date data.time data.guests = true := by
  rcases Eval.bind_iff.mp run with ⟨rows, v, fetch, rest⟩ | ⟨e', fetch, -⟩
  · have fetched : rows = w.tables.on data.date ∧ v = w := by
      rcases unreliable_call.mp fetch with ⟨same, rfl⟩ | ⟨-, thrown, -⟩
      · cases same
        exact ⟨rfl, rfl⟩
      · cases thrown
    rw [fetched.1, fetched.2] at rest
    simp only at rest
    split at rest
    · rename_i room
      rcases Eval.bind_iff.mp rest with ⟨saved, u, save, cleared⟩ | ⟨e', save, -⟩
      · rcases Eval.bind_iff.mp cleared with ⟨_, x, -, done⟩ | ⟨e', clear, -⟩
        · cases done
        · refine .inr ⟨(unreliable_clear clear).2.resolve_left ?_, room⟩
          intro resolved
          cases resolved
      · rcases unreliable_call.mp save with ⟨same, -⟩ | ⟨-, -, rfl⟩
        · cases same
        · exact .inl rfl
    · refine .inl ?_
      generalize findNearestAvailableSlots _ _ _ _ _ _ = nearest at rest
      rcases nearest with _ | _ | _
      · exact absurd rest Eval.not_diverge
      · obtain ⟨-, rfl⟩ := Eval.throw_iff.mp rest
        rfl
      · cases rest
  · rcases unreliable_call.mp fetch with ⟨-, rfl⟩ | ⟨-, -, rfl⟩
    · exact .inl rfl
    · exact .inl rfl

/-- If cancelling throws, nothing was deleted, or there was a row to delete and a
call to Redis may fail. -/
theorem unreliable_cancel {id : Int} {e : Exn}
    (run : Eval (unreliable db database cache) (cancelReservation rounds id) w (.error e) w') :
    w'.tables.reservations = w.tables.reservations ∨
      cache = true ∧ (w.tables.find id).isSome = true := by
  obtain ⟨e₁, run⟩ := eval_tryCatch_error (fun _ => ⟨_, rfl⟩) run
  rcases Eval.bind_iff.mp run with ⟨affected, v, delete, rest⟩ | ⟨e₂, delete, -⟩
  · rcases unreliable_call.mp delete with ⟨same, rfl⟩ | ⟨-, thrown, -⟩
    · cases same
      simp only at rest
      split at rest
      · rename_i zero
        obtain ⟨-, rfl⟩ := Eval.throw_iff.mp rest
        have gone := Tables.remove_of_missing (Tables.count_eq_zero.mp zero)
        exact .inl (congrArg Tables.reservations gone)
      · rename_i count
        have found := Option.isSome_iff_ne_none.mpr (mt Tables.count_eq_zero.mpr count)
        rcases Eval.bind_iff.mp rest with ⟨_, u, clear, done⟩ | ⟨e₂, clear, -⟩
        · cases done
        · refine .inr ⟨(unreliable_clear clear).2.resolve_left ?_, found⟩
          intro resolved
          cases resolved
    · cases thrown
  · rcases unreliable_call.mp delete with ⟨same, -⟩ | ⟨-, -, rfl⟩
    · cases same
    · exact .inl rfl

/-- If updating throws, nothing was written: the clearing comes before the write. -/
theorem unreliable_update {data : UpdateReservationInput} {e : Exn}
    (run : Eval (unreliable db database cache) (updateReservation rounds data) w (.error e) w') :
    w'.tables.reservations = w.tables.reservations := by
  obtain ⟨e₁, run⟩ := eval_tryCatch_error updateFailed_throws run
  rcases Eval.bind_iff.mp run with ⟨found, v, fetch, rest⟩ | ⟨e₂, fetch, -⟩
  · have same : v = w := by
      rcases unreliable_call.mp fetch with ⟨-, rfl⟩ | ⟨-, -, rfl⟩
      · rfl
      · rfl
    rw [same] at rest
    cases found with
    | none =>
      obtain ⟨-, rfl⟩ := Eval.throw_iff.mp rest
      rfl
    | some old =>
      rcases Eval.bind_iff.mp rest with ⟨_, u, clear, save⟩ | ⟨e₂, clear, -⟩
      · have cleared := (unreliable_clear clear).1
        rcases unreliable_call.mp save with ⟨thrown, rfl⟩ | ⟨-, -, rfl⟩
        · -- the database has refused a `null`
          rw [answer_save_assign] at thrown ⊢
          split at thrown
          · cases thrown
          · exact congrArg Tables.reservations cleared
        · rw [cleared]
      · rw [(unreliable_clear clear).1]
  · rcases unreliable_call.mp fetch with ⟨-, rfl⟩ | ⟨-, -, rfl⟩
    · rfl
    · rfl

/-! ## Exceptions and the reservations -/

/-- Does the mutation, all calls succeeding, write the reservations and only then
clear the cache? -/
def Mutation.writesFirst (cfg : Config) (T : Tables) : Mutation → Bool
  | .createReservation data => hasRoom cfg T data.date data.time data.guests
  | .cancelReservation id => (T.find id).isSome
  | .updateReservation _ => false

theorem reservations_of_error {m : Mutation} {e : Exn}
    (safe : cache = false ∨ m.writesFirst cfg w.tables = false)
    (run : Eval (unreliable db database cache) (m.handle cfg rounds) w (.error e) w') :
    w'.tables.reservations = w.tables.reservations := by
  have unsafeWrite : ¬ (cache = true ∧ m.writesFirst cfg w.tables = true) := by
    intro both
    rw [both.1, both.2] at safe
    simp at safe
  cases m with
  | createReservation data =>
    obtain ⟨out, run, thrown⟩ := Eval.map_iff.mp run
    cases out with
    | ok a => cases thrown
    | error e₁ =>
      obtain ⟨e₂, run⟩ := eval_tryCatch_error createFailed_throws run
      rcases Eval.bind_iff.mp run with ⟨customer, v, first, rest⟩ | ⟨e₃, first, -⟩
      · have same := unreliable_findOrCreateCustomer first
        rcases unreliable_createFor rest with kept | ⟨fails, room⟩
        · exact kept.trans same
        · rw [hasRoom_congr same] at room
          exact absurd ⟨fails, room⟩ unsafeWrite
      · exact unreliable_findOrCreateCustomer first
  | cancelReservation id =>
    obtain ⟨out, run, thrown⟩ := Eval.map_iff.mp run
    cases out with
    | ok a => cases thrown
    | error e₁ => exact (unreliable_cancel run).resolve_right unsafeWrite
  | updateReservation data =>
    obtain ⟨out, run, thrown⟩ := Eval.map_iff.mp run
    cases out with
    | ok a => cases thrown
    | error e₁ => exact unreliable_update run

/-! Conversely, a write that is followed by a failing `SCAN`. -/

theorem findOrCreateCustomer_resolves {name : String} :
    Eval (unreliable db database cache) (findOrCreateCustomer name) w
      (.ok (w.tables.customerFor name).1) { w with tables := (w.tables.customerFor name).2 } := by
  unfold findOrCreateCustomer Tables.customerFor
  have fetched : Eval (unreliable db database cache) (customerRepo.findOne name) w
      (.ok (w.tables.customers.find? fun c => c.name = name)) w :=
    unreliable_call.mpr (.inl ⟨rfl, rfl⟩)
  refine Eval.bind_iff.mpr (.inl ⟨_, w, fetched, ?_⟩)
  cases w.tables.customers.find? fun c => c.name = name with
  | some customer => exact .pure
  | none => exact unreliable_call.mpr (.inl ⟨rfl, rfl⟩)

/-- The first `SCAN` fails. -/
theorem clear_fails : Eval (unreliable db database true) (clearReservationCache rounds) w
    (.error .queryFailed) w := by
  have scanFails : ∀ {pattern : String} {cursor : Cursor} {again : Cursor → Async api Unit},
      Eval (unreliable db database true) (scanTurn pattern cursor again) w
        (.error .queryFailed) w := by
    intro pattern cursor again
    rw [scanTurn_eq]
    exact Eval.failing_iff.mpr (.inr ⟨rfl, .throw⟩)
  refine Eval.bind_iff.mpr (.inr ⟨_, ?_, rfl⟩)
  unfold scanAndDelete
  cases rounds with
  | zero => exact scanFails
  | succ rounds => exact scanFails

/-- With room, the reservation is stored before the exception. -/
theorem createFor_fails (rounds : Nat) {data : CreateReservationInput} {customer : Customer}
    (room : hasRoom cfg w.tables data.date data.time data.guests = true) :
    Eval (unreliable db database true) (createFor cfg rounds data customer) w (.error .queryFailed)
      { w with tables := w.tables.insert data.date data.time data.guests customer } := by
  unfold createFor
  refine Eval.bind_iff.mpr (.inl ⟨_, w, unreliable_call.mpr (.inl ⟨rfl, rfl⟩), ?_⟩)
  refine (if_pos room).symm ▸ ?_
  refine Eval.bind_iff.mpr (.inl ⟨_, _, unreliable_call.mpr (.inl ⟨rfl, rfl⟩), ?_⟩)
  exact Eval.bind_iff.mpr (.inr ⟨_, clear_fails, rfl⟩)

theorem write_of_writesFirst {m : Mutation} (first : m.writesFirst cfg w.tables = true) :
    ∃ e w', Eval (unreliable db database true) (m.handle cfg rounds) w (.error e) w' ∧
      w'.tables.reservations ≠ w.tables.reservations := by
  cases m with
  | createReservation data =>
    have room : hasRoom cfg (w.tables.customerFor data.customerName).2 data.date data.time
        data.guests = true := by
      rw [hasRoom_congr (w.tables.customerFor_reservations data.customerName)]
      exact first
    have found : Eval (unreliable db database true) (findOrCreateCustomer data.customerName)
        w _ _ :=
      findOrCreateCustomer_resolves
    have body := Eval.bind_iff.mpr (.inl ⟨_, _, found, createFor_fails rounds room⟩)
    refine ⟨_, _, Eval.map_iff.mpr ⟨_, Eval.tryCatch_iff.mpr (.inr ⟨_, _, body, .throw⟩), rfl⟩, ?_⟩
    simp [Tables.insert]
  | cancelReservation id =>
    obtain ⟨r, found⟩ := Option.isSome_iff_exists.mp first
    have count : (w.tables.reservations.countP fun r => r.id = id) ≠ 0 := by
      intro zero
      rw [Tables.count_eq_zero.mp zero] at found
      cases found
    have body : Eval (unreliable db database true) (do
        let affected ← reservationRepo.delete id
        if affected = 0 then
          .throw (.notFound ("Reservation with ID " ++ String.ofList (JsNumber.integerText id) ++
            " not found") : Exn)
        else
          clearReservationCache rounds
          pure true) w (.error .queryFailed) { w with tables := w.tables.remove id } := by
      refine Eval.bind_iff.mpr (.inl ⟨_, _, unreliable_call.mpr (.inl ⟨rfl, rfl⟩), ?_⟩)
      refine (if_neg count).symm ▸ ?_
      exact Eval.bind_iff.mpr (.inr ⟨_, clear_fails, rfl⟩)
    refine ⟨_, _, Eval.map_iff.mpr ⟨_, Eval.tryCatch_iff.mpr (.inr ⟨_, _, body, .throw⟩), rfl⟩, ?_⟩
    -- the deleted row was in the table
    intro same
    have kept : r ∈ (w.tables.remove id).reservations := by
      rw [same]
      exact List.mem_of_find?_eq_some found
    have other := of_decide_eq_true (List.mem_filter.mp kept).2
    exact other (Tables.id_of_find found)
  | updateReservation data => cases first

/-- **Exceptions and the reservations.**  Every exception of a mutation means that
the reservations are as before, whatever calls fail, exactly if calls to Redis do
not fail or the mutation does not write before it clears the cache. -/
theorem error_leaves_reservations_iff (db : QueryEngine) (cfg : Config) (rounds : Nat)
    (database cache : Bool) (m : Mutation) (w : World) :
    (∀ e w', Eval (unreliable db database cache) (m.handle cfg rounds) w (.error e) w' →
      w'.tables.reservations = w.tables.reservations) ↔
    (cache = false ∨ m.writesFirst cfg w.tables = false) := by
  constructor
  · intro kept
    cases cache with
    | false => exact .inl rfl
    | true =>
      refine .inr (Bool.eq_false_iff.mpr ?_)
      intro first
      obtain ⟨e, w', run, changed⟩ := write_of_writesFirst first
      exact changed (kept e w' run)
  · intro safe e w' run
    exact reservations_of_error safe run

/-- A request for two people, at a date without reservations. -/
def tableForTwo : CreateReservationInput := ⟨"Ada", "2025-03-10", "18:00", 2⟩

/-- The reservation is stored, the clearing of the cache fails, and so does the
request. -/
theorem error_after_write :
    ¬ ∀ (db : QueryEngine) (cfg : Config) (rounds : Nat) (m : Mutation) (w w' : World) (e : Exn),
      Eval (unreliable db true true) (m.handle cfg rounds) w (.error e) w' →
      w'.tables.reservations = w.tables.reservations := by
  intro claim
  have first : (Mutation.createReservation tableForTwo).writesFirst .default World.empty.tables =
      true := by
    decide +kernel
  have written : ∃ e w', Eval (unreliable .inMemory true true)
      ((Mutation.createReservation tableForTwo).handle .default 0) .empty (.error e) w' ∧
      w'.tables.reservations ≠ World.empty.tables.reservations := write_of_writesFirst first
  obtain ⟨e, w', run, changed⟩ := written
  exact changed (claim _ _ _ _ _ _ _ run)

/-! ## Reservations that are turned away -/

/-- The reservation was not stored: other times are suggested, or there are none. -/
def Rejected : Except Exn Response → Prop
  | .ok (.created out) => out.reservation = none
  | .error (.badRequest _) => True
  | _ => False

/-- The customers once somebody of the name has asked for a reservation. -/
def customersWith (T : Tables) (name : String) : List Customer :=
  if T.customers.any (fun c => c.name = name) then T.customers
  else T.customers ++ [⟨T.nextCustomer, name⟩]

theorem customerFor_customers (T : Tables) (name : String) :
    (T.customerFor name).2.customers = customersWith T name := by
  unfold Tables.customerFor customersWith
  cases found : T.customers.find? fun c => c.name = name with
  | some customer =>
    have matched := List.find?_some found
    have known : (T.customers.any fun c => decide (c.name = name)) = true :=
      List.any_eq_true.mpr ⟨customer, List.mem_of_find?_eq_some found, matched⟩
    rw [if_pos known]
  | none =>
    have unknown : ¬ (T.customers.any fun c => decide (c.name = name)) = true := by
      intro known
      obtain ⟨customer, member, same⟩ := List.any_eq_true.mp known
      exact List.find?_eq_none.mp found customer member same
    rw [if_neg unknown]
    rfl

/-- A reservation that is stored is not rejected. -/
theorem not_rejected_of_room {data : CreateReservationInput} {out : Except Exn Response}
    (room : hasRoom cfg w.tables data.date data.time data.guests = true)
    (run : Eval (interp db) ((Mutation.createReservation data).handle cfg rounds) w out w') :
    ¬ Rejected out := by
  obtain ⟨out', created, rfl⟩ := Eval.map_iff.mp run
  have done := eval_cacheless_iff.mp ((CacheBlind.create w out' w'.tables).mpr ⟨w', created, rfl⟩)
  have same := w.tables.customerFor_reservations data.customerName
  rw [direct_create, direct_createFor, hasRoom_congr same, if_pos room] at done
  obtain ⟨rfl, -⟩ := Prod.mk.inj (Option.some.inj done)
  intro rejected
  cases rejected

/-- **A rejected booking leaves only its customer.**  The reservations are as
before, and so are the customers, but for a new one of the given name if there was
none. -/
theorem rejected_leaves_customer (db : QueryEngine) (cfg : Config) (rounds : Nat)
    (data : CreateReservationInput) (w w' : World) (out : Except Exn Response)
    (run : Eval (interp db) ((Mutation.createReservation data).handle cfg rounds) w out w')
    (rejected : Rejected out) :
    w'.tables.reservations = w.tables.reservations ∧
      w'.tables.customers = customersWith w.tables data.customerName := by
  have full : ¬ hasRoom cfg w.tables data.date data.time data.guests = true := by
    intro room
    exact not_rejected_of_room room run rejected
  have after := eval_create run
  rw [if_neg full] at after
  rw [after]
  exact ⟨w.tables.customerFor_reservations data.customerName, customerFor_customers _ _⟩

/-- A request for all seats from somebody who has not been here before. -/
def tenForEve : CreateReservationInput := ⟨"Eve", "2025-03-10", "18:00", 10⟩

/-- At 18:00 all seats are taken: other times are suggested. -/
def suggestions : CreateReservationOutput :=
  { message := "Requested time is unavailable. Suggested available times:"
    availableSlots := ["18:30", "17:00"]
    reservation := none }

theorem eval_tenForEve : ∃ w', Eval (interp .inMemory)
    ((Mutation.createReservation tenForEve).handle .default 0) ⟨oneFull, .empty⟩
    (.ok (.created suggestions)) w' ∧ w'.tables = oneFull.addCustomer "Eve" := by
  have answer : (direct .inMemory ((Mutation.createReservation tenForEve).handle .default 0)
      oneFull).map (fun r => (r.1.toOption, r.2)) =
      some (some (.created suggestions), oneFull.addCustomer "Eve") := by
    decide +kernel
  obtain ⟨⟨out, T⟩, done, same⟩ := Option.map_eq_some_iff.mp answer
  cases out with
  | error e => cases same
  | ok response =>
    cases same
    exact (CacheBlind.mutation _ ⟨oneFull, .empty⟩ _ _).mp (eval_cacheless_iff.mpr done)

theorem rejected_leaves_eve : ∃ w', Eval (interp .inMemory)
    ((Mutation.createReservation tenForEve).handle .default 0) ⟨oneFull, .empty⟩
    (.ok (.created suggestions)) w' ∧ w'.tables.reservations = oneFull.reservations ∧
      w'.tables.customers = customersWith oneFull "Eve" := by
  obtain ⟨w', run, -⟩ := eval_tenForEve
  exact ⟨w', run, rejected_leaves_customer _ _ _ _ _ _ _ run rfl⟩

/-- The customers are not always as before. -/
theorem rejected_adds_customer :
    ¬ ∀ (db : QueryEngine) (cfg : Config) (rounds : Nat) (isDateString : String → Bool)
      (data : CreateReservationInput) (w w' : World) (out : Except Exn Response),
      data.accepted isDateString = true →
      Eval (interp db) ((Mutation.createReservation data).handle cfg rounds) w out w' →
      Rejected out → w'.tables.reservations = w.tables.reservations ∧
        w'.tables.customers = w.tables.customers := by
  intro claim
  obtain ⟨w', run, after⟩ := eval_tenForEve
  have accepted : tenForEve.accepted isoDateString = true := by decide +kernel
  have same := (claim _ _ _ _ _ _ _ _ accepted run rfl).2
  rw [after] at same
  exact absurd same (by decide)

end RestaurantAssistant
