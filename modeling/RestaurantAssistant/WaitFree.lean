import RestaurantAssistant.Async.Progress
import RestaurantAssistant.Resolver

/-!
# No operation waits for another

The service takes no locks.  Whatever the others have done and wherever they stand, an
operation can be brought to its end by resuming it alone, and it makes no more calls than
`Operation.maxCalls` (`operations_are_wait_free`).  The searches for slots must end, as they
do in binary64 too (`Binary64.loops_end_of_declared`) where slots take whole minutes and
ranges are between times of day, and a `SCAN` iteration must not have used up its rounds.
-/

namespace RestaurantAssistant

open Awaiting Js redisService

/-! ## Answers exist -/

section Calls

variable {db : QueryEngine} {n : Nat}

theorem lively_db (call : DbCall) : (Async.call (σ := api) (.db call)).Lively (interp db) n :=
  .call fun _ => ⟨.reply, _, _, rfl⟩

theorem lively_get (key : String) :
    (Async.call (σ := api) (.redis (.get key))).Lively (interp db) n :=
  .call fun _ => ⟨.reply, _, _, rfl⟩

theorem lively_set (key : String) (value : QueryOutput) :
    (Async.call (σ := api) (.redis (.set key value 300))).Lively (interp db) n :=
  .call fun _ => ⟨.reply, _, _, rfl⟩

theorem lively_del (keys : List String) :
    (Async.call (σ := api) (.redis (.del keys))).Lively (interp db) n :=
  .call fun _ => ⟨.reply, _, _, rfl⟩

/-- What the cursor owes matches the pattern. -/
def OwesMatching (pattern : String) : Cursor → Prop
  | none => True
  | some owed => ∀ k ∈ owed, globMatch pattern.toList k.1.toList = true

variable {pattern : String} {cursor : Cursor} {count : Nat}

theorem owed_matches (owes : OwesMatching pattern cursor) (s : World) {k : String × Nat}
    (owed : k ∈ s.redis.owed pattern cursor) : globMatch pattern.toList k.1.toList = true := by
  cases cursor with
  | some left => exact owes k owed
  | none =>
    obtain ⟨e, selected, rfl⟩ := List.mem_map.mp owed
    exact (List.mem_filter.mp selected).2

/-- A `SCAN` can return all it owes at once. -/
theorem scan_all (owes : OwesMatching pattern cursor) (s : World) :
    ∃ c r s', (interp db).answer c (.redis (.scan cursor pattern count)) s = some (r, s') ∧
      ∀ reply, r = .ok reply → reply.1 = none := by
  let keys := (s.redis.owed pattern cursor).map Prod.fst
  have every : keys.all (fun key => globMatch pattern.toList key.toList) = true := by
    apply List.all_eq_true.mpr
    intro key member
    obtain ⟨k, owed, rfl⟩ := List.mem_map.mp member
    exact owed_matches owes s owed
  have paid : ((s.redis.owed pattern cursor).filter fun k => k.1 ∉ keys) = [] := by
    apply List.filter_eq_nil_iff.mpr
    intro k owed
    have returned : k.1 ∈ keys := List.mem_map_of_mem owed
    simp [returned]
  have allowed : s.redis.answer (.batch true keys) (.scan cursor pattern count) =
      some ((none, keys), s.redis) := by
    simp only [Redis.answer, every, paid]
    rfl
  refine ⟨.batch true keys, .ok (none, keys), s, ?_, ?_⟩
  · change (s.redis.answer (.batch true keys) (.scan cursor pattern count)).map _ = _
    rw [allowed]
    rfl
  · intro reply same
    cases same
    rfl

/-- What is still owed after a batch was owed before. -/
theorem owes_of_scan {c : Choice} {s s' : World} {next : Cursor} {keys : List String}
    (owes : OwesMatching pattern cursor)
    (answered : (interp db).answer c (.redis (.scan cursor pattern count)) s =
      some (.ok (next, keys), s')) : OwesMatching pattern next := by
  cases c with
  | reply => cases answered
  | batch last returned =>
    change (s.redis.answer (.batch last returned) (.scan cursor pattern count)).map _ =
      _ at answered
    simp only [Redis.answer] at answered
    split at answered
    · cases answered
      cases last with
      | true => trivial
      | false => exact fun k left => owed_matches owes s (List.mem_filter.mp left).1
    · cases answered

/-! ## Clearing the cache -/

/-- A turn of the loop can be the last one. -/
theorem can_scanTurn {again : Cursor → Async api Unit} (owes : OwesMatching pattern cursor) :
    (scanTurn pattern cursor again).Can (interp db) fun _ => True := by
  have scans : (Async.call (σ := api) (.redis (.scan cursor pattern 100))).Can (interp db)
      fun reply => reply.1 = none := .call (scan_all owes)
  refine scans.bind fun reply last => ?_
  obtain ⟨next, keys⟩ := reply
  cases last
  dsimp only
  split
  · exact ((lively_del (n := 0) keys).can).bind fun _ _ => .pure trivial
  · exact .pure trivial

/-- A turn that is not the last one goes on with `again`. -/
theorem lively_scanTurn {again : Cursor → Async api Unit} (owes : OwesMatching pattern cursor)
    (rest : ∀ next, OwesMatching pattern next → (again next).Lively (interp db) n) :
    (scanTurn pattern cursor again).Lively (interp db) (n + 1) := by
  refine ⟨can_scanTurn owes, fun c s r s' answered => ?_⟩
  cases r with
  | error e => exact .throw
  | ok reply =>
    obtain ⟨next, keys⟩ := reply
    have goesOn : (if next = none then pure () else again next : Async api Unit).Lively
        (interp db) n := by
      split
      · exact .pure
      · exact rest next (owes_of_scan owes answered)
    change Async.Lively _ _ (if _ then _ else _ : Async api Unit)
    split
    · exact (lively_del keys).bind fun _ => goesOn
    · exact goesOn

theorem lively_scanFrom (rounds : Nat) (owes : OwesMatching pattern cursor) :
    (scanFrom pattern rounds cursor).Lively (interp db) rounds := by
  induction rounds generalizing cursor with
  | zero =>
    have can : (scanTurn pattern cursor fun _ => .diverge).Can (interp db) fun _ => True :=
      can_scanTurn owes
    exact can
  | succ rounds ih => exact lively_scanTurn owes fun next owes' => ih owes'

/-- Clearing can come to its end for as many calls as it has rounds. -/
theorem lively_clear (rounds : Nat) : (clearReservationCache rounds).Lively (interp db) rounds := by
  have start : ∀ pattern, OwesMatching pattern none := fun _ => trivial
  unfold clearReservationCache scanAndDelete
  exact (lively_scanFrom rounds (start _)).bind fun _ => lively_scanFrom rounds (start _)

end Calls

/-! ## The requests -/

section Requests

variable {db : QueryEngine} {cfg : Config} {rounds S : Nat} {isDateString : String → Bool}

theorem lively_create {data : CreateReservationInput} (slots : cfg.slotDuration = (S : JsNumber))
    (positive : 0 < S) (valid : isValidTimeString data.time = true) :
    (createReservation cfg rounds data).Lively (interp db) rounds := by
  unfold createReservation
  refine Async.Lively.tryCatch ?_ fun e => ?_
  · refine Async.Lively.bind ?_ fun customer => ?_
    · refine (lively_db (.findCustomer data.customerName)).bind fun found => ?_
      cases found with
      | some customer => exact .pure
      | none => exact lively_db (.saveCustomer data.customerName)
    · refine (lively_db (.findReservations data.date)).bind fun rows => ?_
      change Async.Lively _ _ (if _ then _ else _ : Async api _)
      split
      · refine (lively_db (.saveReservation _)).bind fun row => ?_
        exact (lively_clear rounds).bind fun _ => .pure
      · have ends : (findNearestAvailableSlots (rows.map Reservation.toBooking)
            (convertToMinutes data.time / cfg.slotDuration) cfg.slotDuration cfg.totalSeats
            (data.guests : JsNumber) cfg.reservationDuration).isSome = true :=
          findNearestAvailableSlots_isSome slots positive valid
        generalize findNearestAvailableSlots _ _ _ _ _ _ = nearest at ends ⊢
        rcases nearest with _ | _ | ⟨slot, slots⟩
        · cases ends
        · exact .throw
        · exact .pure
  · cases e <;> exact .throw

theorem lively_cancel (id : Int) : (cancelReservation rounds id).Lively (interp db) rounds := by
  unfold cancelReservation
  refine Async.Lively.tryCatch ?_ fun e => .throw
  refine (lively_db (.deleteReservation id)).bind fun affected => ?_
  split
  · exact .throw
  · exact (lively_clear rounds).bind fun _ => .pure

theorem lively_update (data : UpdateReservationInput) :
    (updateReservation rounds data).Lively (interp db) rounds := by
  unfold updateReservation
  refine Async.Lively.tryCatch ?_ fun e => ?_
  · refine (lively_db (.findReservation data.id)).bind fun found => ?_
    cases found with
    | none => exact .throw
    | some reservation => exact (lively_clear rounds).bind fun _ => lively_db (.saveReservation _)
  · cases e <;> exact .throw

theorem lively_listing {n : Nat} (filter : Arg ReservationFilterInput)
    (pagination : Arg PaginationInput) (sort : Arg SortInput) :
    (getReservations filter pagination sort).Lively (interp db) n := by
  unfold getReservations
  refine Async.Lively.tryCatch ?_ fun e => .throw
  refine (lively_get _).bind fun cached => ?_
  cases cached with
  | some value => exact .pure
  | none =>
    refine (lively_db (.getMany _)).bind fun items => (lively_db (.getCount _)).bind fun total => ?_
    exact (lively_set _ _).bind fun _ => .pure

theorem lively_availability {n : Nat} {data : CheckAvailabilityInput}
    (slots : cfg.slotDuration = (S : JsNumber)) (positive : 0 < S)
    (times : (Request.query (.checkAvailability data)).TimesOfDay) :
    (checkAvailability cfg data).Lively (interp db) n := by
  unfold checkAvailability
  refine Async.Lively.tryCatch ?_ fun e => .throw
  refine (lively_get _).bind fun cached => ?_
  cases cached with
  | some value => exact .pure
  | none =>
    refine (lively_db (.findReservations data.date)).bind fun rows => ?_
    cases timed : data.time.text with
    | some time => exact (lively_set _ _).bind fun _ => .pure
    | none =>
      cases ranged : data.timeRange with
      | undefined => exact .pure
      | null => exact .pure
      | given range =>
        obtain ⟨start, stop⟩ := times timed range ranged
        have ends : (findAvailableSlots (rows.map Reservation.toBooking)
            (convertToMinutes range.start / cfg.slotDuration)
            (convertToMinutes range.stop / cfg.slotDuration) cfg.slotDuration cfg.totalSeats
            (data.guests : JsNumber) cfg.reservationDuration).isSome = true :=
          findAvailableSlots_isSome slots positive start stop
        dsimp only
        generalize findAvailableSlots _ _ _ _ _ _ _ = found at ends ⊢
        cases found with
        | none => cases ends
        | some found => exact (lively_set _ _).bind fun _ => .pure

/-- A request comes to its end for as many calls as the cache is given rounds. -/
theorem lively_request {r : Request} (slots : cfg.slotDuration = (S : JsNumber))
    (positive : 0 < S) (times : r.TimesOfDay) :
    (r.handle cfg rounds).Lively (interp db) rounds := by
  rcases r with q | m
  · refine Async.Lively.bind ?_ fun _ => .pure
    cases q with
    | getReservations filter pagination sort => exact lively_listing filter pagination sort
    | checkAvailability data => exact lively_availability slots positive times
  · cases m with
    | createReservation data =>
      exact Async.Lively.bind (lively_create slots positive times) fun _ => .pure
    | cancelReservation id => exact Async.Lively.bind (lively_cancel id) fun _ => .pure
    | updateReservation data => exact Async.Lively.bind (lively_update data) fun _ => .pure

/-! ## How many calls -/

theorem within_scanTurn {pattern : String} {cursor : Cursor} {again : Cursor → Async api Unit}
    {n : Nat} (rest : ∀ next, (again next).Within n) :
    (scanTurn pattern cursor again).Within (n + 2) := by
  have scans : (Async.call (σ := api) (.redis (.scan cursor pattern 100))).Within 1 := .call
  refine (scans.bind (n := 1 + n) fun reply => ?_).mono (by omega)
  obtain ⟨next, keys⟩ := reply
  have goesOn : (if next = none then pure () else again next : Async api Unit).Within n := by
    split
    · exact .pure
    · exact rest next
  have deletes : (Async.call (σ := api) (.redis (.del keys))).Within 1 := .call
  dsimp only
  split
  · exact deletes.bind fun _ => goesOn
  · exact goesOn.mono (by omega)

theorem within_scanFrom {pattern : String} {cursor : Cursor} :
    (scanFrom pattern rounds cursor).Within (2 * (rounds + 1)) := by
  induction rounds generalizing cursor with
  | zero => exact within_scanTurn (n := 0) fun _ => .diverge
  | succ rounds ih => exact within_scanTurn (n := 2 * (rounds + 1)) fun _ => ih

/-- The calls that clearing the cache takes: for each of two patterns, a `SCAN` and a `DEL` in
each round. -/
def clearCalls (rounds : Nat) : Nat := 2 * (rounds + 1) + 2 * (rounds + 1)

theorem within_clear : (clearReservationCache rounds).Within (clearCalls rounds) := by
  unfold clearReservationCache scanAndDelete
  exact within_scanFrom.bind fun _ => within_scanFrom

/-- The calls a request makes at most. -/
def Request.maxCalls (rounds : Nat) : Request → Nat
  | .query (.getReservations _ _ _) => 4
  | .query (.checkAvailability _) => 3
  | .mutation (.createReservation _) => clearCalls rounds + 4
  | .mutation (.cancelReservation _) => clearCalls rounds + 1
  | .mutation (.updateReservation _) => clearCalls rounds + 2

theorem within_db (call : DbCall) : (Async.call (σ := api) (.db call)).Within 1 := .call

theorem within_redis (call : RedisCall QueryOutput) :
    (Async.call (σ := api) (.redis call)).Within 1 := .call

theorem within_create (data : CreateReservationInput) :
    (createReservation cfg rounds data).Within (clearCalls rounds + 4) := by
  unfold createReservation
  refine Async.Within.tryCatch ?_ fun e => ?_
  · have customer : (findOrCreateCustomer data.customerName).Within 2 := by
      refine (within_db (.findCustomer data.customerName)).bind (n := 1) fun found => ?_
      cases found with
      | some customer => exact .pure
      | none => exact within_db (.saveCustomer data.customerName)
    refine (customer.bind (n := clearCalls rounds + 2) fun customer => ?_).mono (by omega)
    refine ((within_db (.findReservations data.date)).bind (n := clearCalls rounds + 1)
      fun rows => ?_).mono (by omega)
    change Async.Within _ (if _ then _ else _ : Async api _)
    split
    · refine ((within_db (.saveReservation _)).bind (n := clearCalls rounds + 0)
        fun row => ?_).mono (by omega)
      exact within_clear.bind fun _ => .pure
    · generalize findNearestAvailableSlots _ _ _ _ _ _ = nearest
      rcases nearest with _ | _ | ⟨slot, slots⟩
      · exact .diverge
      · exact .throw
      · exact .pure
  · cases e <;> exact .throw

theorem within_listing (filter : Arg ReservationFilterInput) (pagination : Arg PaginationInput)
    (sort : Arg SortInput) : (getReservations filter pagination sort).Within 4 := by
  unfold getReservations
  refine Async.Within.tryCatch ?_ fun _ => .throw
  refine (within_redis (.get _)).bind (n := 3) fun cached => ?_
  cases cached with
  | some value => exact .pure
  | none =>
    refine (within_db (.getMany _)).bind (n := 2) fun items => ?_
    refine (within_db (.getCount _)).bind (n := 1) fun total => ?_
    exact (within_redis (.set _ _ _)).bind (n := 0) fun _ => .pure

theorem within_availability (data : CheckAvailabilityInput) :
    (checkAvailability cfg data).Within 3 := by
  have stores : ∀ value, (set (availabilityKey data) value 300 >>= fun _ =>
      pure value : Async api QueryOutput).Within 1 := by
    intro value
    exact (within_redis (.set _ _ _)).bind (n := 0) fun _ => .pure
  unfold checkAvailability
  refine Async.Within.tryCatch ?_ fun _ => .throw
  refine (within_redis (.get _)).bind (n := 2) fun cached => ?_
  cases cached with
  | some value => exact .pure
  | none =>
    refine (within_db (.findReservations data.date)).bind (n := 1) fun rows => ?_
    cases data.time.text with
    | some time => exact stores _
    | none =>
      cases data.timeRange with
      | undefined => exact .pure
      | null => exact .pure
      | given range =>
        dsimp only
        generalize findAvailableSlots _ _ _ _ _ _ _ = slots
        cases slots with
        | none => exact .diverge
        | some slots => exact stores _

theorem within_request (r : Request) : (r.handle cfg rounds).Within (r.maxCalls rounds) := by
  rcases r with (⟨filter, pagination, sort⟩ | data) | data | id | data
  · exact Async.Within.bind (n := 0) (within_listing filter pagination sort) fun _ => .pure
  · exact Async.Within.bind (n := 0) (within_availability data) fun _ => .pure
  · exact Async.Within.bind (n := 0) (within_create data) fun _ => .pure
  · refine Async.Within.bind (n := 0) ?_ fun _ => .pure
    refine Async.Within.tryCatch ?_ fun _ => .throw
    refine ((within_db (.deleteReservation id)).bind (n := clearCalls rounds)
      fun affected => ?_).mono (by omega)
    split
    · exact .throw
    · exact within_clear.bind (n := 0) fun _ => .pure
  · refine Async.Within.bind (n := 0) ?_ fun _ => .pure
    refine Async.Within.tryCatch ?_ fun e => ?_
    · refine ((within_db (.findReservation data.id)).bind (n := clearCalls rounds + 1)
        fun found => ?_).mono (by omega)
      cases found with
      | none => exact .throw
      | some reservation => exact within_clear.bind fun _ => within_db (.saveReservation _)
    · cases e <;> exact .throw

end Requests

/-! ## Runs -/

/-- The calls an operation makes at most: none if it is refused. -/
def Operation.maxCalls (isDateString : String → Bool) (rounds : Nat) (o : Operation) : Nat :=
  match o.gate isDateString with
  | .ok r => r.maxCalls rounds
  | .error _ => 0

/-- A time range the operation asks for is one between times of day. -/
def Operation.RangeOfDay : Operation → Prop
  | .checkAvailability args => ∀ range, args.timeRange = .given range →
    isValidTimeString range.start = true ∧ isValidTimeString range.stop = true
  | _ => True

/-- What gets through then searches between times of day. -/
theorem Operation.timesOfDay_of_gate {isDateString : String → Bool} {o : Operation} {r : Request}
    (ranged : o.RangeOfDay) (admitted : o.gate isDateString = .ok r) : r.TimesOfDay := by
  have accepted := Operation.accepted_of_gate admitted
  have clean : o.complaints isDateString = [] := by
    by_contra refused
    rw [Operation.gate_error refused] at admitted
    cases admitted
  cases o with
  | getReservations filter pagination sort =>
    cases admitted
    trivial
  | cancelReservation id =>
    cases admitted
    trivial
  | checkAvailability args =>
    rw [eq_of_map_validationPipe (complaints_eq_nil.mp clean) admitted]
    exact fun _ range given => ranged range given
  | createReservation args =>
    have same := eq_of_map_validationPipe (complaints_eq_nil.mp clean) admitted
    rw [same] at accepted ⊢
    exact (CreateReservationInput.valid_of_accepted accepted).1
  | updateReservation args =>
    rw [eq_of_map_validationPipe (complaints_eq_nil.mp clean) admitted]
    trivial

section Runs

variable (isDateString : String → Bool) (db : QueryEngine) (cfg : Config) (rounds : Nat)

variable {isDateString db cfg rounds} in
theorem within_operation (o : Operation) :
    ((resolver isDateString db cfg rounds).handle o).Within (o.maxCalls isDateString rounds) := by
  rw [resolver_eq_behind]
  unfold Operation.maxCalls
  cases judged : o.gate isDateString with
  | error e =>
    rw [Server.handle_of_error judged]
    exact .throw
  | ok r =>
    rw [Server.handle_of_ok judged]
    exact within_request r

variable {isDateString db cfg rounds} in
theorem lively_operation {o : Operation} {S : Nat} (slots : cfg.slotDuration = (S : JsNumber))
    (positive : 0 < S) (ranged : o.RangeOfDay) :
    ((resolver isDateString db cfg rounds).handle o).Lively (interp db) rounds := by
  rw [resolver_eq_behind]
  cases judged : o.gate isDateString with
  | error e =>
    rw [Server.handle_of_error judged]
    exact .throw
  | ok r =>
    rw [Server.handle_of_ok judged]
    exact lively_request slots positive (Operation.timesOfDay_of_gate ranged judged)

variable {w : World} {es : List (Event Operation Choice String)}
  {Q : Pool api Operation World Response} {proc : Proc api Operation World Response} {i S : Nat}

/-- **No operation waits for another.**  Slots take whole minutes, and time ranges are between
times of day.  Wherever an interleaving of operations has got to, each of them can be brought
to its end by resuming it and no other, and makes no more calls in all than its kind ever
does.  The rounds of the `SCAN` loops, which the source does not limit, are at least as many
as there were events. -/
theorem operations_are_wait_free (slots : cfg.slotDuration = (S : JsNumber)) (positive : 0 < S)
    (ran : (resolver isDateString db cfg rounds).run es ⟨w, []⟩ = some Q)
    (short : es.length ≤ rounds)
    (ranged : ∀ o, .arrive o ∈ es → o.RangeOfDay)
    (found : Q.procs[i]? = some proc) :
    ∃ (cs : List Choice) (h : History api World) (out : Except Exn Response) (t : World),
      (resolver isDateString db cfg rounds).run (cs.map (.resume i)) Q =
        some ⟨t, Q.procs.set i ⟨proc.request, h, .ofExcept out⟩⟩ ∧
      proc.history.length + cs.length ≤ proc.request.maxCalls isDateString rounds := by
  have few := Server.run_calls ran (List.mem_of_getElem? found)
  obtain ⟨cs, h, out, t, calls, alone⟩ := Server.run_lively
    (fun o good => lively_operation slots positive good) ran ranged found (few.trans short)
  have whole : (resolver isDateString db cfg rounds).run (es ++ cs.map (.resume i)) ⟨w, []⟩ =
      some ⟨t, Q.procs.set i ⟨proc.request, h, .ofExcept out⟩⟩ := by
    rw [Server.run_append, ran]
    exact alone
  have inRange := (List.getElem?_eq_some_iff.mp found).1
  have ended : (⟨proc.request, h, .ofExcept out⟩ : Proc api Operation World Response) ∈
      Q.procs.set i ⟨proc.request, h, .ofExcept out⟩ :=
    List.mem_of_getElem? (List.getElem?_set_self inRange)
  have within := Server.run_within (Operation.maxCalls isDateString rounds)
    within_operation whole ended
  refine ⟨cs, h, out, t, alone, ?_⟩
  rw [← calls]
  exact within

end Runs

/-! ## Two bookings halfway -/

def tableAtSix : Operation := .createReservation ⟨"Ada", "2025-03-10", "18:00", 4⟩

def thisEvening : Operation :=
  .checkAvailability ⟨"2025-03-10", .undefined, .given ⟨"18:00", "22:00"⟩, 2⟩

/-- Two bookings in one name: both look for the customer, and one has stored her.  Meanwhile
somebody asks what is free in the evening. -/
def halfway : List (Event Operation Choice String) :=
  [.arrive tableAtSix, .arrive tableAtSix, .resume 0 .reply, .resume 1 .reply, .resume 1 .reply,
    .arrive thisEvening]

theorem operations_are_wait_free_halfway :
    ∃ Q, (resolver isoDateString .inMemory .default 6).run halfway ⟨.empty, []⟩ = some Q ∧
      Q.procs.length = 3 ∧ ∀ i proc, Q.procs[i]? = some proc →
        ∃ (cs : List Choice) (h : History api World) (out : Except Exn Response) (t : World),
          (resolver isoDateString .inMemory .default 6).run (cs.map (.resume i)) Q =
            some ⟨t, Q.procs.set i ⟨proc.request, h, .ofExcept out⟩⟩ ∧
          proc.history.length + cs.length ≤ proc.request.maxCalls isoDateString 6 := by
  have checked : (((resolver isoDateString .inMemory .default 6).run halfway ⟨.empty, []⟩).any
      fun Q => Q.procs.length = 3) = true := by
    decide +kernel
  have ranged : ∀ o, .arrive o ∈ halfway → o.RangeOfDay := by
    intro o arrives
    have either : o = tableAtSix ∨ o = thisEvening := by simpa [halfway] using arrives
    rcases either with rfl | rfl
    · trivial
    · intro range given
      cases given
      decide
  obtain ⟨Q, ran, three⟩ := (Option.any_eq_true _ _).mp checked
  exact ⟨Q, ran, of_decide_eq_true three, fun i proc found =>
    operations_are_wait_free (S := 30) isoDateString .inMemory .default 6 rfl (by decide) ran
      (by decide) ranged found⟩

end RestaurantAssistant
