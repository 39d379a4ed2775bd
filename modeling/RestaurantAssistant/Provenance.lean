import RestaurantAssistant.Async.Moments
import RestaurantAssistant.CacheRaces
import RestaurantAssistant.CacheTransparency

/-!
# Where answers come from

The cache can be stale while requests are in flight.  Even then an answer is never made up:
in every interleaving of queries as declared, mutations and expiring entries, each answer is
what the tables gave for that query at an earlier moment of the run, or was in the cache at
its start (`answers_were_true`).  A listing takes two looks at the tables: its items are those
of one moment and its count that of a later one.
-/

namespace RestaurantAssistant

open Awaiting Js

variable {db : QueryEngine} {cfg : Config} {rounds : Nat}

/-! ## What a query returns -/

/-- The value follows from what the program has fetched for the query. -/
def Computed (db : QueryEngine) (cfg : Config) (q : Query) (h : History api World)
    (value : QueryOutput) : Prop :=
  match q with
  | .getReservations filter pagination sort =>
    let query := listingQuery filter pagination sort
    ∃ s₁ s₂ : World, [((.db (.getCount query) : Call), s₂), (.db (.getMany query), s₁)].Sublist h ∧
      value = .reservations ⟨db.getMany query s₁.tables.reservations,
        ⟨db.getCount query s₂.tables.reservations⟩⟩
  | .checkAvailability data =>
    ∃ s : World, ((.db (.findReservations data.date) : Call), s) ∈ h ∧
      fresh db cfg s.tables (.checkAvailability data) = some value

theorem Computed.cons {q : Query} {h : History api World} {value : QueryOutput}
    (step : Call × World) (computed : Computed db cfg q h value) :
    Computed db cfg q (step :: h) value := by
  cases q with
  | getReservations filter pagination sort =>
    obtain ⟨s₁, s₂, both, same⟩ := computed
    exact ⟨s₁, s₂, both.cons step, same⟩
  | checkAvailability data =>
    obtain ⟨s, fetched, answer⟩ := computed
    exact ⟨s, List.mem_cons_of_mem step fetched, answer⟩

/-- Where a query stands: it stores what it has computed, under its own key, and returns
that or what it has read under its key. -/
structure Answers (db : QueryEngine) (cfg : Config) (q : Query) (h : History api World)
    (p : Async api Response) : Prop where
  stores : ∀ key value ttl, p.next? = some (.redis (.set key value ttl)) →
    key = q.key ∧ Computed db cfg q h value
  returns : ∀ value, p = .pure (.queried value) → Computed db cfg q h value ∨
    ∃ s : World, ((.redis (.get q.key) : Call), s) ∈ h ∧ s.redis.get q.key = some value

theorem Answers.awaits {q : Query} {h : History api World} {call : Call}
    {k : Except Exn call.Reply → Async api Response}
    (noSet : ∀ key value ttl, call ≠ .redis (.set key value ttl)) :
    Answers db cfg q h (.await call k) := by
  refine ⟨?_, ?_⟩
  · intro key value ttl sets
    exact absurd (Option.some.inj sets) (noSet key value ttl)
  · intro value same
    cases same

/-- The last two steps of a query. -/
theorem answers_store {q : Query} {h : History api World} {value : QueryOutput}
    (computed : Computed db cfg q h value) :
    ((redisService.set q.key value 300 >>= fun _ => .pure value).tryCatch
      (fun _ => .throw (q.failure : Exn)) >>= fun out => .pure (.queried out)).Always
        (interp db) (Answers db cfg q) h := by
  refine always_set ⟨?_, ?_⟩ fun s => ⟨?_, ?_⟩
  · intro key value' ttl sets
    cases sets
    exact ⟨rfl, computed⟩
  · intro value' same
    cases same
  · intro key value' ttl sets
    cases sets
  · intro value' same
    cases same
    exact .inl (computed.cons _)

theorem query_answers {q : Query} (conform : q.conform = true) :
    ((Request.query q).handle cfg rounds).Always (interp db) (Answers db cfg q) [] := by
  change (Response.queried <$> q.handle cfg).Always _ _ _
  rw [Query.handle_eq conform]
  refine always_get (.awaits fun _ _ _ sets => by cases sets) fun s => ?_
  cases found : s.redis.get q.key with
  | some value =>
    refine ⟨?_, ?_⟩
    · intro key value' ttl sets
      cases sets
    · intro value' same
      cases same
      exact .inr ⟨s, List.mem_cons_self, found⟩
  | none =>
    cases q with
    | getReservations filter pagination sort =>
      refine always_db (.awaits fun _ _ _ sets => by cases sets) fun s₁ => ?_
      refine always_db (.awaits fun _ _ _ sets => by cases sets) fun s₂ => ?_
      refine answers_store ⟨s₁, s₂, ?_, rfl⟩
      exact (List.nil_sublist _).cons_cons _ |>.cons_cons _
    | checkAvailability data =>
      refine always_db (.awaits fun _ _ _ sets => by cases sets) fun s₁ => ?_
      simp only [Tables.answer, ofExcept_ok, Async.bind]
      cases answer : availabilityOf cfg ((s₁.tables.on data.date).map Reservation.toBooking)
        data with
      | none =>
        refine ⟨?_, ?_⟩
        · intro key value ttl sets
          cases sets
        · intro value same
          cases same
      | some out =>
        refine answers_store ⟨s₁, List.mem_cons_self, ?_⟩
        rw [fresh_availability, Tables.bookingsOn, answer]
        rfl

/-- Where a request stands: only queries store anything. -/
def StoresOwn (db : QueryEngine) (cfg : Config) (r : Request) (h : History api World)
    (p : Async api Response) : Prop :=
  match r with
  | .query q => Answers db cfg q h p
  | .mutation _ => ∀ key value ttl, p.next? ≠ some (.redis (.set key value ttl))

theorem request_storesOwn {r : Request} (conform : r.conform = true) :
    (r.handle cfg rounds).Always (interp db) (StoresOwn db cfg r) [] := by
  cases r with
  | query q => exact query_answers conform
  | mutation m =>
    cases m with
    | createReservation data => exact create_writesThenClears.mono fun _ _ stands => stands.noSet
    | cancelReservation id =>
      exact (cancel_writesThenClears cfg).mono fun _ _ stands => stands.noSet
    | updateReservation data =>
      have always : ((Mutation.updateReservation data).handle cfg rounds).Always (interp db)
          (ClearsThenWrites data) [] := update_clearsThenWrites
      exact always.mono fun _ _ stands => stands.noSet

/-! ## Moments of the run -/

section Run

variable (db : QueryEngine) (cfg : Config) (rounds : Nat) (es : List (Event Request Choice String))
  (w : World)

/-- The tables gave this answer at a moment before `n`; the items of a listing at one moment,
the count at a later one. -/
def AnsweredBefore (n : Nat) (q : Query) (value : QueryOutput) : Prop :=
  match q with
  | .getReservations filter pagination sort =>
    let query := listingQuery filter pagination sort
    ∃ m₁ m₂ s₁ s₂, m₁ < m₂ ∧ m₂ < n ∧ (server db cfg rounds).SharedAt es ⟨w, []⟩ m₁ s₁ ∧
      (server db cfg rounds).SharedAt es ⟨w, []⟩ m₂ s₂ ∧
      value = .reservations ⟨db.getMany query s₁.tables.reservations,
        ⟨db.getCount query s₂.tables.reservations⟩⟩
  | .checkAvailability data =>
    ∃ m s, m < n ∧ (server db cfg rounds).SharedAt es ⟨w, []⟩ m s ∧
      fresh db cfg s.tables (.checkAvailability data) = some value

/-- Every entry was in the cache at the start, or is such an answer to every query with its
key. -/
def Sourced (n : Nat) (s : World) : Prop :=
  ∀ e ∈ s.redis.entries, (∃ e₀ ∈ w.redis.entries, e₀.key = e.key ∧ e₀.value = e.value) ∨
    ∀ q : Query, q.conform = true → q.key = e.key →
      AnsweredBefore db cfg rounds es w n q e.value

variable {db cfg rounds es w} {n : Nat}

theorem AnsweredBefore.later {q : Query} {value : QueryOutput}
    (answered : AnsweredBefore db cfg rounds es w n q value) :
    AnsweredBefore db cfg rounds es w (n + 1) q value := by
  cases q with
  | getReservations filter pagination sort =>
    obtain ⟨m₁, m₂, s₁, s₂, order, before, rest⟩ := answered
    exact ⟨m₁, m₂, s₁, s₂, order, by omega, rest⟩
  | checkAvailability data =>
    obtain ⟨m, s, before, rest⟩ := answered
    exact ⟨m, s, by omega, rest⟩

/-- The key of a query determines its answers. -/
theorem AnsweredBefore.of_key_eq {q q' : Query} {value : QueryOutput} (conform : q.conform = true)
    (conform' : q'.conform = true) (same : q'.key = q.key)
    (answered : AnsweredBefore db cfg rounds es w n q value) :
    AnsweredBefore db cfg rounds es w n q' value := by
  cases q with
  | getReservations filter pagination sort =>
    cases q' with
    | getReservations filter' pagination' sort' =>
      obtain ⟨rfl, rfl, rfl⟩ := listingKey_inj same
      exact answered
    | checkAvailability data' => exact absurd same.symm listingKey_ne_availabilityKey
  | checkAvailability data =>
    cases q' with
    | getReservations filter' pagination' sort' => exact absurd same listingKey_ne_availabilityKey
    | checkAvailability data' =>
      obtain ⟨m, s, before, there, answer⟩ := answered
      refine ⟨m, s, before, there, ?_⟩
      rw [fresh_eq] at answer ⊢
      rw [Query.answer_eq_of_key_eq conform' conform same, answer]

/-- What a request has computed is such an answer. -/
theorem Computed.answeredBefore {q : Query} {h : History api World} {value : QueryOutput}
    (computed : Computed db cfg q h value)
    (dated : (server db cfg rounds).Dated es ⟨w, []⟩ n h) :
    AnsweredBefore db cfg rounds es w n q value := by
  cases q with
  | getReservations filter pagination sort =>
    obtain ⟨s₁, s₂, both, same⟩ := computed
    obtain ⟨m₁, m₂, order, before, there₁, there₂⟩ := dated.moments both
    exact ⟨m₁, m₂, s₁, s₂, order, before, there₁, there₂, same⟩
  | checkAvailability data =>
    obtain ⟨s, fetched, answer⟩ := computed
    obtain ⟨m, before, there⟩ := dated.moment fetched
    exact ⟨m, s, before, there, answer⟩

theorem Sourced.later {s : World} (sourced : Sourced db cfg rounds es w n s) :
    Sourced db cfg rounds es w (n + 1) s := by
  intro e member
  rcases sourced e member with start | answered
  · exact .inl start
  · exact .inr fun q conform key => (answered q conform key).later

/-- What is read under a query's key. -/
theorem Sourced.get {s : World} {q : Query} {value : QueryOutput} (conform : q.conform = true)
    (sourced : Sourced db cfg rounds es w n s) (found : s.redis.get q.key = some value) :
    (∃ e ∈ w.redis.entries, e.key = q.key ∧ e.value = value) ∨
      AnsweredBefore db cfg rounds es w n q value := by
  obtain ⟨e, member, key, rfl⟩ := Redis.exists_of_get found
  rcases sourced e member with ⟨e₀, was, sameKey, sameValue⟩ | answered
  · exact .inl ⟨e₀, was, sameKey.trans key, sameValue⟩
  · exact .inr (answered q conform key.symm)

variable (db cfg rounds es w) in
/-- What holds at every moment: the requests' calls were made in order at moments of the run,
and all caches they have met hold such answers only. -/
structure Accounted (n : Nat) (Q : Pool api Request World Response) : Prop where
  dated : Q.Dated (server db cfg rounds) es ⟨w, []⟩ n
  stores : Q.Always (StoresOwn db cfg) (interp db)
  conform : ∀ proc ∈ Q.procs, proc.request.conform = true
  now : Sourced db cfg rounds es w n Q.shared
  met : ∀ proc ∈ Q.procs, ∀ step ∈ proc.history, Sourced db cfg rounds es w n step.2

/-- The entries after a call are old ones, or what a query has just stored. -/
theorem sourced_resume {Q : Pool api Request World Response}
    {proc : Proc api Request World Response}
    {call : Call} {k : Except Exn call.Reply → Async api Response} {c : Choice}
    {r : Except Exn call.Reply} {s' : World} (accounted : Accounted db cfg rounds es w n Q)
    (member : proc ∈ Q.procs) (suspended : proc.prog = .await call k)
    (answered : (interp db).answer c call Q.shared = some (r, s')) :
    Sourced db cfg rounds es w n s' := by
  have stands := (accounted.stores proc member).here
  rw [suspended] at stands
  cases call with
  | db call =>
    obtain ⟨-, -, rfl⟩ := interp_db.mp answered
    exact accounted.now
  | redis call =>
    cases call with
    | get key =>
      obtain ⟨-, -, rfl⟩ := interp_get.mp answered
      exact accounted.now
    | scan cursor pattern count =>
      obtain ⟨_, _, -, rfl, -⟩ := interp_scan answered
      exact accounted.now
    | del keys =>
      obtain ⟨-, -, rfl⟩ := interp_del.mp answered
      intro e there
      exact accounted.now e (Redis.mem_del.mp there).1
    | set key value ttl =>
      obtain ⟨-, -, rfl⟩ := interp_set.mp answered
      intro e there
      rcases Redis.mem_set there with ⟨was, _⟩ | ⟨sameKey, sameValue⟩
      · exact accounted.now e was
      · -- only a query gets here, with what it has computed
        have conform := accounted.conform proc member
        cases asked : proc.request with
        | mutation m =>
          rw [asked] at stands
          exact absurd rfl (stands key value ttl)
        | query q =>
          rw [asked] at stands conform
          obtain ⟨own, computed⟩ := stands.stores key value ttl rfl
          refine .inr fun q' conform' key' => ?_
          rw [sameValue]
          exact (computed.answeredBefore (accounted.dated proc member)).of_key_eq conform conform'
            (key'.trans (sameKey.trans own))

theorem accounted_step {e : Event Request Choice String} {Q Q' : Pool api Request World Response}
    (arrives : ∀ r, e = .arrive r → r.conform = true)
    (reached : (server db cfg rounds).run (es.take n) ⟨w, []⟩ = some Q)
    (accounted : Accounted db cfg rounds es w n Q)
    (fired : (server db cfg rounds).fire e Q = some Q') :
    Accounted db cfg rounds es w (n + 1) Q' := by
  have dated := Server.fire_dated reached accounted.dated fired
  have stores : Q'.Always (StoresOwn db cfg) (interp db) :=
    Server.fire_always (V := server db cfg rounds) _
      (fun r same => request_storesOwn (arrives r same)) fired accounted.stores
  have met : ∀ proc ∈ Q.procs, ∀ step ∈ proc.history,
      Sourced db cfg rounds es w (n + 1) step.2 := fun proc member step within =>
    (accounted.met proc member step within).later
  rcases Server.fire_cases fired with ⟨r, rfl, rfl⟩ |
    ⟨i, c, old, call, k, r, s', rfl, found, suspended, answered, rfl⟩ | ⟨key, rfl, rfl⟩
  · refine ⟨dated, stores, ?_, accounted.now.later, ?_⟩
    · intro proc member
      rcases List.mem_append.mp member with member | member
      · exact accounted.conform proc member
      · cases List.mem_singleton.mp member
        exact arrives r rfl
    · intro proc member
      rcases List.mem_append.mp member with member | member
      · exact met proc member
      · cases List.mem_singleton.mp member
        intro step within
        cases within
  · have was := List.mem_of_getElem? found
    refine ⟨dated, stores, ?_, (sourced_resume accounted was suspended answered).later, ?_⟩
    · intro proc member
      rcases List.mem_or_eq_of_mem_set member with member | rfl
      · exact accounted.conform proc member
      · exact accounted.conform old was
    · intro proc member
      rcases List.mem_or_eq_of_mem_set member with member | rfl
      · exact met proc member
      · intro step within
        rcases List.mem_cons.mp within with rfl | within
        · exact accounted.now.later
        · exact met old was step within
  · refine ⟨dated, stores, accounted.conform, ?_, met⟩
    intro e there
    exact accounted.now.later e (Redis.mem_del.mp there).1

/-- **No answer is made up.**  However requests interleave whose queries conform to their
declared format, an answer a query has returned was in the cache under its key at the start,
or is what the tables gave for this query at an earlier moment of the run. -/
theorem answers_were_true {P : Pool api Request World Response}
    (conform : ∀ r, .arrive r ∈ es → r.conform = true)
    (ran : (server db cfg rounds).run es ⟨w, []⟩ = some P)
    {proc : Proc api Request World Response} (member : proc ∈ P.procs) {q : Query}
    {value : QueryOutput} (asked : proc.request = .query q)
    (returned : proc.prog = .pure (.queried value)) :
    (∃ e ∈ w.redis.entries, e.key = q.key ∧ e.value = value) ∨
      AnsweredBefore db cfg rounds es w es.length q value := by
  have accounted : Accounted db cfg rounds es w es.length P := by
    refine Server.run_moments (Accounted db cfg rounds es w) ?_ ran ⟨?_, ?_, ?_, ?_, ?_⟩
    · intro n Q e Q' reached accounted event fired
      refine accounted_step (fun r same => conform r ?_) reached accounted fired
      rw [← same]
      exact List.mem_of_getElem? event
    · intro proc member
      cases member
    · exact Pool.always_nil _
    · intro proc member
      cases member
    · intro e there
      exact .inl ⟨e, there, rfl, rfl⟩
    · intro proc member
      cases member
  have stands := (accounted.stores proc member).here
  have conforms := accounted.conform proc member
  rw [asked] at stands conforms
  rcases stands.returns value returned with computed | ⟨s, read, found⟩
  · exact .inr (computed.answeredBefore (accounted.dated proc member))
  · exact (accounted.met proc member _ read).get conforms found

end Run

/-- After the slow query the cache still offers the seat that is taken: it was free once. -/
theorem answers_were_true_stale_seat :
    let es := slowQuery ++ [.arrive (.query seatAtSix), .resume 2 .reply]
    AnsweredBefore .inMemory .default 0 es .empty es.length seatAtSix seatLeftAtSix.value := by
  intro es
  have result : ((server .inMemory .default 0).run es ⟨.empty, []⟩).bind (fun P =>
      P.procs[2]?.map fun proc => (proc.request, proc.prog.result?)) =
        some (.query seatAtSix, some (.queried seatLeftAtSix.value)) := by
    decide +kernel
  obtain ⟨P, ran, shown⟩ := Option.bind_eq_some_iff.mp result
  obtain ⟨proc, found, same⟩ := Option.map_eq_some_iff.mp shown
  obtain ⟨asked, returned⟩ := Prod.mk.inj same
  have conform : ∀ r, Event.arrive r ∈ es → r.conform = true := by
    intro r member
    simp only [es, slowQuery, List.cons_append, List.nil_append, List.mem_cons,
      Event.arrive.injEq, reduceCtorEq, false_or, or_false, List.not_mem_nil] at member
    rcases member with rfl | rfl | rfl <;> decide
  rcases answers_were_true conform ran (List.mem_of_getElem? found) asked
    (Async.result?_eq_some.mp returned) with ⟨e, member, _⟩ | answered
  · cases member
  · exact answered

end RestaurantAssistant
